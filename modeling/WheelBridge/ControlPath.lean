import WheelBridge.Bridge

/-!
The console's class requests on their way to the backend, in every role: answered on
one core, copied into a packet of fixed size, queued, and issued again on the other
core. The answer is given before anything is repeated.
-/
namespace WheelBridge

inductive OutResponse
  | accepted
  | rejected
deriving DecidableEq

/-- What becomes of a request besides its answer. -/
inductive Handed
  | queued (msg : ControlOut)
  /-- Counted in `STATS.dropped`. -/
  | counted
  | nowhere
deriving DecidableEq

/-- An OUT request of the host, as `SetupPacket::class_interface_out` and its data. -/
structure RepeatedRequest where
  request : UInt8
  value : UInt16
  index : UInt16
  length : UInt16
  data : List UInt8
deriving DecidableEq

def repeatControl (msg : ControlOut) : RepeatedRequest where
  request := msg.request
  value := msg.value
  index := msg.index
  length := UInt16.ofNat msg.data.bytes.length
  data := msg.data.bytes

/-- The queue between the cores and the count of what did not fit. -/
structure ControlPath where
  queue : Channel ControlOut queueLen
  dropped : ℕ

def ControlPath.init : ControlPath := ⟨Channel.empty, 0⟩

inductive ControlAct
  | request (req : Request) (data : List UInt8)
  /-- `follow_wheel` clears the queues. -/
  | clear
  /-- The host side takes a message and repeats it. -/
  | take
deriving DecidableEq

inductive ControlEffect
  | answered (req : Request) (data : List UInt8) (resp : Option OutResponse) (handed : Handed)
  | cleared
  | issued (r : RepeatedRequest)
deriving DecidableEq

namespace ControlPath

/-- `Control::control_out`. -/
def request (role : Role) (req : Request) (data : List UInt8) (s : ControlPath) :
    ControlPath × List ControlEffect :=
  match controlOut role req data with
  | .none => (s, [.answered req data none .nowhere])
  | .nonce | .accepted => (s, [.answered req data (some .accepted) .nowhere])
  | .rejected => (s, [.answered req data (some .rejected) .nowhere])
  | .queue msg =>
    match s.queue.trySend msg with
    | some q => ({ s with queue := q }, [.answered req data (some .accepted) (.queued msg)])
    | none =>
      ({ s with dropped := s.dropped + 1 }, [.answered req data (some .accepted) .counted])

def step (role : Role) (s : ControlPath) : ControlAct → Option (ControlPath × List ControlEffect)
  | .request req data => some (s.request role req data)
  | .clear => if role = .wheel then some ({ s with queue := Channel.empty }, [.cleared]) else none
  | .take => s.queue.receive.map fun r => ({ s with queue := r.2 }, [.issued (repeatControl r.1)])

end ControlPath

def controlPath (role : Role) : Machine ControlPath ControlAct ControlEffect :=
  ⟨ControlPath.step role⟩

/-- The requests for the backend: HID++ SET_REPORT in the wheel role, every class request
of an interface in the others, but for the console's nonce in the relay role. -/
def ForBackend (role : Role) (req : Request) : Prop :=
  req.recipient = .interface ∧ req.requestType = .class_ ∧
    (role = .wheel → req.request = hidSetReport ∧ req.index = ifHidpp) ∧
    (role = .relay → ¬ (req.request = hidSetReport ∧ req.index = ifInput ∧
      req.kind = reportTypeFeature ∧ req.id = idNonce))

instance (role : Role) (req : Request) : Decidable (ForBackend role req) :=
  inferInstanceAs (Decidable (_ ∧ _ ∧ (_ → _) ∧ (_ → _)))

def Request.toControlOut (req : Request) (data : List UInt8) : ControlOut :=
  ⟨req.request, req.value, req.index, Packet.new data⟩

/-- The requests for the backend are queued, and no others. -/
theorem controlOut_eq_queue_iff (role : Role) (req : Request) (data : List UInt8)
    (msg : ControlOut) :
    controlOut role req data = .queue msg ↔
      ForBackend role req ∧ req.toControlOut data = msg := by
  unfold controlOut ForBackend Request.toControlOut
  by_cases hi : req.recipient = .interface ∧ req.requestType = .class_
  · obtain ⟨hr, ht⟩ := hi
    have hpass : ¬ (req.recipient ≠ .interface ∨ req.requestType ≠ .class_) := by simp [hr, ht]
    have hidpp : req.isHidpp = true ↔ req.request = hidSetReport ∧ req.index = ifHidpp := by
      simp [Request.isHidpp]
    have hif : ifInput ≠ ifHidpp := by decide
    rw [if_neg hpass]
    simp only [hr, ht, true_and, hidpp]
    cases role <;> grind
  · have hstop : req.recipient ≠ .interface ∨ req.requestType ≠ .class_ := by
      by_cases hr : req.recipient = .interface
      · exact Or.inr fun ht => hi ⟨hr, ht⟩
      · exact Or.inl hr
    rw [if_pos hstop]
    simp only [reduceCtorEq, false_iff]
    intro h
    exact hi ⟨h.1.1, h.1.2.1⟩

/-- The same request, with all of its data. -/
def Repeats (r : RepeatedRequest) (req : Request) (data : List UInt8) : Prop :=
  r.request = req.request ∧ r.value = req.value ∧ r.index = req.index ∧
    r.length.toNat = data.length ∧ r.data = data

instance (r : RepeatedRequest) (req : Request) (data : List UInt8) :
    Decidable (Repeats r req data) :=
  inferInstanceAs (Decidable (_ ∧ _ ∧ _ ∧ _ ∧ _))

/-- What is repeated for a request is the same request exactly when its data fit. -/
theorem repeats_iff (req : Request) (data : List UInt8) :
    Repeats (repeatControl (req.toControlOut data)) req data ↔ data.length ≤ maxPacket := by
  have hbytes : (req.toControlOut data).data.bytes = data.take maxPacket :=
    Packet.bytes_new data
  unfold Repeats
  simp only [repeatControl, hbytes]
  constructor
  · intro h
    have hlen := congrArg List.length h.2.2.2.2
    rw [List.length_take] at hlen
    omega
  · intro hle
    have htake : data.take maxPacket = data := List.take_of_length_le hle
    have hsize : data.length < UInt16.size := Nat.lt_of_le_of_lt hle (by decide)
    refine ⟨rfl, rfl, rfl, ?_, htake⟩
    rw [htake]
    exact UInt16.toNat_ofNat_of_lt hsize

/-- The requests answered as accepted that wait in the queue, oldest first. -/
abbrev Pending := List (Request × List UInt8)

def Pending.watch (m : Pending) : ControlEffect → Pending
  | .answered req data _ (.queued _) => m ++ [(req, data)]
  | .answered _ _ _ _ => m
  | .cleared => []
  | .issued _ => m.tail

/-- A request for the backend that is accepted is to be repeated unchanged, or counted; what
is issued is the oldest request that waits. -/
def RepeatsUnchanged (role : Role) (m : Pending) : ControlEffect → Prop
  | .answered req data resp handed =>
    ForBackend role req → resp = some .accepted →
      match handed with
      | .queued msg => Repeats (repeatControl msg) req data
      | .counted => True
      | .nowhere => False
  | .issued r =>
    match m with
    | [] => False
    | (req, data) :: _ => Repeats r req data
  | .cleared => True

/-- The data of a request for the backend fit a packet, or the queue is full. -/
def FitsPacket (role : Role) (s : ControlPath) : ControlEffect → Prop
  | .answered req data _ _ =>
    ForBackend role req → data.length ≤ maxPacket ∨ s.queue.items.length = queueLen
  | .cleared | .issued _ => True

instance (role : Role) (m : Pending) (e : ControlEffect) :
    Decidable (RepeatsUnchanged role m e) :=
  match e, m with
  | .answered _ _ _ (.queued _), _ => inferInstanceAs (Decidable (_ → _ → Repeats _ _ _))
  | .answered _ _ _ .counted, _ => inferInstanceAs (Decidable (_ → _ → True))
  | .answered _ _ _ .nowhere, _ => inferInstanceAs (Decidable (_ → _ → False))
  | .issued _, [] => isFalse id
  | .issued _, (_, _) :: _ => inferInstanceAs (Decidable (Repeats _ _ _))
  | .cleared, _ => isTrue trivial

/-- The queue holds a copy of each request that waits, and the copy is whole. -/
structure Copied (s : ControlPath) (m : Pending) : Prop where
  items : s.queue.items = m.map fun o => o.1.toControlOut o.2
  fits : ∀ o ∈ m, o.2.length ≤ maxPacket

/-- Everything one step can be. -/
inductive ControlPath.Stepped (role : Role) (s : ControlPath) :
    ControlPath → List ControlEffect → Prop
  | other (req : Request) (data : List UInt8) (resp : Option OutResponse)
      (hnot : ¬ ForBackend role req) :
      Stepped role s s [.answered req data resp .nowhere]
  | queued (req : Request) (data : List UInt8) (q : Channel ControlOut queueLen)
      (hback : ForBackend role req) (hq : s.queue.trySend (req.toControlOut data) = some q) :
      Stepped role s { s with queue := q }
        [.answered req data (some .accepted) (.queued (req.toControlOut data))]
  | counted (req : Request) (data : List UInt8)
      (hq : s.queue.trySend (req.toControlOut data) = none) :
      Stepped role s { s with dropped := s.dropped + 1 }
        [.answered req data (some .accepted) .counted]
  | cleared : Stepped role s { s with queue := Channel.empty } [.cleared]
  | took (msg : ControlOut) (q : Channel ControlOut queueLen)
      (hq : s.queue.receive = some (msg, q)) :
      Stepped role s { s with queue := q } [.issued (repeatControl msg)]

theorem ControlPath.stepped {role : Role} {s t : ControlPath} {a : ControlAct}
    {es : List ControlEffect} (h : s.step role a = some (t, es)) :
    ControlPath.Stepped role s t es := by
  cases a with
  | clear =>
    simp only [ControlPath.step] at h
    split at h
    · cases h
      exact .cleared
    · cases h
  | take =>
    obtain ⟨r, hr, heq⟩ := Option.map_eq_some_iff.mp h
    cases heq
    exact .took r.1 r.2 hr
  | request req data =>
    have hother : (∀ msg, controlOut role req data ≠ .queue msg) → ¬ ForBackend role req := by
      intro hne hback
      exact hne _ ((controlOut_eq_queue_iff role req data _).mpr ⟨hback, rfl⟩)
    have h := Option.some.inj h
    unfold ControlPath.request at h
    cases hout : controlOut role req data with
    | queue msg =>
      obtain ⟨hback, rfl⟩ := (controlOut_eq_queue_iff role req data msg).mp hout
      cases hq : s.queue.trySend (req.toControlOut data) with
      | some q =>
        simp only [hout, hq] at h
        cases h
        exact .queued req data q hback hq
      | none =>
        simp only [hout, hq] at h
        cases h
        exact .counted req data hq
    | _ =>
      simp only [hout] at h
      cases h
      exact .other req data _ (hother fun msg hm => by rw [hout] at hm; cases hm)

/-- Where the property holds of a step, the copies stay whole. -/
theorem copied_step {role : Role} {s t : ControlPath} {m : Pending} {es : List ControlEffect}
    (h : Copied s m) (hstep : ControlPath.Stepped role s t es)
    (hrep : Each Pending.watch (RepeatsUnchanged role) m es) :
    Copied t (es.foldl Pending.watch m) := by
  cases hstep with
  | other req data resp hnot => exact h
  | counted req data hq => exact ⟨h.items, h.fits⟩
  | cleared => exact ⟨rfl, fun o ho => by cases ho⟩
  | queued req data q hback hq =>
    have hwhole : Repeats (repeatControl (req.toControlOut data)) req data := hrep.1 hback rfl
    constructor
    · rw [(Channel.trySend_eq_some.mp hq).2, h.items]
      simp [Pending.watch]
    · intro o ho
      rcases List.mem_append.mp ho with ho | ho
      · exact h.fits o ho
      · cases List.mem_singleton.mp ho
        exact (repeats_iff req data).mp hwhole
  | took msg q hq =>
    have hcopies := h.items
    rw [Channel.receive_eq_some.mp hq] at hcopies
    cases m with
    | nil => cases hcopies
    | cons o m =>
      constructor
      · exact (List.cons.inj hcopies).2
      · exact fun o' ho => h.fits o' (List.mem_cons_of_mem o ho)

theorem step_repeats_iff {role : Role} {s t : ControlPath} {m : Pending}
    {es : List ControlEffect} (h : Copied s m) (hstep : ControlPath.Stepped role s t es) :
    Each Pending.watch (RepeatsUnchanged role) m es ↔
      Each Pending.watch (fun _ e => FitsPacket role s e) m es := by
  cases hstep with
  | cleared => exact Iff.rfl
  | other req data resp hnot =>
    simp only [Each.cons_iff, Each.nil, and_true, RepeatsUnchanged, FitsPacket, hnot,
      false_implies]
  | counted req data hq =>
    have hfull := Channel.trySend_eq_none.mp hq
    simp only [Each.cons_iff, Each.nil, and_true, RepeatsUnchanged, FitsPacket, hfull,
      or_true, implies_true]
  | queued req data q hback hq =>
    have hroom := (Channel.trySend_eq_some.mp hq).1
    have hfull : ¬ s.queue.items.length = queueLen := by omega
    simp only [Each.cons_iff, Each.nil, and_true, RepeatsUnchanged, FitsPacket, hback,
      forall_const, repeats_iff, hfull, or_false]
  | took msg q hq =>
    have hcopies := h.items
    rw [Channel.receive_eq_some.mp hq] at hcopies
    cases m with
    | nil => cases hcopies
    | cons o m =>
      have hhead : Repeats (repeatControl msg) o.1 o.2 := by
        rw [(List.cons.inj hcopies).1]
        exact (repeats_iff o.1 o.2).mpr (h.fits o (List.mem_cons_self ..))
      simp only [Each.cons_iff, Each.nil, and_true, RepeatsUnchanged, FitsPacket, hhead]

/-- In every role and every run, every request for the backend that is accepted is repeated
unchanged or counted, if and only if its data fit a packet or it finds the queue full. -/
theorem repeats_unchanged_iff (role : Role) (as : List ControlAct) :
    (controlPath role).Along Pending.watch
        (fun _ m es _ => Each Pending.watch (RepeatsUnchanged role) m es) ControlPath.init [] as ↔
      (controlPath role).Along Pending.watch
        (fun s m es _ => Each Pending.watch (fun _ e => FitsPacket role s e) m es)
        ControlPath.init [] as := by
  apply Machine.along_iff Copied
  · intro s m a es t h hstep hq
    exact copied_step h (ControlPath.stepped hstep) hq
  · intro s m a es t h hstep
    exact step_repeats_iff h (ControlPath.stepped hstep)
  · exact ⟨rfl, fun o ho => by cases ho⟩

/-- The part of the bridge a class request goes through in the wheel role. -/
def Bridge.controlPath (s : Bridge) : ControlPath := ⟨s.controlOut, s.dropped⟩

/-- The bridge takes and queues a request as its control path does. -/
theorem bridge_control_request {s t : Bridge} {req : Request} {data : List UInt8}
    {es : List BridgeEffect} (h : bridge.step s (.controlRequest req data) = some (t, es)) :
    (s.controlPath.request .wheel req data).1 = t.controlPath := by
  change s.step (.controlRequest req data) = some (t, es) at h
  simp only [Bridge.step, Option.ite_none_right_eq_some] at h
  obtain ⟨-, h⟩ := h
  unfold ControlPath.request
  cases hout : controlOut .wheel req data with
  | queue msg =>
    simp only [hout, Option.some.injEq, Bridge.queueControl] at h
    have hq : s.controlPath.queue = s.controlOut := rfl
    simp only [hq]
    cases hsend : s.controlOut.trySend msg with
    | some q =>
      simp only [hsend] at h
      cases h
      rfl
    | none =>
      simp only [hsend] at h
      cases h
      rfl
  | _ =>
    simp only [hout] at h
    cases h
    rfl

/-- The bridge repeats the message its control path issues. -/
theorem bridge_control_repeat {s t : Bridge} {es : List BridgeEffect}
    (h : bridge.step s .ep0Control = some (t, es)) :
    ∃ msg, es = [.took .control, .repeated msg] ∧
      s.controlPath.step .wheel .take = some (t.controlPath, [.issued (repeatControl msg)]) := by
  change s.inSession (fun p s => s.ep0Control p) = some (t, es) at h
  obtain ⟨p, -, h⟩ := Bridge.inSession_eq_some.mp h
  unfold Bridge.ep0Control at h
  split at h
  · next msg q _ hq =>
    cases h
    refine ⟨msg, rfl, ?_⟩
    change (s.controlOut.receive).map _ = _
    rw [hq]
    rfl
  · cases h

/-- The feature report 0x31 of the relayed device: 253 bytes. -/
def longReport : ControlAct :=
  .request ⟨.class_, .interface, hidSetReport, 0x0331, ifInput⟩ (0x31 :: List.replicate 252 0xaa)

theorem long_report_cut :
    ((controlPath .relay).run ControlPath.init [longReport, .take]).isSome = true ∧
      ¬ (controlPath .relay).Along Pending.watch
        (fun _ m es _ => Each Pending.watch (RepeatsUnchanged .relay) m es)
        ControlPath.init [] [longReport, .take] := by
  decide +kernel

end WheelBridge
