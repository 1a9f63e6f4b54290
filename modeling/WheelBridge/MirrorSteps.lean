import WheelBridge.Ep0Steps
import WheelBridge.Mirror

/-!
Everything one step of the mirror can be on its data paths. The filters of the wheel role
that the mirror runs too stay as they were at the start: the bridge is not waking the
wheel, and its EP0 task is past its own requests.
-/
namespace WheelBridge

/-- The packets the bridge keeps as they are: IF0 reports of the wheel's length, HID++
messages without the bridge's software ID. -/
def DataPath.Passes (data : List UInt8) : DataPath → Prop
  | .input => data.length = c272Len
  | .hidpp => softwareId data ≠ bridgeSwid
  | .ffbIn | .ffbOut => True

/-- The bridge is not waking the wheel, and a session's EP0 task repeats requests. -/
structure Inert (s : Bridge) : Prop where
  waking : s.waking = false
  stage : ∀ p, s.session = some p → p.ep0.stage ≠ .waking

namespace Inert

variable {s t : Bridge} {p : Session}

theorem keep (h : Inert s) (hw : t.waking = s.waking) (hs : t.session = s.session) :
    Inert t where
  waking := hw.trans h.waking
  stage p' hp' := h.stage p' (hs ▸ hp')

/-- Another task of the session moves. -/
theorem task (h : Inert s) (hs : s.session = some p) {p' : Session} (hw : t.waking = s.waking)
    (ht : t.session = some p') (he : p'.ep0 = p.ep0) : Inert t where
  waking := hw.trans h.waking
  stage p'' hp'' := by
    obtain rfl := Option.some.inj (ht.symm.trans hp'')
    rw [he]
    exact h.stage p hs

/-- The EP0 task goes on to `e`. -/
theorem ep0 (h : Inert s) {e : Ep0} (hw : t.waking = s.waking)
    (ht : t.session = some { p with ep0 := e }) (he : e.stage ≠ .waking) : Inert t where
  waking := hw.trans h.waking
  stage p' hp' := by
    obtain rfl := Option.some.inj (ht.symm.trans hp')
    exact he

end Inert

/-- A step beside the data paths: their queues are as before, and the filters stay inert. -/
structure Aside (s t : Bridge) : Prop where
  hidppIn : t.hidppIn = s.hidppIn
  ffbIn : t.ffbIn = s.ffbIn
  ffbOut : t.ffbOut = s.ffbOut
  inert : Inert t

namespace Aside

variable {s t : Bridge} {p : Session} {es : List BridgeEffect}

theorem polls (h : Inert s) (hs : s.session = some p) (x y z : InTask) :
    Aside s { s with session := some { p with inputTask := x, hidppTask := y, ffbInTask := z } } :=
  ⟨rfl, rfl, rfl, h.task hs rfl rfl rfl⟩

theorem inTimer {x : InTask} {f : InTask → Bridge} (hf : ∀ y, Aside s (f y))
    (ht : (Bridge.inTimer x s.now).map (fun y => (f y, [])) = some (t, es)) : Aside s t := by
  obtain ⟨y, -, heq⟩ := Option.map_eq_some_iff.mp ht
  cases heq
  exact hf y

theorem ep0Done (h : Inert s) (hs : s.session = some p) {ok : Bool}
    (ht : s.ep0Done p ok = some (t, es)) : Aside s t := by
  have hstage := h.stage p hs
  unfold Bridge.ep0Done at ht
  cases he : p.ep0 <;> simp only [he, reduceCtorEq, Option.some.injEq] at ht
  case setIdle | ping | querySend => simp [he, Ep0.stage] at hstage
  all_goals
    cases ht
    exact ⟨rfl, rfl, rfl, h.ep0 rfl rfl (by simp [Ep0.stage])⟩

theorem ep0Control (h : Inert s) (ht : s.ep0Control p = some (t, es)) : Aside s t := by
  unfold Bridge.ep0Control at ht
  split at ht <;> cases ht
  exact ⟨rfl, rfl, rfl, h.ep0 rfl rfl (by simp [Ep0.stage])⟩

theorem ep0If0 (h : Inert s) (ht : s.ep0If0 p = some (t, es)) : Aside s t := by
  unfold Bridge.ep0If0 at ht
  split at ht
  · dsimp only at ht
    split at ht <;> cases ht
    · exact ⟨rfl, rfl, rfl, h.ep0 rfl rfl (by simp [Ep0.stage])⟩
    · refine ⟨rfl, rfl, rfl, h.waking, ?_⟩
      intro p' hp'
      cases hp'
      simp [Ep0.stage]
  · cases ht

theorem ep0Recover (h : Inert s) (ht : s.ep0Recover p = some (t, es)) : Aside s t := by
  unfold Bridge.ep0Recover at ht
  split at ht <;> cases ht
  exact ⟨rfl, rfl, rfl, h.ep0 rfl rfl (by simp [Ep0.stage])⟩

theorem ep0Tick (h : Inert s) (ht : s.ep0Tick p = some (t, es)) : Aside s t := by
  unfold Bridge.ep0Tick at ht
  split at ht
  · split at ht <;> cases ht
    exact ⟨rfl, rfl, rfl, h.ep0 rfl rfl (by simp [Ep0.stage])⟩
  · cases ht

theorem queueControl (h : Inert s) (msg : ControlOut) : Aside s (s.queueControl msg).1 := by
  unfold Bridge.queueControl
  cases s.controlOut.trySend msg with
  | some q => exact ⟨rfl, rfl, rfl, h.keep rfl rfl⟩
  | none => exact ⟨rfl, rfl, rfl, h.keep rfl rfl⟩

theorem ffbSent (h : Inert s) (e : Option PipeError) : Aside s (Mirror.ffbSent e s) := by
  unfold Mirror.ffbSent
  split
  · exact ⟨rfl, rfl, rfl, h⟩
  · next p hs => exact ⟨rfl, rfl, rfl, h.task hs rfl rfl rfl⟩

end Aside

/-- What the mirror shares with the wheel role goes past the data paths. -/
theorem shared_aside {s t : Bridge} {a : BridgeAct} {es : List BridgeEffect} (h : Inert s)
    (ha : a.shared = true) (hstep : bridge.step s a = some (t, es)) : Aside s t := by
  change s.step a = some (t, es) at hstep
  cases a <;> simp only [Bridge.step, Bridge.inSession_eq_some] at hstep
  case elapse ms =>
    cases hstep
    exact ⟨rfl, rfl, rfl, h.keep rfl rfl⟩
  case inputTimer =>
    obtain ⟨p, hs, hp⟩ := hstep
    exact .inTimer (fun x => .polls h hs x p.hidppTask p.ffbInTask) hp
  case hidppTimer =>
    obtain ⟨p, hs, hp⟩ := hstep
    exact .inTimer (fun x => .polls h hs p.inputTask x p.ffbInTask) hp
  case ffbInTimer =>
    obtain ⟨p, hs, hp⟩ := hstep
    exact .inTimer (fun x => .polls h hs p.inputTask p.hidppTask x) hp
  case ep0Done ok =>
    obtain ⟨p, hs, hp⟩ := hstep
    exact .ep0Done h hs hp
  case ep0Control =>
    obtain ⟨p, -, hp⟩ := hstep
    exact .ep0Control h hp
  case ep0If0 =>
    obtain ⟨p, -, hp⟩ := hstep
    exact .ep0If0 h hp
  case ep0Recover =>
    obtain ⟨p, -, hp⟩ := hstep
    exact .ep0Recover h hp
  case ep0Tick =>
    obtain ⟨p, -, hp⟩ := hstep
    exact .ep0Tick h hp
  case inputReply r =>
    obtain ⟨p, hs, hp⟩ := hstep
    cases r with
    | ok bytes => cases ha
    | error e =>
      cases htask : p.inputTask <;> simp only [Bridge.inputReply, htask, reduceCtorEq] at hp
      cases hp
      exact .polls h hs _ p.hidppTask p.ffbInTask
  case hidppReply r answers =>
    obtain ⟨p, hs, hp⟩ := hstep
    cases r with
    | ok bytes => cases ha
    | error e =>
      cases htask : p.hidppTask <;> simp only [Bridge.hidppReply, htask, reduceCtorEq] at hp
      cases hp
      exact .polls h hs p.inputTask _ p.ffbInTask
  case ffbInReply r =>
    obtain ⟨p, hs, hp⟩ := hstep
    cases r with
    | ok bytes => cases ha
    | error e =>
      cases htask : p.ffbInTask <;> simp only [Bridge.ffbInReply, htask, reduceCtorEq] at hp
      cases hp
      exact .polls h hs p.inputTask p.hidppTask _
  all_goals cases ha

namespace Mirror

variable {s t : Mirror} {path : DataPath} {packet : Packet}

theorem inBridge_eq_some {a : BridgeAct} {es : List MirrorEffect} :
    s.inBridge a = some (t, es) ↔ ∃ b fs, WheelBridge.bridge.step s.bridge a = some (b, fs) ∧
      { s with bridge := b } = t ∧ fs.map .bridge = es := by
  constructor
  · intro h
    obtain ⟨r, hr, heq⟩ := Option.map_eq_some_iff.mp h
    cases heq
    exact ⟨r.1, r.2, hr, rfl, rfl⟩
  · rintro ⟨b, fs, hb, rfl, rfl⟩
    exact Option.map_eq_some_iff.mpr ⟨(b, fs), hb, rfl⟩

theorem queued_inputIn (s : Mirror) (q : Channel Packet queueLen) :
    ({ s with inputIn := q } : Mirror).queued = Function.update s.queued .input q.items := by
  funext path
  cases path <;> rfl

theorem queued_hidppIn (s : Mirror) (q : Channel Packet hidppInQueueLen) :
    ({ s with bridge.hidppIn := q } : Mirror).queued =
      Function.update s.queued .hidpp q.items := by
  funext path
  cases path <;> rfl

theorem queued_ffbIn (s : Mirror) (q : Channel Packet queueLen) :
    ({ s with bridge.ffbIn := q } : Mirror).queued = Function.update s.queued .ffbIn q.items := by
  funext path
  cases path <;> rfl

theorem queued_ffbOut (s : Mirror) (q : Channel Packet queueLen) :
    ({ s with bridge.ffbOut := q } : Mirror).queued =
      Function.update s.queued .ffbOut q.items := by
  funext path
  cases path <;> rfl

theorem queued_aside (hi : t.inputIn = s.inputIn) (h : Aside s.bridge t.bridge) :
    t.queued = s.queued := by
  funext path
  cases path <;> simp only [queued, hi, h.hidppIn, h.ffbIn, h.ffbOut]

theorem held_congr (hq : t.queued = s.queued) (hs : t.sending = s.sending) :
    t.held = s.held := by
  funext path
  rw [held, held, hq, hs]

/-- A packet that is queued is held last. -/
theorem held_queue (hq : t.queued = Function.update s.queued path (s.queued path ++ [packet]))
    (hs : t.sending = s.sending) :
    t.held = Function.update s.held path (s.held path ++ [packet.bytes]) := by
  funext other
  by_cases ho : other = path
  · subst ho
    simp only [held, hq, hs, Function.update_self, List.map_append, List.map_cons, List.map_nil,
      List.append_assoc]
  · simp only [held, hq, hs, Function.update_of_ne ho]

/-- Where the oldest packet is, in its queue or on its way, makes no difference. -/
theorem held_send (hfree : s.sending path = none) {rest : List Packet}
    (hq : s.queued path = packet :: rest) (ht : t.queued = Function.update s.queued path rest)
    (hs : t.sending = Function.update s.sending path (some packet)) : t.held = s.held := by
  funext other
  by_cases ho : other = path
  · subst ho
    simp only [held, ht, hs, hq, hfree, Function.update_self, Option.toList_some,
      Option.toList_none, List.singleton_append, List.nil_append]
  · simp only [held, ht, hs, Function.update_of_ne ho]

/-- A packet on its way is the oldest one held. -/
theorem held_sending (hs : s.sending path = some packet) :
    s.held path = packet.bytes :: (s.queued path).map Packet.bytes := by
  simp only [held, hs, Option.toList_some, List.singleton_append, List.map_cons]

theorem held_sent (hq : t.queued = s.queued)
    (hs : t.sending = Function.update s.sending path none) :
    t.held = Function.update s.held path ((s.queued path).map Packet.bytes) := by
  funext other
  by_cases ho : other = path
  · subst ho
    simp only [held, hq, hs, Function.update_self, Option.toList_none, List.nil_append]
  · simp only [held, hq, hs, Function.update_of_ne ho]

end Mirror

/-- What becomes of a packet that arrives. -/
inductive Fate (s : Mirror) (path : DataPath) (data : List UInt8) (t : Mirror) : Prop
  | queued (hp : path.Passes data)
      (hq : t.queued = Function.update s.queued path (s.queued path ++ [Packet.new data]))
      (hd : t.bridge.dropped = s.bridge.dropped)
  | counted (hp : path.Passes data) (hq : t.queued = s.queued)
      (hd : t.bridge.dropped = s.bridge.dropped + 1)
  | ignored (hp : ¬ path.Passes data) (hq : t.queued = s.queued)
      (hd : t.bridge.dropped = s.bridge.dropped)

structure Arrived (s : Mirror) (path : DataPath) (data : List UInt8) (t : Mirror) : Prop where
  fate : Fate s path data t
  sending : t.sending = s.sending
  waking : t.bridge.waking = s.bridge.waking
  session : t.bridge.session = s.bridge.session

namespace Arrived

variable {s t : Mirror} {data : List UInt8}

theorem input {p : Session} (ht : s.inputArrives data p = some t) : Arrived s .input data t := by
  unfold Mirror.inputArrives at ht
  split at ht
  · cases ht
  · cases ht
  · split at ht
    · next hlen =>
      split at ht
      · next q hq =>
        cases ht
        refine ⟨.queued hlen ?_ rfl, rfl, rfl, rfl⟩
        exact (Mirror.queued_inputIn s q).trans (congrArg _ (Channel.trySend_eq_some.mp hq).2)
      · cases ht
        exact ⟨.counted hlen rfl rfl, rfl, rfl, rfl⟩
    · next hlen =>
      cases ht
      exact ⟨.ignored hlen rfl rfl, rfl, rfl, rfl⟩

theorem hidpp (hwaking : s.bridge.waking = false) (hlen : data.length ≤ maxPacket) :
    Arrived s .hidpp data { s with bridge := s.bridge.hidppMessage (Packet.new data) } := by
  have hbytes : (Packet.new data).bytes = data :=
    (Packet.bytes_new data).trans (List.take_of_length_le hlen)
  unfold Bridge.hidppMessage
  dsimp only
  rw [hbytes]
  by_cases hswid : softwareId data = bridgeSwid
  · rw [if_pos (Or.inr hswid)]
    exact ⟨.ignored (not_not.mpr hswid) rfl rfl, rfl, rfl, rfl⟩
  · rw [if_neg (not_or.mpr ⟨by simp [hwaking], hswid⟩)]
    cases hq : s.bridge.hidppIn.trySend (Packet.new data) with
    | none => exact ⟨.counted hswid rfl rfl, rfl, rfl, rfl⟩
    | some q =>
      refine ⟨.queued hswid ?_ rfl, rfl, rfl, rfl⟩
      exact (Mirror.queued_hidppIn s q).trans (congrArg _ (Channel.trySend_eq_some.mp hq).2)

theorem ffbIn {p : Session} {b : Bridge} {es : List BridgeEffect}
    (hb : Bridge.ffbInReply (.ok data) p s.bridge = some (b, es)) :
    Arrived s .ffbIn data { s with bridge := b } := by
  cases htask : p.ffbInTask <;> simp only [Bridge.ffbInReply, htask, reduceCtorEq] at hb
  cases hq : s.bridge.ffbIn.trySend (Packet.new data) with
  | none =>
    simp only [hq] at hb
    cases hb
    exact ⟨.counted trivial rfl rfl, rfl, rfl, rfl⟩
  | some q =>
    simp only [hq] at hb
    cases hb
    refine ⟨.queued trivial ?_ rfl, rfl, rfl, rfl⟩
    exact (Mirror.queued_ffbIn s q).trans (congrArg _ (Channel.trySend_eq_some.mp hq).2)

theorem ffbOut {b : Bridge} {es : List BridgeEffect}
    (hb : s.bridge.queueFfb (Packet.new data) = (b, es)) :
    Arrived s .ffbOut data { s with bridge := b } := by
  unfold Bridge.queueFfb at hb
  split at hb
  · next q hq =>
    cases hb
    refine ⟨.queued trivial ?_ rfl, rfl, rfl, rfl⟩
    exact (Mirror.queued_ffbOut s q).trans (congrArg _ (Channel.trySend_eq_some.mp hq).2)
  · cases hb
    exact ⟨.counted trivial rfl rfl, rfl, rfl, rfl⟩

end Arrived

/-- A packet that arrives is queued or counted, or the filter of its path ignores it. -/
theorem arrived {s t : Mirror} {path : DataPath} {data : List UInt8}
    (hwaking : s.bridge.waking = false) (hlen : data.length ≤ maxPacket)
    (h : s.arrives data path = some t) : Arrived s path data t := by
  have hstep : ∀ {a : BridgeAct}, (s.inBridge a).map Prod.fst = some t →
      ∃ b fs, s.bridge.step a = some (b, fs) ∧ { s with bridge := b } = t := by
    intro a ha
    obtain ⟨r, hr, rfl⟩ := Option.map_eq_some_iff.mp ha
    obtain ⟨b, fs, hb, hr, -⟩ := Mirror.inBridge_eq_some.mp hr
    exact ⟨b, fs, hb, hr⟩
  cases path with
  | input =>
    simp only [Mirror.arrives] at h
    split at h
    · cases h
    · exact .input h
  | hidpp =>
    obtain ⟨b, fs, hb, rfl⟩ := hstep h
    obtain ⟨p, -, hp⟩ := Bridge.inSession_eq_some.mp hb
    cases htask : p.hidppTask <;> simp only [Bridge.hidppReply, htask, reduceCtorEq] at hp
    cases hp
    exact .hidpp hwaking hlen
  | ffbIn =>
    obtain ⟨b, fs, hb, rfl⟩ := hstep h
    obtain ⟨p, -, hp⟩ := Bridge.inSession_eq_some.mp hb
    exact .ffbIn hp
  | ffbOut =>
    obtain ⟨b, fs, hb, rfl⟩ := hstep h
    simp only [Bridge.step, Option.ite_none_right_eq_some, Option.some.injEq] at hb
    exact .ffbOut hb.2

/-- The oldest packet of a queue is taken, and nothing else changes on the data paths. -/
structure Taken (s : Mirror) (path : DataPath) (packet : Packet) (t : Mirror) : Prop where
  sending : t.sending = s.sending
  inert : Inert t.bridge
  oldest : ∃ rest, s.queued path = packet :: rest ∧ t.queued = Function.update s.queued path rest

theorem taken {s t : Mirror} {path : DataPath} {packet : Packet} (hi : Inert s.bridge)
    (h : s.take path = some (packet, t)) : Taken s path packet t := by
  cases path with
  | input =>
    obtain ⟨⟨p, q⟩, hq, heq⟩ := Option.map_eq_some_iff.mp h
    cases heq
    exact ⟨rfl, hi, q.items, Channel.receive_eq_some.mp hq, Mirror.queued_inputIn s q⟩
  | hidpp =>
    obtain ⟨⟨p, q⟩, hq, heq⟩ := Option.map_eq_some_iff.mp h
    cases heq
    exact ⟨rfl, hi.keep rfl rfl, q.items, Channel.receive_eq_some.mp hq, Mirror.queued_hidppIn s q⟩
  | ffbIn =>
    obtain ⟨⟨p, q⟩, hq, heq⟩ := Option.map_eq_some_iff.mp h
    cases heq
    exact ⟨rfl, hi.keep rfl rfl, q.items, Channel.receive_eq_some.mp hq, Mirror.queued_ffbIn s q⟩
  | ffbOut =>
    simp only [Mirror.take] at h
    split at h
    · cases h
    · next first q hq =>
      obtain ⟨⟨u, es⟩, hr, heq⟩ := Option.map_eq_some_iff.mp h
      cases heq
      obtain ⟨b, fs, hb, rfl, -⟩ := Mirror.inBridge_eq_some.mp hr
      obtain ⟨p, hs, hp⟩ := Bridge.inSession_eq_some.mp hb
      cases htask : p.ffbOut <;>
        simp only [Bridge.ffbTake, htask, hq, reduceCtorEq] at hp
      cases hp
      refine ⟨rfl, hi.task hs rfl rfl rfl, q.items, Channel.receive_eq_some.mp hq, ?_⟩
      exact Mirror.queued_ffbOut s q

/-- Everything one step of the mirror can be on its data paths. -/
inductive Passed (writeTransfer : WriteTransfer) (s t : Mirror) : List MirrorEffect → Prop
  | aside (es : List BridgeEffect) (hheld : t.held = s.held) :
      Passed writeTransfer s t (es.map .bridge)
  | queued (path : DataPath) (data : List UInt8) (hp : path.Passes data)
      (hheld : t.held = Function.update s.held path (s.held path ++ [data]))
      (hd : t.bridge.dropped = s.bridge.dropped) :
      Passed writeTransfer s t [.received path data false]
  | counted (path : DataPath) (data : List UInt8) (hp : path.Passes data)
      (hheld : t.held = s.held) (hd : t.bridge.dropped = s.bridge.dropped + 1) :
      Passed writeTransfer s t [.received path data true]
  | ignored (path : DataPath) (data : List UInt8) (hp : ¬ path.Passes data)
      (hheld : t.held = s.held) (hd : t.bridge.dropped = s.bridge.dropped) :
      Passed writeTransfer s t [.received path data false]
  | handed (path : DataPath) (packet : Packet) (rest : List (List UInt8))
      (hs : s.sending path = some packet) (hfirst : s.held path = packet.bytes :: rest)
      (hheld : t.held = Function.update s.held path rest) :
      Passed writeTransfer s t ((Mirror.transfer writeTransfer packet path).map (.handed path))
  | failed (path : DataPath) (es : List BridgeEffect) (b : List UInt8)
      (rest : List (List UInt8)) (hfirst : s.held path = b :: rest)
      (hheld : t.held = Function.update s.held path rest) :
      Passed writeTransfer s t (es.map .bridge ++ [.failed path])

/-- Every step of the mirror is one of those, and its filters stay inert. -/
theorem passed {writeTransfer : WriteTransfer} {s t : Mirror} {a : MirrorAct}
    {es : List MirrorEffect} (hi : Inert s.bridge)
    (h : (mirror writeTransfer).step s a = some (t, es)) :
    Passed writeTransfer s t es ∧ Inert t.bridge := by
  change s.step writeTransfer a = some (t, es) at h
  cases a with
  | bridge a =>
    simp only [Mirror.step, Option.ite_none_right_eq_some] at h
    obtain ⟨ha, h⟩ := h
    obtain ⟨b, fs, hb, rfl, rfl⟩ := Mirror.inBridge_eq_some.mp h
    have haside := shared_aside hi ha hb
    refine ⟨.aside fs ?_, haside.inert⟩
    apply Mirror.held_congr
    · exact Mirror.queued_aside rfl haside
    · rfl
  | attach ep =>
    simp only [Mirror.step, Mirror.attach] at h
    split at h <;> cases h
    refine ⟨.aside [.attached, .linked true] rfl, hi.waking, ?_⟩
    intro p hp
    cases hp
    simp [Ep0.stage]
  | detach =>
    obtain ⟨⟨u, fs⟩, hu, heq⟩ := Option.map_eq_some_iff.mp h
    cases heq
    obtain ⟨b, fs, hb, rfl, rfl⟩ := Mirror.inBridge_eq_some.mp hu
    have hb : s.bridge.inSession (fun _ s => some ({ s.link false with session := none },
        [.detached, .linked false])) = some (b, fs) := hb
    obtain ⟨p, -, hp⟩ := Bridge.inSession_eq_some.mp hb
    cases hp
    refine ⟨?_, hi.waking, fun p hp => by cases hp⟩
    cases hs : s.sending .ffbOut with
    | none =>
      refine .aside [.detached, .linked false] (Mirror.held_congr rfl ?_)
      exact Function.update_eq_self_iff.mpr hs.symm
    | some packet =>
      exact .failed .ffbOut [.detached, .linked false] packet.bytes _
        (Mirror.held_sending hs) (Mirror.held_sent rfl rfl)
  | controlRequest req data =>
    have h := Option.some.inj h
    unfold Mirror.controlRequest at h
    split at h
    · next msg hmsg =>
      cases h
      have haside := Aside.queueControl hi msg
      refine ⟨.aside _ ?_, haside.inert⟩
      exact Mirror.held_congr (Mirror.queued_aside rfl haside) rfl
    all_goals
      cases h
      exact ⟨.aside [] rfl, hi⟩
  | packet path data =>
    simp only [Mirror.step, Option.ite_none_right_eq_some] at h
    obtain ⟨hlen, h⟩ := h
    obtain ⟨u, hu, heq⟩ := Option.map_eq_some_iff.mp h
    cases heq
    have harr := arrived hi.waking hlen hu
    have hbytes : (Packet.new data).bytes = data :=
      (Packet.bytes_new data).trans (List.take_of_length_le hlen)
    refine ⟨?_, hi.keep harr.waking harr.session⟩
    cases harr.fate with
    | queued hp hq hd =>
      have hheld := Mirror.held_queue hq harr.sending
      rw [hbytes] at hheld
      have hflag : decide (s.bridge.dropped < t.bridge.dropped) = false := by simp [hd]
      rw [hflag]
      exact .queued path data hp hheld hd
    | counted hp hq hd =>
      have hflag : decide (s.bridge.dropped < t.bridge.dropped) = true := by simp [hd]
      rw [hflag]
      exact .counted path data hp (Mirror.held_congr hq harr.sending) hd
    | ignored hp hq hd =>
      have hflag : decide (s.bridge.dropped < t.bridge.dropped) = false := by simp [hd]
      rw [hflag]
      exact .ignored path data hp (Mirror.held_congr hq harr.sending) hd
  | send path =>
    simp only [Mirror.step, Option.ite_none_right_eq_some] at h
    obtain ⟨hfree, h⟩ := h
    obtain ⟨⟨packet, u⟩, hu, heq⟩ := Option.map_eq_some_iff.mp h
    cases heq
    have htaken := taken hi hu
    obtain ⟨rest, hfirst, hrest⟩ := htaken.oldest
    refine ⟨.aside [] ?_, htaken.inert⟩
    exact Mirror.held_send hfree hfirst hrest (by rw [htaken.sending])
  | sent path e =>
    simp only [Mirror.step, Mirror.sent] at h
    split at h
    · cases h
    · next packet hs =>
      cases h
      have haside : Aside s.bridge
          (if path = .ffbOut then Mirror.ffbSent e s.bridge else s.bridge) := by
        split
        · exact .ffbSent hi e
        · exact ⟨rfl, rfl, rfl, hi⟩
      refine ⟨?_, haside.inert⟩
      by_cases he : e = none
      · rw [if_pos he]
        refine .handed path packet _ hs (Mirror.held_sending hs) ?_
        exact Mirror.held_sent (Mirror.queued_aside rfl haside) rfl
      · rw [if_neg he]
        refine .failed path [] packet.bytes _ (Mirror.held_sending hs) ?_
        exact Mirror.held_sent (Mirror.queued_aside rfl haside) rfl

end WheelBridge
