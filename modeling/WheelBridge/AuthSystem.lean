import WheelBridge.Machine
import WheelBridge.Signer

/-!
The authentication relay as a system: the console's control requests on one core, any
number of candidate signers on the other, the shared cache and the command queue
between them. Every step is what one side does between two awaits, so the runs of
this machine are all interleavings of the two sides.
-/
namespace WheelBridge.Auth

/-- The console side is between requests, or in `set_report` between the update of
`STATE` and the command it sends. -/
inductive Console
  | idle
  | sending (data : List UInt8)
deriving DecidableEq

structure System where
  now : ℕ
  statics : Statics
  cmd : Channel Cmd cmdLen
  console : Console
  /-- The task serving each attached device that is not the wheel. -/
  signers : ℕ → Option Task

def System.init : System where
  now := 0
  statics := Statics.init
  cmd := Channel.empty
  console := .idle
  signers := fun _ => none

inductive Act
  | elapse (ms : ℕ)
  /-- The console's GET_REPORT(Feature, `id`). -/
  | getReport (id : UInt8)
  /-- The console's SET_REPORT(Feature, `id`): `STATE`, then the command. -/
  | setReport (id : UInt8) (data : List UInt8)
  | send
  /-- Device `i` is enumerated, or gone: its task is started, or dropped. -/
  | attach (i : ℕ)
  | detach (i : ℕ)
  /-- The task of device `i` takes a command, or its await ends. -/
  | receive (i : ℕ)
  | reply (i : ℕ) (r : Option (List UInt8))
  | timer (i : ℕ)
deriving DecidableEq

inductive Effect
  /-- The console side handles a GET F3, a SET F0. -/
  | resetRead
  | nonceSet (data : List UInt8)
  /-- What a GET_REPORT is answered with. -/
  | answered (id : UInt8) (report : Option (List UInt8))
  /-- A command enters `CMD`, or is dropped because it is full. -/
  | queued (cmd : Cmd)
  | dropped (cmd : Cmd)
  /-- `CMD` is cleared by device `i` entering `serve`. -/
  | cleared (i : ℕ)
  | attached (i : ℕ)
  | detached (i : ℕ)
  | received (i : ℕ) (cmd : Cmd)
  | signer (i : ℕ) (e : SignerEffect)
deriving DecidableEq

/-- `send`: a command that does not fit is dropped. -/
def send (cmd : Cmd) (s : System) : System × List Effect :=
  match s.cmd.trySend cmd with
  | some q => ({ s with cmd := q }, [.queued cmd])
  | none => (s, [.dropped cmd])

/-- Only the queue is touched by `send`. -/
theorem send_spec (cmd : Cmd) (s : System) :
    (send cmd s).1 = { s with cmd := (send cmd s).1.cmd } ∧
      ((send cmd s).2 = [.queued cmd] ∨ (send cmd s).2 = [.dropped cmd]) := by
  unfold send
  split
  · exact ⟨rfl, Or.inl rfl⟩
  · exact ⟨rfl, Or.inr rfl⟩

theorem send_eq {cmd : Cmd} {s t : System} {es : List Effect} (h : send cmd s = (t, es)) :
    t.statics = s.statics ∧ t.signers = s.signers ∧ (es = [.queued cmd] ∨ es = [.dropped cmd]) := by
  obtain ⟨hsys, hes⟩ := send_spec cmd s
  rw [h] at hsys hes
  have hstatics := congrArg System.statics hsys
  have hsigners := congrArg System.signers hsys
  exact ⟨hstatics, hsigners, hes⟩

/-- `get_report`, with `STATE` locked and the reset sent under the lock. -/
def consoleGet (id : UInt8) (s : System) : System × List Effect :=
  match getReport id s.statics.state with
  | (state, cmd, report) =>
    let s := { s with statics := { s.statics with state := state } }
    match cmd with
    | none => (s, [.answered id report])
    | some cmd =>
      match send cmd s with
      | (s, es) => (s, .resetRead :: es ++ [.answered id report])

/-- A GET_REPORT that does not reset is answered and that is all. -/
theorem consoleGet_other {id : UInt8} (hid : id ≠ idReset) (s : System) :
    consoleGet id s =
      ({ s with statics := { s.statics with state := (getReport id s.statics.state).1 } },
        [.answered id (getReport id s.statics.state).2.2]) := by
  have hnone := (getReport_other id s.statics.state hid).2
  unfold consoleGet
  rw [show getReport id s.statics.state = ((getReport id s.statics.state).1, none,
    (getReport id s.statics.state).2.2) by rw [← hnone]]

/-- A GET F3 withdraws the signature, and sends the reset before it is answered. -/
theorem consoleGet_reset (s : System) : ∃ q e,
    consoleGet idReset s =
      ({ s with
        cmd := q
        statics := { s.statics with
          state := { s.statics.state with ready := false, nextPage := 0 } } },
        [.resetRead, e, .answered idReset (some s.statics.state.reset.toList)]) ∧
      (e = .queued .reset ∨ e = .dropped .reset) := by
  unfold consoleGet
  simp only [getReport, if_pos]
  obtain ⟨hsys, hes⟩ := send_spec .reset { s with
    statics := { s.statics with state := { s.statics.state with ready := false, nextPage := 0 } } }
  rcases hes with hes | hes
  · exact ⟨_, _, Prod.ext hsys (by simp [hes]), Or.inl rfl⟩
  · exact ⟨_, _, Prod.ext hsys (by simp [hes]), Or.inr rfl⟩

/-- What `get_report` can change, and what is seen of it. -/
theorem consoleGet_spec (id : UInt8) (s : System) :
    (∃ q, (consoleGet id s).1 = { s with
      cmd := q
      statics := { s.statics with state := (getReport id s.statics.state).1 } }) ∧
      ∀ e ∈ (consoleGet id s).2, e = .resetRead ∨ e = .queued .reset ∨ e = .dropped .reset ∨
        e = .answered id (getReport id s.statics.state).2.2 := by
  by_cases hid : id = idReset
  · subst id
    obtain ⟨q, f, heq, hf⟩ := consoleGet_reset s
    rw [heq]
    refine ⟨⟨q, rfl⟩, ?_⟩
    intro e he
    simp only [List.mem_cons, List.not_mem_nil, or_false] at he
    rcases he with rfl | rfl | rfl
    · exact Or.inl rfl
    · exact Or.inr (hf.imp_right Or.inl)
    · exact Or.inr (Or.inr (Or.inr rfl))
  · rw [consoleGet_other hid]
    exact ⟨⟨s.cmd, rfl⟩, fun e he => Or.inr (Or.inr (Or.inr (List.mem_singleton.mp he)))⟩

/-- Put the task of device `i` back after it ran. `serve` starts with an empty queue. -/
def settle (i : ℕ) (s : System) : Resumed → System × List Effect
  | (st, t, es) =>
    let s := { s with statics := st, signers := Function.update s.signers i (some t) }
    if .serve ∈ es then
      ({ s with cmd := Channel.empty }, .cleared i :: es.map (Effect.signer i))
    else (s, es.map (Effect.signer i))

/-- A task that does not enter `serve` is just put back. -/
theorem settle_plain (i : ℕ) (s : System) (st : Statics) (task : Task)
    (es : List SignerEffect) (hes : .serve ∉ es) :
    settle i s (st, task, es) =
      ({ s with statics := st, signers := Function.update s.signers i (some task) },
        es.map (Effect.signer i)) := by
  simp only [settle, if_neg hes]

theorem publish_mem_settle {i j : ℕ} {s : System} {r : Resumed} :
    .signer i .publish ∈ (settle j s r).2 ↔ i = j ∧ .publish ∈ r.2.2 := by
  obtain ⟨st, task, es⟩ := r
  unfold settle
  dsimp only
  split <;> simp [eq_comm, and_comm]

theorem settle_system (i : ℕ) (s : System) (r : Resumed) :
    (settle i s r).1.now = s.now ∧ (settle i s r).1.statics = r.1 ∧
      (settle i s r).1.signers = Function.update s.signers i (some r.2.1) := by
  unfold settle
  dsimp only
  split <;> exact ⟨rfl, rfl, rfl⟩

/-- The await of device `i` ends with `e`. -/
def wake (role : Role) (i : ℕ) (e : Event) (s : System) : Option (System × List Effect) :=
  match s.signers i with
  | none => none
  | some t => (resume role s.now s.statics t e).map (settle i s)

def step (role : Role) (s : System) : Act → Option (System × List Effect)
  | .elapse ms => some ({ s with now := s.now + ms }, [])
  | .getReport id =>
    match s.console with
    | .idle => some (consoleGet id s)
    | .sending _ => none
  | .setReport id data =>
    match s.console with
    | .idle =>
      -- Any other report is none of its business.
      if id = idNonce then
        some ({ s with
          statics := { s.statics with state := setReport data s.statics.state }
          console := .sending data }, [.nonceSet data])
      else some (s, [])
    | .sending _ => none
  | .send =>
    match s.console with
    | .idle => none
    | .sending data => some (send (.nonce (Packet.new data)) { s with console := .idle })
  | .attach i =>
    match s.signers i with
    | none => some ({ s with signers := Function.update s.signers i (some (.probe 1)) },
        [.attached i, .signer i (.transfer (.get idReset resetLen))])
    | some _ => none
  | .detach i =>
    match s.signers i with
    | none => none
    | some _ => some ({ s with signers := Function.update s.signers i none }, [.detached i])
  | .receive i =>
    match s.cmd.receive with
    | none => none
    | some (cmd, q) =>
      (wake role i (.command cmd) { s with cmd := q }).map fun r =>
        (r.1, .received i cmd :: r.2)
  | .reply i r => wake role i (.reply r) s
  | .timer i => wake role i .timer s

def machine (role : Role) : Machine System Act Effect := ⟨step role⟩

/-- Everything one step of the system can be. -/
inductive Stepped (role : Role) (s : System) : System → List Effect → Prop
  | elapse (ms : ℕ) : Stepped role s { s with now := s.now + ms } []
  | read (id : UInt8) (hid : id ≠ idReset) (hidle : s.console = .idle) :
      Stepped role s
        { s with statics := { s.statics with state := (getReport id s.statics.state).1 } }
        [.answered id (getReport id s.statics.state).2.2]
  | resetRead (hidle : s.console = .idle) (t : System) (es : List Effect)
      (hsend : send .reset { s with statics := { s.statics with
        state := (getReport idReset s.statics.state).1 } } = (t, es)) :
      Stepped role s t
        (.resetRead :: es ++ [.answered idReset (getReport idReset s.statics.state).2.2])
  | ignored : Stepped role s s []
  | nonceSet (data : List UInt8) (hidle : s.console = .idle) :
      Stepped role s { s with
        statics := { s.statics with state := setReport data s.statics.state }
        console := .sending data } [.nonceSet data]
  | send (data : List UInt8) (hcon : s.console = .sending data) (t : System) (es : List Effect)
      (hsend : send (.nonce (Packet.new data)) { s with console := .idle } = (t, es)) :
      Stepped role s t es
  | attach (i : ℕ) (hi : s.signers i = none) :
      Stepped role s { s with signers := Function.update s.signers i (some (.probe 1)) }
        [.attached i, .signer i (.transfer (.get idReset resetLen))]
  | detach (i : ℕ) (t : Task) (hi : s.signers i = some t) :
      Stepped role s { s with signers := Function.update s.signers i none } [.detached i]
  | receive (i : ℕ) (cmd : Cmd) (q : Channel Cmd cmdLen) (hi : s.signers i = some .receive)
      (hq : s.cmd.receive = some (cmd, q)) :
      Stepped role s { s with
        cmd := q
        statics := (begin cmd s.statics).1
        signers := Function.update s.signers i (some (begin cmd s.statics).2) }
        (.received i cmd ::
          ((begin cmd s.statics).2.transfer.map fun t => .signer i (.transfer t)).toList)
  | woke (i : ℕ) (t : Task) (e : Event) (r : Resumed) (hi : s.signers i = some t)
      (he : ∀ cmd, e ≠ .command cmd) (hr : resume role s.now s.statics t e = some r) :
      Stepped role s (settle i s r).1 (settle i s r).2

theorem wake_eq_some {role : Role} {i : ℕ} {e : Event} {s t : System} {es : List Effect}
    (h : wake role i e s = some (t, es)) : ∃ task r, s.signers i = some task ∧
      resume role s.now s.statics task e = some r ∧ settle i s r = (t, es) := by
  unfold wake at h
  cases hi : s.signers i with
  | none => simp [hi] at h
  | some task =>
    simp only [hi, Option.map_eq_some_iff] at h
    obtain ⟨r, hr, heq⟩ := h
    exact ⟨task, r, rfl, hr, heq⟩

/-- A device takes the command in front of the queue. -/
theorem receive_eq_some {role : Role} {i : ℕ} {s t : System} {es : List Effect}
    (h : step role s (.receive i) = some (t, es)) :
    ∃ cmd q, s.signers i = some .receive ∧ s.cmd.receive = some (cmd, q) ∧
      t = { s with
        cmd := q
        statics := (begin cmd s.statics).1
        signers := Function.update s.signers i (some (begin cmd s.statics).2) } ∧
      es = .received i cmd ::
        ((begin cmd s.statics).2.transfer.map fun x => .signer i (.transfer x)).toList := by
  simp only [step] at h
  cases hq : s.cmd.receive with
  | none => simp [hq] at h
  | some c =>
    obtain ⟨cmd, q⟩ := c
    simp only [hq, Option.map_eq_some_iff] at h
    obtain ⟨⟨u, fx⟩, hw, heq⟩ := h
    obtain ⟨task, r, hi, hr, hsettle⟩ := wake_eq_some hw
    obtain ⟨rfl, rfl⟩ := resume_command hr
    obtain ⟨rfl, rfl⟩ := Prod.mk.inj heq
    refine ⟨cmd, q, hi, rfl, ?_, ?_⟩
    · cases cmd <;> exact (congrArg Prod.fst hsettle).symm
    · cases cmd <;> exact congrArg (Effect.received i _ :: ·) (congrArg Prod.snd hsettle).symm

/-- The await that an action ends: whose it is, and with what. -/
def Act.ends : Act → Option (ℕ × Event)
  | .reply i r => some (i, .reply r)
  | .timer i => some (i, .timer)
  | .elapse _ | .getReport _ | .setReport _ _ | .send | .attach _ | .detach _ | .receive _ => none

theorem Act.ends_eq_some {a : Act} {i : ℕ} {e : Event} : a.ends = some (i, e) ↔
    a = .timer i ∧ e = .timer ∨ ∃ r, a = .reply i r ∧ e = .reply r := by
  cases a <;> simp [Act.ends, eq_comm]

theorem Act.ends_reply {a : Act} {i : ℕ} {r : Option (List UInt8)}
    (ha : a.ends = some (i, .reply r)) : a = .reply i r := by
  rcases Act.ends_eq_some.mp ha with ⟨-, heq⟩ | ⟨r', rfl, heq⟩ <;> cases heq
  rfl

/-- No action ends an await with a command but the one that takes it. -/
theorem Act.ends_ne_command {a : Act} {i : ℕ} {e : Event} (ha : a.ends = some (i, e))
    (cmd : Cmd) : e ≠ .command cmd := by
  rcases Act.ends_eq_some.mp ha with ⟨-, rfl⟩ | ⟨r, -, rfl⟩ <;> simp

/-- What each action does, where it can be taken. -/
inductive Acted (role : Role) (s : System) : Act → System → List Effect → Prop
  | elapse (ms : ℕ) : Acted role s (.elapse ms) { s with now := s.now + ms } []
  | get (id : UInt8) (hidle : s.console = .idle) :
      Acted role s (.getReport id) (consoleGet id s).1 (consoleGet id s).2
  | ignored (id : UInt8) (data : List UInt8) : Acted role s (.setReport id data) s []
  | nonceSet (data : List UInt8) (hidle : s.console = .idle) :
      Acted role s (.setReport idNonce data) { s with
        statics := { s.statics with state := setReport data s.statics.state }
        console := .sending data } [.nonceSet data]
  | send (data : List UInt8) (hcon : s.console = .sending data) (t : System) (es : List Effect)
      (hsend : send (.nonce (Packet.new data)) { s with console := .idle } = (t, es)) :
      Acted role s .send t es
  | attach (i : ℕ) (hi : s.signers i = none) :
      Acted role s (.attach i)
        { s with signers := Function.update s.signers i (some (.probe 1)) }
        [.attached i, .signer i (.transfer (.get idReset resetLen))]
  | detach (i : ℕ) (t : Task) (hi : s.signers i = some t) :
      Acted role s (.detach i) { s with signers := Function.update s.signers i none } [.detached i]
  | receive (i : ℕ) (cmd : Cmd) (q : Channel Cmd cmdLen) (hi : s.signers i = some .receive)
      (hq : s.cmd.receive = some (cmd, q)) :
      Acted role s (.receive i) { s with
        cmd := q
        statics := (begin cmd s.statics).1
        signers := Function.update s.signers i (some (begin cmd s.statics).2) }
        (.received i cmd ::
          ((begin cmd s.statics).2.transfer.map fun x => .signer i (.transfer x)).toList)
  | woke (a : Act) (i : ℕ) (t : Task) (e : Event) (r : Resumed) (ha : a.ends = some (i, e))
      (hi : s.signers i = some t) (hr : resume role s.now s.statics t e = some r) :
      Acted role s a (settle i s r).1 (settle i s r).2

theorem acted {role : Role} {s t : System} {a : Act} {es : List Effect}
    (h : (machine role).step s a = some (t, es)) : Acted role s a t es := by
  change step role s a = some (t, es) at h
  cases a with
  | elapse ms =>
    cases h
    exact .elapse ms
  | getReport id =>
    simp only [step] at h
    cases hcon : s.console with
    | sending data => simp [hcon] at h
    | idle =>
      simp only [hcon, Option.some.injEq] at h
      obtain ⟨rfl, rfl⟩ := Prod.mk.inj h
      exact .get id hcon
  | setReport id data =>
    simp only [step] at h
    cases hcon : s.console with
    | sending data => simp [hcon] at h
    | idle =>
      simp only [hcon] at h
      split at h
      · next hid =>
        cases h
        subst hid
        exact .nonceSet data hcon
      · cases h
        exact .ignored id data
  | send =>
    simp only [step] at h
    cases hcon : s.console with
    | idle => simp [hcon] at h
    | sending data =>
      simp only [hcon, Option.some.injEq] at h
      exact .send data hcon t es h
  | attach i =>
    simp only [step] at h
    cases hi : s.signers i with
    | some task => simp [hi] at h
    | none =>
      simp only [hi] at h
      cases h
      exact .attach i hi
  | detach i =>
    simp only [step] at h
    cases hi : s.signers i with
    | none => simp [hi] at h
    | some task =>
      simp only [hi] at h
      cases h
      exact .detach i task hi
  | receive i =>
    obtain ⟨cmd, q, hi, hq, rfl, rfl⟩ := receive_eq_some h
    exact .receive i cmd q hi hq
  | reply i r =>
    obtain ⟨task, r', hi, hr, heq⟩ := wake_eq_some h
    obtain ⟨rfl, rfl⟩ := Prod.mk.inj heq
    exact .woke _ i task _ r' rfl hi hr
  | timer i =>
    obtain ⟨task, r', hi, hr, heq⟩ := wake_eq_some h
    obtain ⟨rfl, rfl⟩ := Prod.mk.inj heq
    exact .woke _ i task _ r' rfl hi hr

theorem stepped {role : Role} {s t : System} {a : Act} {es : List Effect}
    (h : (machine role).step s a = some (t, es)) : Stepped role s t es := by
  cases acted h with
  | elapse ms => exact .elapse ms
  | get id hidle =>
    by_cases hid : id = idReset
    · subst id
      exact .resetRead hidle _ _ rfl
    · rw [consoleGet_other hid]
      exact .read id hid hidle
  | ignored id data => exact .ignored
  | nonceSet data hidle => exact .nonceSet data hidle
  | send data hcon t es hsend => exact .send data hcon t es hsend
  | attach i hi => exact .attach i hi
  | detach i task hi => exact .detach i task hi
  | receive i cmd q hi hq => exact .receive i cmd q hi hq
  | woke a i task e r ha hi hr => exact .woke i task e r hi (Act.ends_ne_command ha) hr

end WheelBridge.Auth
