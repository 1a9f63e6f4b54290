import WheelBridge.BridgeSteps

/-!
The steps of a session with their times: where its EP0 task goes next and what it waits for
there, when a recovery is asked for, and that no other step touches either.
-/
namespace WheelBridge

/-- The time that an action lets pass. -/
def BridgeAct.passes : BridgeAct → ℕ
  | .elapse ms => ms
  | _ => 0

/-- The steps of the EP0 task. -/
def BridgeAct.ofEp0 : BridgeAct → Bool
  | .ep0Done _ | .ep0Timer | .ep0Answer | .ep0Control | .ep0If0 | .ep0Recover | .ep0Tick => true
  | _ => false

/-- Steps that no session has a part in. -/
def BridgeAct.outside : BridgeAct → Bool
  | .elapse _ | .follow | .followTimer | .controlRequest _ _ | .ffbPacket _ | .if0Packet _
  | .giveInput | .giveHidpp | .giveFfb => true
  | _ => false

/-- The effects that tell of the wake-up and the recoveries of a session. -/
def BridgeEffect.telling : BridgeEffect → Bool
  | .attached | .request _ | .returned _ _ | .recoverAsked => true
  | _ => false

/-- The tick of `LIVENESS_INTERVAL` that the task is to see next, once it serves the wheel. -/
def Ep0.tick : Ep0 → Option ℕ
  | .select tick | .control tick | .revLights tick | .clearHalt _ tick | .getStatus tick =>
    some tick
  | .setIdle _ | .ping _ _ | .pingTick _ _ | .lastAnswers _ | .querySend _ | .queryWait _ _ => none

/-- A step of the EP0 task of `p`, which is at `e` then. -/
inductive Ep0Goes (s : Bridge) (p : Session) : BridgeAct → Ep0 → List BridgeEffect → Prop
  | setIdle (ok : Bool) (iface : ℕ) (he : p.ep0 = .setIdle iface) (hi : iface < 2) :
      Ep0Goes s p (.ep0Done ok) (.setIdle (iface + 1)) []
  | firstPing (ok : Bool) (iface : ℕ) (he : p.ep0 = .setIdle iface) (hi : 2 ≤ iface) :
      Ep0Goes s p (.ep0Done ok) (.ping s.now (s.now + pingInterval)) [.request ping]
  | pinged (ok : Bool) (start tick : ℕ) (he : p.ep0 = .ping start tick) :
      Ep0Goes s p (.ep0Done ok) (.pingTick start tick) []
  | pingsOn (start tick : ℕ) (he : p.ep0 = .pingTick start tick) (htick : tick ≤ s.now)
      (hon : s.now - start < pingTimeout) :
      Ep0Goes s p .ep0Timer (.ping start (tick + pingInterval)) [.request ping]
  | pingsEnd (start tick : ℕ) (he : p.ep0 = .pingTick start tick) (htick : tick ≤ s.now) :
      Ep0Goes s p .ep0Timer (.lastAnswers (s.now + lastAnswersTime)) []
  | queries (wake : ℕ) (he : p.ep0 = .lastAnswers wake) (hwake : wake ≤ s.now) :
      Ep0Goes s p .ep0Timer (.querySend .featureSet) [.request Query.featureSet.msg]
  | sent (q : Query) (he : p.ep0 = .querySend q) :
      Ep0Goes s p (.ep0Done true) (.queryWait q (s.now + featureQueryTimeout)) []
  | queriesOn (a : BridgeAct) (q q' : Query) (answer : Option (Bytes 20))
      (ha : a ≠ .ep0Tick) (hr : Returns s p q answer) (hn : q.next answer = some q') :
      Ep0Goes s p a (.querySend q') [.returned q.msg answer, .request q'.msg]
  | awake (a : BridgeAct) (q : Query) (answer : Option (Bytes 20)) (ha : a ≠ .ep0Tick)
      (hr : Returns s p q answer) (hn : q.next answer = none) :
      Ep0Goes s p a (.select (s.now + livenessInterval)) [.returned q.msg answer, .linked true]
  | serves (a : BridgeAct) (e : Ep0) (tick : ℕ) (es : List BridgeEffect) (ha : a ≠ .ep0Tick)
      (he : p.ep0.tick = some tick) (he' : e.tick = some tick)
      (hes : ∀ x ∈ es, x.telling = false) : Ep0Goes s p a e es
  | checks (tick : ℕ) (he : p.ep0 = .select tick) (htick : tick ≤ s.now) :
      Ep0Goes s p .ep0Tick (.getStatus (tick + livenessInterval)) []

/-- A step of anything else. Of the tasks of a session only `forward_ffb_out` tells something:
that it asks for a recovery. -/
inductive Beside (s t : Bridge) : BridgeAct → List BridgeEffect → Prop
  | quiet (a : BridgeAct) (es : List BridgeEffect) (hnow : t.now = s.now + a.passes)
      (hes : ∀ x ∈ es, x.telling = false)
      (hkept : ∀ p', t.session = some p' →
        ∃ p, s.session = some p ∧ p'.ep0 = p.ep0 ∧ p'.lastRecovery = p.lastRecovery) :
      Beside s t a es
  | attached (ep : UInt8) (hnow : t.now = s.now) (ht : t.session = some (Session.start ep)) :
      Beside s t (.attach ep) [.attached]
  | recovers (e : Option PipeError) (p p' : Session) (hnow : t.now = s.now)
      (hs : s.session = some p) (ht : t.session = some p') (hep0 : p'.ep0 = p.ep0)
      (hdue : ∀ last, p.lastRecovery = some last → ffbRecoveryInterval ≤ s.now - last)
      (hlast : p'.lastRecovery = some s.now) :
      Beside s t (.ffbReply e) [.linked false, .recoverAsked]

namespace Beside

variable {s t : Bridge} {p p' : Session} {a : BridgeAct} {es : List BridgeEffect}

theorem same (hnow : t.now = s.now + a.passes) (ht : t.session = s.session)
    (hes : ∀ x ∈ es, x.telling = false) : Beside s t a es :=
  .quiet a es hnow hes fun p' hp' => ⟨p', ht ▸ hp', rfl, rfl⟩

/-- Another task of the session goes on. -/
theorem task (hnow : t.now = s.now + a.passes) (hs : s.session = some p)
    (ht : t.session = some p') (hep0 : p'.ep0 = p.ep0)
    (hlast : p'.lastRecovery = p.lastRecovery) (hes : ∀ x ∈ es, x.telling = false) :
    Beside s t a es := by
  refine .quiet a es hnow hes fun q hq => ⟨p, hs, ?_⟩
  rw [ht] at hq
  obtain rfl := Option.some.inj hq
  exact ⟨hep0, hlast⟩

theorem outside (ha : a.outside = true) (h : s.step a = some (t, es)) : Beside s t a es := by
  have hquiet : t.now = s.now + a.passes ∧ t.session = s.session ∧
      ∀ x ∈ es, x.telling = false := by
    cases a <;> simp only [BridgeAct.outside, Bool.false_eq_true] at ha
    case follow =>
      rw [Bridge.step, Bridge.followStep] at h
      split at h
      · cases h
      · dsimp only at h
        split at h
        · split at h <;> cases h <;> exact ⟨rfl, rfl, by simp [BridgeEffect.telling]⟩
        · split at h
          · cases h
            exact ⟨rfl, rfl, by simp⟩
          · split at h <;> cases h <;> exact ⟨rfl, rfl, by simp [BridgeEffect.telling]⟩
        · cases h
    all_goals
      grind [Bridge.step, Bridge.queueControl, Bridge.queueFfb, Bridge.queueIf0,
        BridgeEffect.telling, BridgeAct.passes, Option.map_eq_some_iff]
  exact same hquiet.1 hquiet.2.1 hquiet.2.2

/-- A pause of polling ends. -/
theorem inTimer (ha : a.passes = 0) (hs : s.session = some p) {x : InTask} (f : InTask → Session)
    (hep0 : ∀ x', (f x').ep0 = p.ep0) (hlast : ∀ x', (f x').lastRecovery = p.lastRecovery)
    (h : (Bridge.inTimer x s.now).map
      (fun x' => (({ s with session := some (f x') } : Bridge), ([] : List BridgeEffect))) =
        some (t, es)) : Beside s t a es := by
  obtain ⟨x', -, heq⟩ := Option.map_eq_some_iff.mp h
  cases heq
  exact task (by rw [ha]; rfl) hs rfl (hep0 x') (hlast x') (by simp)

theorem inputReply (hs : s.session = some p) {r : Reply}
    (h : Bridge.inputReply r p s = some (t, es)) : Beside s t (.inputReply r) es := by
  unfold Bridge.inputReply at h
  split at h
  · split at h <;> cases h <;> exact same rfl rfl (by simp [BridgeEffect.telling])
  · cases h
    exact task rfl hs rfl rfl rfl (by simp)
  · cases h

theorem hidppReply (hs : s.session = some p) {r : Reply} {answers : Option ℕ}
    (h : Bridge.hidppReply r answers p s = some (t, es)) :
    Beside s t (.hidppReply r answers) es := by
  unfold Bridge.hidppReply at h
  split at h
  · cases h
    obtain ⟨q, n, heq⟩ := s.hidppMessage_eq (Packet.new _)
    rw [heq]
    exact same rfl rfl (by simp [BridgeEffect.telling])
  · cases h
    exact task rfl hs rfl rfl rfl (by simp)
  · cases h

theorem ffbInReply (hs : s.session = some p) {r : Reply}
    (h : Bridge.ffbInReply r p s = some (t, es)) : Beside s t (.ffbInReply r) es := by
  unfold Bridge.ffbInReply at h
  split at h
  · split at h <;> cases h <;> exact same rfl rfl (by simp)
  · cases h
    exact task rfl hs rfl rfl rfl (by simp)
  · cases h

theorem ffbTake (hs : s.session = some p) (h : s.ffbTake p = some (t, es)) :
    Beside s t .ffbTake es := by
  unfold Bridge.ffbTake at h
  split at h <;> cases h
  exact task rfl hs rfl rfl rfl (by simp [BridgeEffect.telling])

theorem ffbReply (hs : s.session = some p) {e : Option PipeError}
    (h : s.ffbReply p e = some (t, es)) : Beside s t (.ffbReply e) es := by
  unfold Bridge.ffbReply at h
  split at h
  · cases h
    exact task rfl hs rfl rfl rfl (by simp)
  · dsimp only at h
    split at h
    · cases h
      exact task rfl hs rfl rfl rfl (by simp)
    · split at h
      · next hstall =>
        cases h
        refine .recovers _ p _ rfl hs rfl rfl ?_ rfl
        intro last hlast
        simpa [hlast] using hstall.2
      · cases h
        exact task rfl hs rfl rfl rfl (by simp)
  · cases h

theorem ffbCleared (hs : s.session = some p) (h : s.ffbCleared p = some (t, es)) :
    Beside s t .ffbCleared es := by
  unfold Bridge.ffbCleared at h
  split at h
  · next deadline ok hf hc =>
    cases h
    cases ok <;> exact task rfl hs rfl rfl rfl (by simp [BridgeEffect.telling])
  · cases h

theorem ffbTimeout (hs : s.session = some p) (h : s.ffbTimeout p = some (t, es)) :
    Beside s t .ffbTimeout es := by
  unfold Bridge.ffbTimeout at h
  split at h
  · split at h <;> cases h
    exact task rfl hs rfl rfl rfl (by simp [BridgeEffect.telling])
  · cases h

end Beside

/-- Every step that is not of the EP0 task. -/
theorem beside {s t : Bridge} {a : BridgeAct} {es : List BridgeEffect} (ha : a.ofEp0 = false)
    (h : bridge.step s a = some (t, es)) : Beside s t a es := by
  change s.step a = some (t, es) at h
  cases a
  case ep0Done | ep0Timer | ep0Answer | ep0Control | ep0If0 | ep0Recover | ep0Tick => cases ha
  case elapse | follow | followTimer | controlRequest | ffbPacket | if0Packet | giveInput
      | giveHidpp | giveFfb =>
    exact .outside rfl h
  case attach ep =>
    rw [Bridge.step] at h
    split at h <;> cases h
    exact .attached ep rfl rfl
  case detach =>
    rw [Bridge.step] at h
    obtain ⟨p, hs, hp⟩ := Bridge.inSession_eq_some.mp h
    cases hp
    exact .quiet _ _ rfl (by simp [BridgeEffect.telling]) fun p' hp' => by cases hp'
  case inputTimer =>
    rw [Bridge.step] at h
    obtain ⟨p, hs, hp⟩ := Bridge.inSession_eq_some.mp h
    exact .inTimer rfl hs (fun x => { p with inputTask := x }) (fun _ => rfl) (fun _ => rfl) hp
  case hidppTimer =>
    rw [Bridge.step] at h
    obtain ⟨p, hs, hp⟩ := Bridge.inSession_eq_some.mp h
    exact .inTimer rfl hs (fun x => { p with hidppTask := x }) (fun _ => rfl) (fun _ => rfl) hp
  case ffbInTimer =>
    rw [Bridge.step] at h
    obtain ⟨p, hs, hp⟩ := Bridge.inSession_eq_some.mp h
    exact .inTimer rfl hs (fun x => { p with ffbInTask := x }) (fun _ => rfl) (fun _ => rfl) hp
  all_goals obtain ⟨p, hs, hp⟩ := Bridge.inSession_eq_some.mp h
  case inputReply r => exact .inputReply hs hp
  case hidppReply r answers => exact .hidppReply hs hp
  case ffbInReply r => exact .ffbInReply hs hp
  case ffbTake => exact .ffbTake hs hp
  case ffbReply e => exact .ffbReply hs hp
  case ffbCleared => exact .ffbCleared hs hp
  case ffbTimeout => exact .ffbTimeout hs hp

/-- The task goes on in the session it is of. -/
def Session.GoesOn (p : Session) (s t : Bridge) (a : BridgeAct) (es : List BridgeEffect) : Prop :=
  t.now = s.now ∧ ∃ p', t.session = some p' ∧ p'.lastRecovery = p.lastRecovery ∧
    Ep0Goes s p a p'.ep0 es

section GoesOn

variable {s t : Bridge} {p : Session} {a : BridgeAct} {es : List BridgeEffect}

theorem goes_queryDone (ha : a ≠ .ep0Tick) {q : Query} {answer : Option (Bytes 20)}
    {b : Signal (Bytes 20)} (hr : Returns s p q answer)
    (h : ({ s with bridgeAnswer := b } : Bridge).queryDone p q answer = (t, es)) :
    p.GoesOn s t a es := by
  unfold Bridge.queryDone at h
  cases hn : q.next answer with
  | some q' =>
    simp only [hn] at h
    cases h
    exact ⟨rfl, _, rfl, rfl, .queriesOn a q q' answer ha hr hn⟩
  | none =>
    simp only [hn] at h
    cases h
    exact ⟨rfl, _, rfl, rfl, .awake a q answer ha hr hn⟩

theorem goes_ep0Done {ok : Bool} (h : s.ep0Done p ok = some (t, es)) :
    p.GoesOn s t (.ep0Done ok) es := by
  unfold Bridge.ep0Done at h
  cases he : p.ep0 <;> simp only [he, reduceCtorEq, Option.some.injEq] at h
  case setIdle iface =>
    split at h <;> cases h
    · next hi => exact ⟨rfl, _, rfl, rfl, .setIdle ok iface he hi⟩
    · next hi => exact ⟨rfl, _, rfl, rfl, .firstPing ok iface he (Nat.le_of_not_lt hi)⟩
  case ping start tick =>
    cases h
    exact ⟨rfl, _, rfl, rfl, .pinged ok start tick he⟩
  case querySend q =>
    split at h
    · next hok =>
      cases h
      subst hok
      exact ⟨rfl, _, rfl, rfl, .sent q he⟩
    · exact goes_queryDone BridgeAct.noConfusion (.failed he) (Option.some.inj h)
  case control tick | getStatus tick | revLights tick | clearHalt ep tick =>
    cases h
    exact ⟨rfl, _, rfl, rfl, .serves _ _ tick _ BridgeAct.noConfusion (by rw [he]; rfl) rfl
      (by simp [BridgeEffect.telling])⟩

theorem goes_ep0Timer (h : s.ep0Timer p = some (t, es)) : p.GoesOn s t .ep0Timer es := by
  unfold Bridge.ep0Timer at h
  cases he : p.ep0 <;> simp only [he, reduceCtorEq] at h
  case pingTick start tick =>
    split at h
    · cases h
    · next htick =>
      have htick := Nat.le_of_not_lt htick
      split at h <;> cases h
      · exact ⟨rfl, _, rfl, rfl, .pingsEnd start tick he htick⟩
      · next hon =>
        exact ⟨rfl, _, rfl, rfl, .pingsOn start tick he htick (Nat.lt_of_not_le (not_or.mp hon).2)⟩
  case lastAnswers wake =>
    split at h <;> cases h
    next hwake => exact ⟨rfl, _, rfl, rfl, .queries wake he (Nat.le_of_not_lt hwake)⟩
  case queryWait q deadline =>
    split at h
    · cases h
    · exact goes_queryDone BridgeAct.noConfusion (.timedOut deadline he) (Option.some.inj h)

theorem goes_ep0Answer (h : s.ep0Answer p = some (t, es)) : p.GoesOn s t .ep0Answer es := by
  unfold Bridge.ep0Answer at h
  split at h
  · next q deadline answer he hanswer =>
    exact goes_queryDone BridgeAct.noConfusion (.answered deadline answer he hanswer)
      (Option.some.inj h)
  · cases h

theorem goes_ep0If0 (h : s.ep0If0 p = some (t, es)) : p.GoesOn s t .ep0If0 es := by
  unfold Bridge.ep0If0 at h
  split at h
  · next tick report q he hq =>
    dsimp only at h
    split at h <;> cases h <;>
      exact ⟨rfl, _, rfl, rfl, .serves _ _ tick _ BridgeAct.noConfusion (by rw [he]; rfl) rfl
        (by simp [BridgeEffect.telling])⟩
  · cases h

theorem goes_ep0Control (h : s.ep0Control p = some (t, es)) : p.GoesOn s t .ep0Control es := by
  unfold Bridge.ep0Control at h
  split at h <;> cases h
  next tick msg q he hq =>
    exact ⟨rfl, _, rfl, rfl, .serves _ _ tick _ BridgeAct.noConfusion (by rw [he]; rfl) rfl
      (by simp [BridgeEffect.telling])⟩

theorem goes_ep0Recover (h : s.ep0Recover p = some (t, es)) : p.GoesOn s t .ep0Recover es := by
  unfold Bridge.ep0Recover at h
  split at h <;> cases h
  next tick ep he hr =>
    exact ⟨rfl, _, rfl, rfl, .serves _ _ tick _ BridgeAct.noConfusion (by rw [he]; rfl) rfl
      (by simp [BridgeEffect.telling])⟩

theorem goes_ep0Tick (h : s.ep0Tick p = some (t, es)) : p.GoesOn s t .ep0Tick es := by
  unfold Bridge.ep0Tick at h
  cases he : p.ep0 <;> simp only [he, reduceCtorEq] at h
  case select tick =>
    split at h <;> cases h
    next htick => exact ⟨rfl, _, rfl, rfl, .checks tick he (Nat.le_of_not_lt htick)⟩

end GoesOn

/-- Every step of the EP0 task. -/
theorem ep0_goes {s t : Bridge} {a : BridgeAct} {es : List BridgeEffect} (ha : a.ofEp0 = true)
    (h : bridge.step s a = some (t, es)) : ∃ p, s.session = some p ∧ p.GoesOn s t a es := by
  change s.step a = some (t, es) at h
  cases a <;> simp only [BridgeAct.ofEp0, Bool.false_eq_true] at ha
  all_goals
    obtain ⟨p, hs, hp⟩ := Bridge.inSession_eq_some.mp h
    refine ⟨p, hs, ?_⟩
  case ep0Done ok => exact goes_ep0Done hp
  case ep0Timer => exact goes_ep0Timer hp
  case ep0Answer => exact goes_ep0Answer hp
  case ep0Control => exact goes_ep0Control hp
  case ep0If0 => exact goes_ep0If0 hp
  case ep0Recover => exact goes_ep0Recover hp
  case ep0Tick => exact goes_ep0Tick hp

end WheelBridge
