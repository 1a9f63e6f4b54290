import WheelBridge.BridgeSteps

/-!
The steps of the EP0 task told from all others: those leave the task, its last level and the
LED feature as they are.
-/
namespace WheelBridge

/-- Before the wheel is awake, serving it, or waiting for a rev-light command to go through. -/
inductive Ep0.Stage
  | waking
  | serving
  | lighting
deriving DecidableEq

def Ep0.stage : Ep0 → Ep0.Stage
  | .setIdle _ | .ping _ _ | .pingTick _ _ | .lastAnswers _ | .querySend _ | .queryWait _ _ =>
    .waking
  | .select _ | .control _ | .clearHalt _ _ | .getStatus _ => .serving
  | .revLights _ => .lighting

def BridgeEffect.ofEp0 : BridgeEffect → Bool
  | .took .if0 | .request _ | .returned _ _ | .revLights _ => true
  | _ => false

/-- A step of the session's EP0 task, which is left as `p'`. -/
inductive Ep0Stepped (s : Bridge) (p : Session) (t : Bridge) (p' : Session) :
    BridgeAct → List BridgeEffect → Prop
  | waking (a : BridgeAct) (es : List BridgeEffect) (hp : p.ep0.stage = .waking)
      (hp' : p'.ep0.stage = .waking) (hrev : p'.revLevel = p.revLevel)
      (hled : t.ledFeature = s.ledFeature) (hes : ∀ e ∈ es, ∃ msg, e = .request msg) :
      Ep0Stepped s p t p' a es
  | queriesOn (a : BridgeAct) (q q' : Query) (answer : Option (Bytes 20))
      (hr : Returns s p q answer) (hn : q.next answer = some q')
      (hp' : p'.ep0.stage = .waking) (hrev : p'.revLevel = p.revLevel)
      (hled : t.ledFeature = (q.ledIndex answer).getD s.ledFeature) :
      Ep0Stepped s p t p' a [.returned q.msg answer, .request q'.msg]
  | awake (a : BridgeAct) (q : Query) (answer : Option (Bytes 20)) (hr : Returns s p q answer)
      (hn : q.next answer = none) (hp' : p'.ep0.stage = .serving) (hrev : p'.revLevel = none)
      (hled : t.ledFeature = (q.ledIndex answer).getD s.ledFeature) :
      Ep0Stepped s p t p' a [.returned q.msg answer, .linked true]
  | serves (a : BridgeAct) (es : List BridgeEffect) (hp : p.ep0.stage = .serving)
      (hp' : p'.ep0.stage = .serving) (hrev : p'.revLevel = p.revLevel)
      (hled : t.ledFeature = s.ledFeature)
      (hes : ∀ e ∈ es, e.ofEp0 = false ∧ e ≠ .attached) : Ep0Stepped s p t p' a es
  | ignores (report : Packet) (q : Channel Packet queueLen) (hp : p.ep0.stage = .serving)
      (hq : s.if0Out.receive = some (report, q))
      (hc : revCommand report.bytes s.ledFeature p.revLevel = none)
      (hp' : p'.ep0.stage = .serving) (hrev : p'.revLevel = p.revLevel)
      (hled : t.ledFeature = s.ledFeature) : Ep0Stepped s p t p' .ep0If0 [.took .if0]
  | lights (report : Packet) (q : Channel Packet queueLen) (lit : ℕ) (msg : List UInt8)
      (hp : p.ep0.stage = .serving) (hq : s.if0Out.receive = some (report, q))
      (hc : revCommand report.bytes s.ledFeature p.revLevel = some (lit, msg))
      (hp' : p'.ep0.stage = .lighting) (hrev : p'.revLevel = some lit)
      (hled : t.ledFeature = s.ledFeature) :
      Ep0Stepped s p t p' .ep0If0 [.took .if0, .revLights msg]
  | lit (ok : Bool) (hp : p.ep0.stage = .lighting) (hp' : p'.ep0.stage = .serving)
      (hrev : p'.revLevel = p.revLevel) (hled : t.ledFeature = s.ledFeature) :
      Ep0Stepped s p t p' (.ep0Done ok) []

/-- A step of anything else: a session begins or ends, or its EP0 task stays where it is. -/
structure Elsewhere (s t : Bridge) (es : List BridgeEffect) : Prop where
  led : t.ledFeature = s.ledFeature
  effects : ∀ e ∈ es, e.ofEp0 = false
  session : ∀ p', t.session = some p' →
    (es = [.attached] ∧ ∃ ep, p' = Session.start ep) ∨
      (.attached ∉ es ∧ ∃ p, s.session = some p ∧ p'.ep0 = p.ep0 ∧ p'.revLevel = p.revLevel)

namespace Elsewhere

variable {s t : Bridge} {es : List BridgeEffect}

/-- The session stays as it is. -/
theorem keep (hled : t.ledFeature = s.ledFeature) (hs : t.session = s.session)
    (he : ∀ e ∈ es, e.ofEp0 = false) (ha : .attached ∉ es) : Elsewhere s t es where
  led := hled
  effects := he
  session p' hp := Or.inr ⟨ha, p', hs ▸ hp, rfl, rfl⟩

/-- Another task of the session moves. -/
theorem task {p p' : Session} (hs : s.session = some p) (hled : t.ledFeature = s.ledFeature)
    (ht : t.session = some p') (hep0 : p'.ep0 = p.ep0) (hrev : p'.revLevel = p.revLevel)
    (he : ∀ e ∈ es, e.ofEp0 = false) (ha : .attached ∉ es) : Elsewhere s t es where
  led := hled
  effects := he
  session r hr := by
    rw [ht] at hr
    obtain rfl := Option.some.inj hr
    exact Or.inr ⟨ha, p, hs, hep0, hrev⟩

theorem followStep (h : s.followStep = some (t, es)) : Elsewhere s t es := by
  unfold Bridge.followStep at h
  split at h
  · cases h
  · dsimp only at h
    split at h
    · split at h <;> cases h <;> exact .keep rfl rfl (by simp [BridgeEffect.ofEp0]) (by simp)
    · split at h
      · cases h
        exact .keep rfl rfl (by simp) (by simp)
      · split at h <;> cases h <;> exact .keep rfl rfl (by simp [BridgeEffect.ofEp0]) (by simp)
    · cases h

theorem controlRequest {req : Request} {data : List UInt8}
    (h : s.step (.controlRequest req data) = some (t, es)) : Elsewhere s t es := by
  rw [Bridge.step] at h
  split at h
  · split at h
    · unfold Bridge.queueControl at h
      split at h <;> cases h <;> exact .keep rfl rfl (by simp [BridgeEffect.ofEp0]) (by simp)
    all_goals
      cases h
      exact .keep rfl rfl (by simp) (by simp)
  · cases h

theorem inputReply {p : Session} (hs : s.session = some p) {r : Reply}
    (h : Bridge.inputReply r p s = some (t, es)) : Elsewhere s t es := by
  unfold Bridge.inputReply at h
  split at h
  · split at h <;> cases h <;> exact .keep rfl rfl (by simp [BridgeEffect.ofEp0]) (by simp)
  · cases h
    exact .task hs rfl rfl rfl rfl (by simp) (by simp)
  · cases h

theorem hidppReply {p : Session} (hs : s.session = some p) {r : Reply} {answers : Option ℕ}
    (h : Bridge.hidppReply r answers p s = some (t, es)) : Elsewhere s t es := by
  unfold Bridge.hidppReply at h
  split at h
  · cases h
    obtain ⟨q, n, heq⟩ := s.hidppMessage_eq (Packet.new _)
    rw [heq]
    exact .keep rfl rfl (by simp [BridgeEffect.ofEp0]) (by simp)
  · cases h
    exact .task hs rfl rfl rfl rfl (by simp) (by simp)
  · cases h

theorem ffbInReply {p : Session} (hs : s.session = some p) {r : Reply}
    (h : Bridge.ffbInReply r p s = some (t, es)) : Elsewhere s t es := by
  unfold Bridge.ffbInReply at h
  split at h
  · split at h <;> cases h <;> exact .keep rfl rfl (by simp) (by simp)
  · cases h
    exact .task hs rfl rfl rfl rfl (by simp) (by simp)
  · cases h

theorem ffbReply {p : Session} (hs : s.session = some p) {e : Option PipeError}
    (h : s.ffbReply p e = some (t, es)) : Elsewhere s t es := by
  unfold Bridge.ffbReply at h
  split at h
  · cases h
    exact .task hs rfl rfl rfl rfl (by simp) (by simp)
  · dsimp only at h
    split at h
    · cases h
      exact .task hs rfl rfl rfl rfl (by simp) (by simp)
    · split at h <;> cases h <;>
        exact .task hs rfl rfl rfl rfl (by simp [BridgeEffect.ofEp0]) (by simp)
  · cases h

theorem ffbCleared {p : Session} (hs : s.session = some p)
    (h : s.ffbCleared p = some (t, es)) : Elsewhere s t es := by
  unfold Bridge.ffbCleared at h
  split at h
  · next deadline ok hf hc =>
    cases h
    cases ok <;> exact .task hs rfl rfl rfl rfl (by simp [BridgeEffect.ofEp0]) (by simp)
  · cases h

theorem ffbTimeout {p : Session} (hs : s.session = some p)
    (h : s.ffbTimeout p = some (t, es)) : Elsewhere s t es := by
  unfold Bridge.ffbTimeout at h
  split at h
  · split at h
    · cases h
    · cases h
      exact .task hs rfl rfl rfl rfl (by simp [BridgeEffect.ofEp0]) (by simp)
  · cases h

theorem ffbTake {p : Session} (hs : s.session = some p) (h : s.ffbTake p = some (t, es)) :
    Elsewhere s t es := by
  unfold Bridge.ffbTake at h
  split at h
  · cases h
    exact .task hs rfl rfl rfl rfl (by simp [BridgeEffect.ofEp0]) (by simp)
  · cases h

/-- A pause of polling ends. -/
theorem inTimer {p : Session} (hs : s.session = some p) {x : InTask} (f : InTask → Session)
    (hep0 : ∀ x', (f x').ep0 = p.ep0) (hrev : ∀ x', (f x').revLevel = p.revLevel)
    (h : (Bridge.inTimer x s.now).map
      (fun x' => (({ s with session := some (f x') } : Bridge), ([] : List BridgeEffect))) =
        some (t, es)) : Elsewhere s t es := by
  obtain ⟨x', -, heq⟩ := Option.map_eq_some_iff.mp h
  cases heq
  exact .task hs rfl rfl (hep0 x') (hrev x') (by simp) (by simp)

end Elsewhere

theorem Returns.stage {s : Bridge} {p : Session} {q : Query} {answer : Option (Bytes 20)}
    (h : Returns s p q answer) : p.ep0.stage = .waking := by
  cases h with
  | failed he | timedOut deadline he | answered deadline a he =>
    rw [he]
    rfl

namespace Ep0Stepped

variable {s t : Bridge} {p : Session} {a : BridgeAct} {es : List BridgeEffect}

theorem queryDone {q : Query} {answer : Option (Bytes 20)} {b : Signal (Bytes 20)}
    (hr : Returns s p q answer)
    (h : ({ s with bridgeAnswer := b } : Bridge).queryDone p q answer = (t, es)) :
    ∃ p', t.session = some p' ∧ Ep0Stepped s p t p' a es := by
  unfold Bridge.queryDone at h
  cases hn : q.next answer with
  | some q' =>
    simp only [hn] at h
    cases h
    exact ⟨_, rfl, .queriesOn a q q' answer hr hn rfl rfl rfl⟩
  | none =>
    simp only [hn] at h
    cases h
    exact ⟨_, rfl, .awake a q answer hr hn rfl rfl rfl⟩

theorem ep0Done {ok : Bool} (h : s.ep0Done p ok = some (t, es)) :
    ∃ p', t.session = some p' ∧ Ep0Stepped s p t p' (.ep0Done ok) es := by
  unfold Bridge.ep0Done at h
  cases he : p.ep0 <;> simp only [he, reduceCtorEq, Option.some.injEq] at h
  case setIdle iface =>
    split at h <;> cases h
    · exact ⟨_, rfl, .waking _ _ (by rw [he]; rfl) rfl rfl rfl (by simp)⟩
    · exact ⟨_, rfl, .waking _ _ (by rw [he]; rfl) rfl rfl rfl (by simp)⟩
  case ping start tick =>
    cases h
    exact ⟨_, rfl, .waking _ _ (by rw [he]; rfl) rfl rfl rfl (by simp)⟩
  case querySend q =>
    split at h
    · cases h
      exact ⟨_, rfl, .waking _ _ (by rw [he]; rfl) rfl rfl rfl (by simp)⟩
    · exact queryDone (.failed he) (Option.some.inj h)
  case control tick | getStatus tick =>
    cases h
    exact ⟨_, rfl, .serves _ _ (by rw [he]; rfl) rfl rfl rfl (by simp)⟩
  case revLights tick =>
    cases h
    exact ⟨_, rfl, .lit ok (by rw [he]; rfl) rfl rfl rfl⟩
  case clearHalt ep tick =>
    cases h
    exact ⟨_, rfl, .serves _ _ (by rw [he]; rfl) rfl rfl rfl (by simp [BridgeEffect.ofEp0])⟩

theorem ep0Timer (h : s.ep0Timer p = some (t, es)) :
    ∃ p', t.session = some p' ∧ Ep0Stepped s p t p' a es := by
  unfold Bridge.ep0Timer at h
  cases he : p.ep0 <;> simp only [he, reduceCtorEq] at h
  case pingTick start tick =>
    split at h
    · cases h
    · split at h <;> cases h <;>
        exact ⟨_, rfl, .waking _ _ (by rw [he]; rfl) rfl rfl rfl (by simp)⟩
  case lastAnswers wake =>
    split at h <;> cases h
    exact ⟨_, rfl, .waking _ _ (by rw [he]; rfl) rfl rfl rfl (by simp)⟩
  case queryWait q deadline =>
    split at h
    · cases h
    · exact queryDone (.timedOut deadline he) (Option.some.inj h)

theorem ep0Answer (h : s.ep0Answer p = some (t, es)) :
    ∃ p', t.session = some p' ∧ Ep0Stepped s p t p' a es := by
  unfold Bridge.ep0Answer at h
  split at h
  · next q deadline answer he ha =>
    exact queryDone (.answered deadline answer he ha) (Option.some.inj h)
  · cases h

theorem ep0Control (h : s.ep0Control p = some (t, es)) :
    ∃ p', t.session = some p' ∧ Ep0Stepped s p t p' a es := by
  unfold Bridge.ep0Control at h
  split at h <;> cases h
  next tick msg q he hq =>
    exact ⟨_, rfl, .serves _ _ (by rw [he]; rfl) rfl rfl rfl (by simp [BridgeEffect.ofEp0])⟩

theorem ep0If0 (h : s.ep0If0 p = some (t, es)) :
    ∃ p', t.session = some p' ∧ Ep0Stepped s p t p' .ep0If0 es := by
  unfold Bridge.ep0If0 at h
  split at h
  · next tick report q he hq =>
    have hstage : p.ep0.stage = .serving := by
      rw [he]
      rfl
    dsimp only at h
    cases hc : revCommand report.bytes s.ledFeature p.revLevel with
    | none =>
      simp only [hc] at h
      cases h
      exact ⟨_, rfl, .ignores report q hstage hq hc rfl rfl rfl⟩
    | some r =>
      obtain ⟨lit, msg⟩ := r
      simp only [hc] at h
      cases h
      exact ⟨_, rfl, .lights report q lit msg hstage hq hc rfl rfl rfl⟩
  · cases h

theorem ep0Recover (h : s.ep0Recover p = some (t, es)) :
    ∃ p', t.session = some p' ∧ Ep0Stepped s p t p' a es := by
  unfold Bridge.ep0Recover at h
  split at h <;> cases h
  next tick ep he hr =>
    exact ⟨_, rfl, .serves _ _ (by rw [he]; rfl) rfl rfl rfl (by simp [BridgeEffect.ofEp0])⟩

theorem ep0Tick (h : s.ep0Tick p = some (t, es)) :
    ∃ p', t.session = some p' ∧ Ep0Stepped s p t p' a es := by
  unfold Bridge.ep0Tick at h
  cases he : p.ep0 <;> simp only [he, reduceCtorEq] at h
  case select tick =>
    split at h <;> cases h
    exact ⟨_, rfl, .serves _ _ (by rw [he]; rfl) rfl rfl rfl (by simp)⟩

end Ep0Stepped

/-- Every step is one of the EP0 task, or elsewhere. -/
theorem ep0_or_elsewhere {s t : Bridge} {a : BridgeAct} {es : List BridgeEffect}
    (h : bridge.step s a = some (t, es)) :
    (∃ p p', s.session = some p ∧ t.session = some p' ∧ Ep0Stepped s p t p' a es) ∨
      (∀ ok, a ≠ .ep0Done ok) ∧ Elsewhere s t es := by
  have hep0 : ∀ f, s.inSession f = some (t, es) →
      (∀ p, f p s = some (t, es) → ∃ p', t.session = some p' ∧ Ep0Stepped s p t p' a es) →
      ∃ p p', s.session = some p ∧ t.session = some p' ∧ Ep0Stepped s p t p' a es := by
    intro f hf hstep
    obtain ⟨p, hs, hp⟩ := Bridge.inSession_eq_some.mp hf
    obtain ⟨p', ht, hp'⟩ := hstep p hp
    exact ⟨p, p', hs, ht, hp'⟩
  change s.step a = some (t, es) at h
  cases a
  case ep0Done ok => exact Or.inl (hep0 _ h fun p => Ep0Stepped.ep0Done)
  case ep0Timer => exact Or.inl (hep0 _ h fun p => Ep0Stepped.ep0Timer)
  case ep0Answer => exact Or.inl (hep0 _ h fun p => Ep0Stepped.ep0Answer)
  case ep0Control => exact Or.inl (hep0 _ h fun p => Ep0Stepped.ep0Control)
  case ep0If0 => exact Or.inl (hep0 _ h fun p => Ep0Stepped.ep0If0)
  case ep0Recover => exact Or.inl (hep0 _ h fun p => Ep0Stepped.ep0Recover)
  case ep0Tick => exact Or.inl (hep0 _ h fun p => Ep0Stepped.ep0Tick)
  all_goals refine Or.inr ⟨fun ok => BridgeAct.noConfusion, ?_⟩
  case elapse ms =>
    cases h
    exact .keep rfl rfl (by simp) (by simp)
  case follow => exact .followStep h
  case followTimer =>
    rw [Bridge.step] at h
    split at h
    · split at h <;> cases h
      exact .keep rfl rfl (by simp) (by simp)
    · cases h
    · cases h
  case controlRequest req data => exact .controlRequest h
  case ffbPacket data =>
    rw [Bridge.step] at h
    split at h
    · unfold Bridge.queueFfb at h
      split at h <;> cases h <;> exact .keep rfl rfl (by simp [BridgeEffect.ofEp0]) (by simp)
    · cases h
  case if0Packet data =>
    rw [Bridge.step] at h
    split at h
    · unfold Bridge.queueIf0 at h
      split at h <;> cases h <;> exact .keep rfl rfl (by simp [BridgeEffect.ofEp0]) (by simp)
    · cases h
  case giveInput =>
    rw [Bridge.step] at h
    split at h <;> cases h
    exact .keep rfl rfl (by simp [BridgeEffect.ofEp0]) (by simp)
  case giveHidpp =>
    rw [Bridge.step] at h
    split at h
    · obtain ⟨r, -, heq⟩ := Option.map_eq_some_iff.mp h
      cases heq
      exact .keep rfl rfl (by simp) (by simp)
    · cases h
  case giveFfb =>
    rw [Bridge.step] at h
    split at h
    · obtain ⟨r, -, heq⟩ := Option.map_eq_some_iff.mp h
      cases heq
      exact .keep rfl rfl (by simp) (by simp)
    · cases h
  case attach ep =>
    rw [Bridge.step] at h
    split at h <;> cases h
    exact ⟨rfl, by simp [BridgeEffect.ofEp0], fun p' hp =>
      Or.inl ⟨rfl, ep, (Option.some.inj hp).symm⟩⟩
  case detach =>
    rw [Bridge.step] at h
    obtain ⟨p, hs, hp⟩ := Bridge.inSession_eq_some.mp h
    cases hp
    exact ⟨rfl, by simp [BridgeEffect.ofEp0], fun p' hp => by cases hp⟩
  case inputReply r =>
    obtain ⟨p, hs, hp⟩ := Bridge.inSession_eq_some.mp h
    exact .inputReply hs hp
  case inputTimer =>
    rw [Bridge.step] at h
    obtain ⟨p, hs, hp⟩ := Bridge.inSession_eq_some.mp h
    exact .inTimer hs (fun x => { p with inputTask := x }) (fun _ => rfl) (fun _ => rfl) hp
  case hidppReply r answers =>
    obtain ⟨p, hs, hp⟩ := Bridge.inSession_eq_some.mp h
    exact .hidppReply hs hp
  case hidppTimer =>
    rw [Bridge.step] at h
    obtain ⟨p, hs, hp⟩ := Bridge.inSession_eq_some.mp h
    exact .inTimer hs (fun x => { p with hidppTask := x }) (fun _ => rfl) (fun _ => rfl) hp
  case ffbInReply r =>
    obtain ⟨p, hs, hp⟩ := Bridge.inSession_eq_some.mp h
    exact .ffbInReply hs hp
  case ffbInTimer =>
    rw [Bridge.step] at h
    obtain ⟨p, hs, hp⟩ := Bridge.inSession_eq_some.mp h
    exact .inTimer hs (fun x => { p with ffbInTask := x }) (fun _ => rfl) (fun _ => rfl) hp
  case ffbTake =>
    obtain ⟨p, hs, hp⟩ := Bridge.inSession_eq_some.mp h
    exact .ffbTake hs hp
  case ffbReply e =>
    obtain ⟨p, hs, hp⟩ := Bridge.inSession_eq_some.mp h
    exact .ffbReply hs hp
  case ffbCleared =>
    obtain ⟨p, hs, hp⟩ := Bridge.inSession_eq_some.mp h
    exact .ffbCleared hs hp
  case ffbTimeout =>
    obtain ⟨p, hs, hp⟩ := Bridge.inSession_eq_some.mp h
    exact .ffbTimeout hs hp

end WheelBridge
