import WheelBridge.Bridge

/-!
Everything one step of the bridge can be, stated once; the invariants of the bridge are
proved by cases on it.
-/
namespace WheelBridge

/-- A HID++ message changes what the session knows of its answers, and what is queued for
the console. -/
theorem Bridge.hidppMessage_eq (s : Bridge) (packet : Packet) :
    ∃ (q : Channel Packet hidppInQueueLen) (n : ℕ), s.hidppMessage packet = { s with
      hidppIn := q
      dropped := n
      wheelAnswered := s.wheelAnswered || (s.waking && softwareId packet.bytes ≠ 0)
      bridgeAnswer :=
        if softwareId packet.bytes = bridgeSwid then some (answerBytes packet.bytes)
        else s.bridgeAnswer } := by
  unfold Bridge.hidppMessage
  dsimp only
  split
  · exact ⟨s.hidppIn, s.dropped, rfl⟩
  · next hnot =>
    obtain ⟨hw, hswid⟩ := not_or.mp hnot
    have hkept : (s.wheelAnswered || (s.waking && softwareId packet.bytes ≠ 0)) =
        s.wheelAnswered := by simp [hw]
    rw [hkept, if_neg hswid]
    split
    · next q _ => exact ⟨q, s.dropped, rfl⟩
    · exact ⟨s.hidppIn, s.dropped + 1, rfl⟩

/-- How `hidpp_request` can return. -/
inductive Returns (s : Bridge) (p : Session) (q : Query) : Option (Bytes 20) → Prop
  | failed (he : p.ep0 = .querySend q) : Returns s p q none
  | timedOut (deadline : ℕ) (he : p.ep0 = .queryWait q deadline) : Returns s p q none
  | answered (deadline : ℕ) (a : Bytes 20) (he : p.ep0 = .queryWait q deadline)
      (ha : s.bridgeAnswer = some a) :
      Returns s p q (if a.byte 2 = 0xff then none else some a)

/-- Moves of the EP0 task that touch nothing else. -/
inductive Ep0.Moves (s : Bridge) : Ep0 → Ep0 → Prop
  | setIdle (iface : ℕ) : Moves s (.setIdle iface) (.setIdle (iface + 1))
  | pinged (start tick : ℕ) : Moves s (.ping start tick) (.pingTick start tick)
  | pingsEnd (start tick wake : ℕ)
      (h : s.wheelAnswered = true ∨ pingTimeout ≤ s.now - start) :
      Moves s (.pingTick start tick) (.lastAnswers wake)
  | querySent (q : Query) (deadline : ℕ) : Moves s (.querySend q) (.queryWait q deadline)
  | control (tick : ℕ) : Moves s (.control tick) (.select tick)
  | revLights (tick : ℕ) : Moves s (.revLights tick) (.select tick)
  | status (tick tick' : ℕ) : Moves s (.select tick) (.getStatus tick')
  | getStatus (tick : ℕ) : Moves s (.getStatus tick) (.select tick)

/-- The FFB OUT task goes on after a transfer. -/
inductive FfbOut.Moves : FfbOut → FfbOut → Prop
  | next : Moves .write .receive
  | stop : Moves .write .stopped

inductive Moved (s : Bridge) : Bridge → List BridgeEffect → Prop
  | elapse (ms : ℕ) : Moved s { s with now := s.now + ms } []
  | boots (q : Channel Bool wheelLinkLen) (hq : s.wheelLink.receive = some (true, q))
      (hf : s.follow = .boot) :
      Moved s { s with wheelLink := q, follow := .waiting true } [.pullup true]
  | linkSame (link : Bool) (q : Channel Bool wheelLinkLen)
      (hq : s.wheelLink.receive = some (link, q)) (hf : s.follow.onBus = link) :
      Moved s { s with wheelLink := q } []
  | linkOff (q : Channel Bool wheelLinkLen) (hq : s.wheelLink.receive = some (false, q))
      (hf : s.follow = .waiting true) :
      Moved s { s with wheelLink := q, follow := .sleeping (s.now + minDetach) } [.pullup false]
  | linkOn (q : Channel Bool wheelLinkLen) (hq : s.wheelLink.receive = some (true, q))
      (hf : s.follow = .waiting false) :
      Moved s { s with
        wheelLink := q
        follow := .waiting true
        hidppIn := Channel.empty
        ffbIn := Channel.empty
        ffbOut := Channel.empty
        controlOut := Channel.empty
        if0Out := Channel.empty } [.cleared, .pullup true]
  | followWoke (wake : ℕ) (hf : s.follow = .sleeping wake) :
      Moved s { s with follow := .waiting false } []
  | queuedControl (msg : ControlOut) (q : Channel ControlOut queueLen) (hb : s.built = true)
      (hq : s.controlOut.trySend msg = some q) :
      Moved s { s with controlOut := q } [.queued .control]
  | queuedFfb (packet : Packet) (q : Channel Packet queueLen) (hb : s.built = true)
      (hq : s.ffbOut.trySend packet = some q) :
      Moved s { s with ffbOut := q } [.queued .ffb]
  | queuedIf0 (packet : Packet) (q : Channel Packet queueLen) (hb : s.built = true)
      (hq : s.if0Out.trySend packet = some q) :
      Moved s { s with if0Out := q } [.queued .if0]
  | toConsole (hidppIn : Channel Packet hidppInQueueLen) (ffbIn : Channel Packet queueLen)
      (dropped : ℕ) :
      Moved s { s with hidppIn := hidppIn, ffbIn := ffbIn, dropped := dropped } []
  | gaveInput : Moved s s [.inputGiven s.input]
  | attach (ep : UInt8) (hs : s.session = none) :
      Moved s { s with session := some (Session.start ep) } [.attached]
  | detach (p : Session) (hs : s.session = some p) :
      Moved s { s.link false with session := none } [.detached, .linked false]
  | input (p : Session) (report : Bytes c272Len) (hs : s.session = some p) :
      Moved s { s with input := InputMap.translate report } [.wheelInput report]
  | polls (p : Session) (i h f : InTask) (hs : s.session = some p) :
      Moved s
        { s with session := some { p with inputTask := i, hidppTask := h, ffbInTask := f } } []
  | message (p : Session) (packet : Packet) (answers : Option ℕ) (hs : s.session = some p) :
      Moved s (s.hidppMessage packet) [.message packet.bytes answers]
  | ep0 (p : Session) (e : Ep0) (hs : s.session = some p) (hm : Ep0.Moves s p.ep0 e) :
      Moved s { s with session := some { p with ep0 := e } } []
  | wakes (p : Session) (iface : ℕ) (hs : s.session = some p) (he : p.ep0 = .setIdle iface) :
      Moved s { s with
        waking := true
        wheelAnswered := false
        session := some { p with ep0 := .ping s.now (s.now + pingInterval) } } [.request ping]
  | pingsOn (p : Session) (start tick : ℕ) (hs : s.session = some p)
      (he : p.ep0 = .pingTick start tick) (hn : s.wheelAnswered = false) :
      Moved s { s with session := some { p with ep0 := .ping start (tick + pingInterval) } }
        [.request ping]
  | queries (p : Session) (wake : ℕ) (hs : s.session = some p) (he : p.ep0 = .lastAnswers wake) :
      Moved s { s with
        waking := false
        bridgeAnswer := none
        session := some { p with ep0 := .querySend .featureSet } } [.request Query.featureSet.msg]
  | queriesOn (p : Session) (q q' : Query) (answer : Option (Bytes 20)) (led : UInt8)
      (hs : s.session = some p) (hr : Returns s p q answer) :
      Moved s { s with
        bridgeAnswer := none
        ledFeature := led
        session := some { p with ep0 := .querySend q' } }
        [.returned q.msg answer, .request q'.msg]
  | awake (p : Session) (q : Query) (answer : Option (Bytes 20)) (b : Signal (Bytes 20))
      (led : UInt8) (hs : s.session = some p) (hr : Returns s p q answer) :
      Moved s { s.link true with
        bridgeAnswer := b
        ledFeature := led
        session := some { p with
          ep0 := .select (s.now + livenessInterval)
          revLevel := none } }
        [.returned q.msg answer, .linked true]
  | repeats (p : Session) (msg : ControlOut) (q : Channel ControlOut queueLen) (tick : ℕ)
      (hs : s.session = some p) (he : p.ep0 = .select tick)
      (hq : s.controlOut.receive = some (msg, q)) :
      Moved s { s with controlOut := q, session := some { p with ep0 := .control tick } }
        [.took .control, .repeated msg]
  | ignores (p : Session) (report : Packet) (q : Channel Packet queueLen) (tick : ℕ)
      (hs : s.session = some p) (he : p.ep0 = .select tick)
      (hq : s.if0Out.receive = some (report, q)) :
      Moved s { s with if0Out := q } [.took .if0]
  | lights (p : Session) (report : Packet) (q : Channel Packet queueLen) (tick lit : ℕ)
      (msg : List UInt8) (hs : s.session = some p) (he : p.ep0 = .select tick)
      (hq : s.if0Out.receive = some (report, q))
      (hc : revCommand report.bytes s.ledFeature p.revLevel = some (lit, msg)) :
      Moved s { s with
        if0Out := q
        session := some { p with ep0 := .revLights tick, revLevel := some lit } }
        [.took .if0, .revLights msg]
  | clears (p : Session) (ep : UInt8) (tick : ℕ) (hs : s.session = some p)
      (he : p.ep0 = .select tick) (hr : s.ffbRecover = some ep) :
      Moved s { s with ffbRecover := none, session := some { p with ep0 := .clearHalt ep tick } }
        [.clearHalt ep]
  | cleared (p : Session) (ep : UInt8) (tick : ℕ) (ok : Bool) (hs : s.session = some p)
      (he : p.ep0 = .clearHalt ep tick) :
      Moved s { s with
        ffbHaltCleared := some ok
        session := some { p with ep0 := .select tick } } [.haltCleared ok]
  | ffbTakes (p : Session) (packet : Packet) (q : Channel Packet queueLen)
      (hs : s.session = some p) (hf : p.ffbOut = .receive)
      (hq : s.ffbOut.receive = some (packet, q)) :
      Moved s { s with ffbOut := q, session := some { p with ffbOut := .write } }
        [.took .ffb, .ffbWrite (ffbReport packet)]
  | ffb (p : Session) (f : FfbOut) (hs : s.session = some p) (hm : FfbOut.Moves p.ffbOut f) :
      Moved s { s with session := some { p with ffbOut := f } } []
  | recovers (p : Session) (hs : s.session = some p) (hf : p.ffbOut = .write) :
      Moved s { s.link false with
        ffbHaltCleared := none
        ffbRecover := some p.ffbEp
        session := some { p with
          ffbOut := .recover (s.now + ffbRecoveryTimeout)
          lastRecovery := some s.now } } [.linked false, .recoverAsked]
  | recovered (p : Session) (deadline : ℕ) (hs : s.session = some p)
      (hf : p.ffbOut = .recover deadline) (hc : s.ffbHaltCleared = some true) :
      Moved s { s.link true with
        ffbHaltCleared := none
        session := some { p with ffbOut := .receive } } [.toggleReset, .linked true]
  | givesUp (p : Session) (deadline : ℕ) (hs : s.session = some p)
      (hf : p.ffbOut = .recover deadline) (hc : s.ffbHaltCleared ≠ some true) :
      Moved s { s.link true with
        ffbHaltCleared := none
        session := some { p with ffbOut := .receive } } [.linked true]

namespace Moved

variable {s t : Bridge} {p : Session} {es : List BridgeEffect}

theorem self (s : Bridge) : Moved s s [] := .toConsole s.hidppIn s.ffbIn s.dropped

theorem followStep (h : s.followStep = some (t, es)) : Moved s t es := by
  unfold Bridge.followStep at h
  cases hq : s.wheelLink.receive with
  | none => simp [hq] at h
  | some r =>
    obtain ⟨link, q⟩ := r
    simp only [hq] at h
    cases hf : s.follow with
    | boot =>
      simp only [hf] at h
      cases link
      · cases h
        have := Moved.linkSame false q hq (by rw [hf]; rfl)
        rwa [hf] at this
      · cases h
        exact .boots q hq hf
    | sleeping wake => simp [hf] at h
    | waiting attached =>
      simp only [hf] at h
      split at h
      · next heq =>
        cases h
        have := Moved.linkSame link q hq (by rw [hf, heq]; rfl)
        rwa [hf] at this
      · next hne =>
        split at h
        · next hlink =>
          cases h
          subst hlink
          cases attached
          · exact .linkOn q hq hf
          · exact absurd rfl hne
        · next hlink =>
          cases h
          cases link
          · cases attached
            · exact absurd rfl hne
            · exact .linkOff q hq hf
          · exact absurd rfl hlink

/-- What the console side sends is queued, or counted as dropped. -/
theorem queueControl (hb : s.built = true) (msg : ControlOut)
    (h : s.queueControl msg = (t, es)) : Moved s t es := by
  unfold Bridge.queueControl at h
  cases hq : s.controlOut.trySend msg with
  | none =>
    rw [hq] at h
    cases h
    exact .toConsole ..
  | some q =>
    rw [hq] at h
    cases h
    exact .queuedControl msg q hb hq

theorem queueFfb (hb : s.built = true) (packet : Packet)
    (h : s.queueFfb packet = (t, es)) : Moved s t es := by
  unfold Bridge.queueFfb at h
  cases hq : s.ffbOut.trySend packet with
  | none =>
    rw [hq] at h
    cases h
    exact .toConsole ..
  | some q =>
    rw [hq] at h
    cases h
    exact .queuedFfb packet q hb hq

theorem queueIf0 (hb : s.built = true) (packet : Packet)
    (h : s.queueIf0 packet = (t, es)) : Moved s t es := by
  unfold Bridge.queueIf0 at h
  cases hq : s.if0Out.trySend packet with
  | none =>
    rw [hq] at h
    cases h
    exact .toConsole ..
  | some q =>
    rw [hq] at h
    cases h
    exact .queuedIf0 packet q hb hq

theorem inputReply (hs : s.session = some p) {r : Reply}
    (h : Bridge.inputReply r p s = some (t, es)) : Moved s t es := by
  unfold Bridge.inputReply at h
  split at h
  · split at h <;> cases h
    · exact .input p _ hs
    · exact .self s
  · cases h
    exact .polls p _ p.hidppTask p.ffbInTask hs
  · cases h

theorem hidppReply (hs : s.session = some p) {r : Reply} {answers : Option ℕ}
    (h : Bridge.hidppReply r answers p s = some (t, es)) : Moved s t es := by
  unfold Bridge.hidppReply at h
  split at h <;> cases h
  · exact .message p _ answers hs
  · exact .polls p p.inputTask _ p.ffbInTask hs

theorem ffbInReply (hs : s.session = some p) {r : Reply}
    (h : Bridge.ffbInReply r p s = some (t, es)) : Moved s t es := by
  unfold Bridge.ffbInReply at h
  split at h
  · split at h <;> cases h <;> exact .toConsole ..
  · cases h
    exact .polls p p.inputTask p.hidppTask _ hs
  · cases h

theorem queryDone (hs : s.session = some p) {q : Query} {answer : Option (Bytes 20)}
    {b : Signal (Bytes 20)} (hr : Returns s p q answer)
    (h : ({ s with bridgeAnswer := b } : Bridge).queryDone p q answer = (t, es)) :
    Moved s t es := by
  unfold Bridge.queryDone at h
  cases hn : q.next answer with
  | some q' =>
    simp only [hn] at h
    cases h
    exact .queriesOn p q q' answer _ hs hr
  | none =>
    simp only [hn] at h
    cases h
    exact .awake p q answer b _ hs hr

theorem ep0Done (hs : s.session = some p) {ok : Bool} (h : s.ep0Done p ok = some (t, es)) :
    Moved s t es := by
  unfold Bridge.ep0Done at h
  cases he : p.ep0 <;> simp only [he, reduceCtorEq, Option.some.injEq] at h
  case setIdle iface =>
    split at h <;> cases h
    · exact .ep0 p _ hs (by rw [he]; exact .setIdle iface)
    · exact .wakes p iface hs he
  case ping start tick =>
    cases h
    exact .ep0 p _ hs (by rw [he]; exact .pinged start tick)
  case querySend q =>
    split at h
    · cases h
      exact .ep0 p _ hs (by rw [he]; exact .querySent q _)
    · exact .queryDone hs (.failed he) (Option.some.inj h)
  case control tick =>
    cases h
    exact .ep0 p _ hs (by rw [he]; exact .control tick)
  case revLights tick =>
    cases h
    exact .ep0 p _ hs (by rw [he]; exact .revLights tick)
  case getStatus tick =>
    cases h
    exact .ep0 p _ hs (by rw [he]; exact .getStatus tick)
  case clearHalt ep tick =>
    cases h
    exact .cleared p ep tick ok hs he

theorem ep0Timer (hs : s.session = some p) (h : s.ep0Timer p = some (t, es)) :
    Moved s t es := by
  unfold Bridge.ep0Timer at h
  cases he : p.ep0 <;> simp only [he, reduceCtorEq] at h
  case pingTick start tick =>
    split at h
    · cases h
    · split at h <;> cases h
      · next hend => exact .ep0 p _ hs (by rw [he]; exact .pingsEnd start tick _ hend)
      · next hgo => exact .pingsOn p start tick hs he (by simpa using (not_or.mp hgo).1)
  case lastAnswers wake =>
    split at h <;> cases h
    exact .queries p wake hs he
  case queryWait q deadline =>
    split at h
    · cases h
    · exact .queryDone hs (.timedOut deadline he) (Option.some.inj h)

theorem ep0Answer (hs : s.session = some p) (h : s.ep0Answer p = some (t, es)) :
    Moved s t es := by
  unfold Bridge.ep0Answer at h
  split at h
  · next q deadline a he ha => exact .queryDone hs (.answered deadline a he ha) (Option.some.inj h)
  · cases h

theorem ep0Control (hs : s.session = some p) (h : s.ep0Control p = some (t, es)) :
    Moved s t es := by
  unfold Bridge.ep0Control at h
  split at h <;> cases h
  next tick msg q he hq => exact .repeats p msg q tick hs he hq

theorem ep0If0 (hs : s.session = some p) (h : s.ep0If0 p = some (t, es)) : Moved s t es := by
  unfold Bridge.ep0If0 at h
  split at h
  · next tick report q he hq =>
    dsimp only at h
    cases hc : revCommand report.bytes s.ledFeature p.revLevel with
    | none =>
      simp only [hc] at h
      cases h
      have := Moved.ignores p report q tick hs he hq
      unfold Bridge.atEp0
      rw [← he]
      exact hs ▸ this
    | some r =>
      obtain ⟨lit, msg⟩ := r
      simp only [hc] at h
      cases h
      exact .lights p report q tick lit msg hs he hq hc
  · cases h

theorem ep0Recover (hs : s.session = some p) (h : s.ep0Recover p = some (t, es)) :
    Moved s t es := by
  unfold Bridge.ep0Recover at h
  split at h <;> cases h
  next tick ep he hr => exact .clears p ep tick hs he hr

theorem ep0Tick (hs : s.session = some p) (h : s.ep0Tick p = some (t, es)) : Moved s t es := by
  unfold Bridge.ep0Tick at h
  cases he : p.ep0 <;> simp only [he, reduceCtorEq] at h
  case select tick =>
    split at h <;> cases h
    exact .ep0 p _ hs (by rw [he]; exact .status tick _)

theorem ffbTake (hs : s.session = some p) (h : s.ffbTake p = some (t, es)) : Moved s t es := by
  unfold Bridge.ffbTake at h
  split at h <;> cases h
  next packet q hf hq => exact .ffbTakes p packet q hs hf hq

theorem ffbReply (hs : s.session = some p) {e : Option PipeError}
    (h : s.ffbReply p e = some (t, es)) : Moved s t es := by
  unfold Bridge.ffbReply at h
  split at h
  · next hf =>
    cases h
    exact .ffb p _ hs (by rw [hf]; exact .next)
  · next hf =>
    dsimp only at h
    split at h
    · cases h
      exact .ffb p _ hs (by rw [hf]; exact .stop)
    · split at h <;> cases h
      · exact .recovers p hs hf
      · exact .ffb p _ hs (by rw [hf]; exact .next)
  · cases h

theorem ffbCleared (hs : s.session = some p) (h : s.ffbCleared p = some (t, es)) :
    Moved s t es := by
  unfold Bridge.ffbCleared at h
  split at h
  · next deadline ok hf hc =>
    cases h
    cases ok
    · exact .givesUp p deadline hs hf (by simp [hc])
    · exact .recovered p deadline hs hf hc
  · cases h

theorem ffbTimeout (hs : s.session = some p) (h : s.ffbTimeout p = some (t, es)) :
    Moved s t es := by
  unfold Bridge.ffbTimeout at h
  cases hf : p.ffbOut <;> simp only [hf, reduceCtorEq] at h
  case recover deadline =>
    split at h
    · cases h
    · next hnot =>
      cases h
      have hn : s.ffbHaltCleared = none := by simpa using (not_or.mp hnot).2
      have := Moved.givesUp p deadline hs hf (by simp [hn])
      rw [← hn] at this
      exact this

/-- A step of a session's task. -/
theorem inSession {f : Session → Bridge → Stepping} (h : s.inSession f = some (t, es))
    (hf : ∀ p, s.session = some p → f p s = some (t, es) → Moved s t es) : Moved s t es := by
  obtain ⟨p, hs, hp⟩ := Bridge.inSession_eq_some.mp h
  exact hf p hs hp

theorem inTimer {x : InTask} {f : InTask → Bridge} (hf : ∀ x', Moved s (f x') [])
    (h : (Bridge.inTimer x s.now).map (fun x' => (f x', [])) = some (t, es)) :
    Moved s t es := by
  obtain ⟨x', -, heq⟩ := Option.map_eq_some_iff.mp h
  cases heq
  exact hf x'

end Moved

/-- Every step of the bridge is one of those listed. -/
theorem moved {s t : Bridge} {a : BridgeAct} {es : List BridgeEffect}
    (h : bridge.step s a = some (t, es)) : Moved s t es := by
  change s.step a = some (t, es) at h
  cases a <;> simp only [Bridge.step] at h
  case elapse ms =>
    cases h
    exact .elapse ms
  case follow => exact .followStep h
  case followTimer =>
    split at h
    · next wake hf =>
      split at h <;> cases h
      exact .followWoke wake hf
    · cases h
    · cases h
  case controlRequest req data =>
    split at h
    · next hb =>
      split at h
      · exact .queueControl hb _ (Option.some.inj h)
      all_goals
        cases h
        exact .self s
    · cases h
  case ffbPacket data =>
    split at h
    · next hb => exact .queueFfb hb _ (Option.some.inj h)
    · cases h
  case if0Packet data =>
    split at h
    · next hb => exact .queueIf0 hb _ (Option.some.inj h)
    · cases h
  case giveInput =>
    split at h <;> cases h
    exact .gaveInput
  case giveHidpp =>
    split at h
    · obtain ⟨r, -, heq⟩ := Option.map_eq_some_iff.mp h
      cases heq
      exact .toConsole ..
    · cases h
  case giveFfb =>
    split at h
    · obtain ⟨r, -, heq⟩ := Option.map_eq_some_iff.mp h
      cases heq
      exact .toConsole ..
    · cases h
  case attach ep =>
    split at h <;> cases h
    next hs => exact .attach ep hs
  case detach =>
    apply Moved.inSession h
    intro p hs hp
    cases hp
    exact .detach p hs
  case inputReply r => exact .inSession h fun p hs hp => .inputReply hs hp
  case inputTimer =>
    exact .inSession h fun p hs hp => .inTimer (fun x => .polls p x p.hidppTask p.ffbInTask hs) hp
  case hidppReply r answers => exact .inSession h fun p hs hp => .hidppReply hs hp
  case hidppTimer =>
    exact .inSession h fun p hs hp => .inTimer (fun x => .polls p p.inputTask x p.ffbInTask hs) hp
  case ffbInReply r => exact .inSession h fun p hs hp => .ffbInReply hs hp
  case ffbInTimer =>
    exact .inSession h fun p hs hp => .inTimer (fun x => .polls p p.inputTask p.hidppTask x hs) hp
  case ep0Done ok => exact .inSession h fun p hs hp => .ep0Done hs hp
  case ep0Timer => exact .inSession h fun p hs hp => .ep0Timer hs hp
  case ep0Answer => exact .inSession h fun p hs hp => .ep0Answer hs hp
  case ep0Control => exact .inSession h fun p hs hp => .ep0Control hs hp
  case ep0If0 => exact .inSession h fun p hs hp => .ep0If0 hs hp
  case ep0Recover => exact .inSession h fun p hs hp => .ep0Recover hs hp
  case ep0Tick => exact .inSession h fun p hs hp => .ep0Tick hs hp
  case ffbTake => exact .inSession h fun p hs hp => .ffbTake hs hp
  case ffbReply e => exact .inSession h fun p hs hp => .ffbReply hs hp
  case ffbCleared => exact .inSession h fun p hs hp => .ffbCleared hs hp
  case ffbTimeout => exact .inSession h fun p hs hp => .ffbTimeout hs hp

/-- A HID++ answer to a request with bytes 1..3 `ff, feature, function`. -/
def hidppAnswer (feature function : UInt8) (data : List UInt8) (request : ℕ) : BridgeAct :=
  .hidppReply (.ok (((Bytes.zero : Bytes 20).write
    ([0x11, 0xff, feature, function] ++ data)).toList)) (some request)

/-- A wheel is enumerated, answers the first ping, has neither a feature table nor LED
effects, and is reported awake. -/
def wakeUp (ep : UInt8) : List BridgeAct :=
  [.attach ep, .ep0Done true, .ep0Done true, .ep0Done true, .ep0Done true,
    hidppAnswer 0x00 0x1b [0x04, 0x02, 0x5a] 0, .elapse 20, .ep0Timer, .elapse 100, .ep0Timer,
    .ep0Done true, hidppAnswer 0x00 bridgeSwid [] 1, .ep0Answer,
    .ep0Done true, hidppAnswer 0x00 bridgeSwid [] 2, .ep0Answer]

end WheelBridge
