import WheelBridge.RelayAccounts

/-!
Who talks to DriveHub's EP0 in the relay: the signer of the console's authentication and
the repeater of its class requests take turns. The relay refines the control handler, and with
it the authentication relay, of which DriveHub is the only signer.
-/
namespace WheelBridge

def RelayEffect.toHandler : RelayEffect → Option HandlerEffect
  | .handler e => some e
  | .received _ _ _ | .handed _ _ | .lost _ _ | .repeated _ _ | .logged _ _ => none

section Effects

theorem toHandler_handler (es : List HandlerEffect) :
    (es.map RelayEffect.handler).filterMap RelayEffect.toHandler = es :=
  filterMap_seen RelayEffect.handler RelayEffect.toHandler (fun _ => rfl) es

theorem toHandler_packet (path : RelayPath) (data : List UInt8) (s : Relay) :
    (s.packet path data).2.filterMap RelayEffect.toHandler = [] ∧
      (s.packet path data).1.handler = s.handler := by
  unfold Relay.packet
  split <;> exact ⟨rfl, rfl⟩

theorem handler_stopped (path : RelayPath) (s : Relay) : (s.stopped path).handler = s.handler := by
  unfold Relay.stopped
  split
  · split
    · rfl
    · rfl
  · rfl
  · rfl

theorem toHandler_sent {writeTransfer : WriteTransfer} {path : RelayPath} {ok : Bool}
    {s t : Relay} {es : List RelayEffect} (h : s.sent writeTransfer path ok = some (t, es)) :
    es.filterMap RelayEffect.toHandler = [] ∧ t.handler = s.handler := by
  unfold Relay.sent at h
  split at h
  · cases h
  · cases ok with
    | true =>
      cases h
      rw [Relay.transfer_eq]
      exact ⟨rfl, rfl⟩
    | false =>
      cases h
      exact ⟨rfl, handler_stopped path _⟩

end Effects

theorem relay_refines_handler (writeTransfer : WriteTransfer) :
    (relay writeTransfer).Refines (handler relayC269) Relay.handler RelayEffect.toHandler where
  step s a t es h := by
    cases Relay.passed h with
    | aside hbooks hhandler =>
      rw [hhandler]
      exact ⟨[], rfl⟩
    | handler b fs hstep hbooks =>
      rw [toHandler_handler]
      exact ⟨[b], Machine.run_single hstep⟩
    | packet path data hfit ht =>
      obtain ⟨hes, hhandler⟩ := toHandler_packet path data s
      rw [hes, ht, hhandler]
      exact ⟨[], rfl⟩
    | sent path ok es ha hsent =>
      obtain ⟨hes, hhandler⟩ := toHandler_sent hsent
      rw [hes, hhandler]
      exact ⟨[], rfl⟩
    | detach es ha hdetach =>
      obtain ⟨⟨u, fs⟩, hu, heq⟩ := Option.map_eq_some_iff.mp hdetach
      obtain ⟨x, gs, hstep, rfl, rfl⟩ := Relay.inHandler_eq_some.mp hu
      cases heq
      have hlost : ([RelayPath.if0Out, .ffbOut].flatMap fun path =>
          ((s.sending path).map fun packet => RelayEffect.lost path packet.bytes).toList).filterMap
            RelayEffect.toHandler = [] := by
        rw [List.filterMap_eq_nil_iff]
        intro e he
        obtain ⟨p, -, he⟩ := List.mem_flatMap.mp he
        rw [Option.mem_toList, Option.map_eq_some_iff] at he
        obtain ⟨x, -, rfl⟩ := he
        rfl
      rw [List.filterMap_append, toHandler_handler, hlost, List.append_nil]
      exact ⟨[.signer (.detach backend)], Machine.run_single hstep⟩
    | repeated hidpp ok hhandler hbooks =>
      rw [hhandler]
      exact ⟨[], rfl⟩
    | logged c hhandler hbooks =>
      rw [hhandler]
      exact ⟨[], rfl⟩

/-- The request that `repeat_control` is at. -/
def Relay.repeating (s : Relay) : Option Bool :=
  match s.session with
  | some (.forwarding f) => f.repeating
  | some .probing | none => none

/-- DriveHub is the only signer, is one while it is there, and waits for a command while a
request is repeated. -/
structure Ep0Shared (s : Relay) : Prop where
  alone : ∀ i ≠ backend, s.handler.auth.signers i = none
  present : (s.handler.auth.signers backend).isSome = s.session.isSome
  waits : s.repeating ≠ none → s.handler.auth.signers backend = some .receive

section Signers

variable {role : Role} {s t : Auth.System} {es : List Auth.Effect}

theorem signers_consoleGet (id : UInt8) (s : Auth.System) :
    (Auth.consoleGet id s).1.signers = s.signers := by
  obtain ⟨⟨q, hq⟩, -⟩ := Auth.consoleGet_spec id s
  rw [hq]

/-- Nothing but a signer changes who the signers are. -/
theorem signers_console {a : Auth.Act} (ha : a.ofSigner = false)
    (h : (Auth.machine role).step s a = some (t, es)) : t.signers = s.signers := by
  cases Auth.acted h with
  | elapse ms => rfl
  | get id hidle => exact signers_consoleGet id s
  | ignored id data => rfl
  | nonceSet data hidle => rfl
  | send data hcon t es hsend => exact (Auth.send_eq hsend).2.1
  | attach i hi | detach i task hi | receive i cmd q hi hq => cases ha
  | woke a i task e r hends hi hr => cases a <;> cases ha <;> cases hends

/-- The task of device `i` takes a command, or its await ends. -/
def Auth.Act.Resumes (i : ℕ) : Auth.Act → Prop
  | .receive j | .reply j _ | .timer j => j = i
  | .elapse _ | .getReport _ | .setReport _ _ | .send | .attach _ | .detach _ => False

/-- A task that waits for a command is only resumed by one. -/
theorem signers_resumed {i : ℕ} {a : Auth.Act} (ha : a.Resumes i)
    (h : (Auth.machine role).step s a = some (t, es)) :
    ∃ task next, s.signers i = some task ∧
      t.signers = Function.update s.signers i (some next) ∧ (task = .receive → a = .receive i) := by
  cases Auth.acted h with
  | receive j cmd q hi hq =>
    cases ha
    exact ⟨_, _, hi, rfl, fun _ => rfl⟩
  | woke a j task e r hends hi hr =>
    have hj : j = i ∧ ∀ cmd, e ≠ .command cmd := by
      cases a <;> cases ha <;> cases hends <;> exact ⟨rfl, fun _ => Auth.Event.noConfusion⟩
    obtain ⟨rfl, hcommand⟩ := hj
    refine ⟨task, r.2.1, hi, (Auth.settle_system j s r).2.2, ?_⟩
    rintro rfl
    cases e with
    | command cmd => exact absurd rfl (hcommand cmd)
    | reply x | timer => simp [Auth.resume] at hr
  | elapse ms | get id hidle | ignored id data | nonceSet data hidle | send data hcon t es hsend
  | attach j hi | detach j task hi => cases ha

end Signers

section Shared

variable {s t : Relay} {es : List RelayEffect}

/-- A step that leaves the signers and the session as they are. -/
theorem Ep0Shared.same (h : Ep0Shared s)
    (hsigners : t.handler.auth.signers = s.handler.auth.signers)
    (hsession : t.session.isSome = s.session.isSome) (hrepeating : t.repeating = s.repeating) :
    Ep0Shared t where
  alone := by
    rw [hsigners]
    exact h.alone
  present := by
    rw [hsigners, hsession]
    exact h.present
  waits := by
    rw [hsigners, hrepeating]
    exact h.waits

theorem signers_handler {p : Profile} {s t : Handler} {es : List HandlerEffect} {b : HandlerAct}
    (hb : ∀ a, b = .signer a → a.ofSigner = false) (h : s.step p b = some (t, es)) :
    t.auth.signers = s.auth.signers := by
  cases b with
  | controlIn req =>
    obtain ⟨-, heq⟩ := Option.ite_none_right_eq_some.mp h
    unfold Handler.controlIn at heq
    dsimp only at heq
    split at heq
    · cases heq
      exact signers_consoleGet req.id s.auth
    · cases heq
      rfl
  | controlOut req data =>
    obtain ⟨-, h⟩ := Option.ite_none_right_eq_some.mp h
    unfold Handler.controlOut at h
    dsimp only at h
    cases hout : WheelBridge.controlOut p.role req data with
    | nonce =>
      rw [hout] at h
      obtain ⟨r, hr, heq⟩ := Option.map_eq_some_iff.mp h
      cases heq
      have hset : (Auth.machine p.role).step s.auth (.setReport idNonce data) = some r := hr
      exact signers_console rfl hset
    | none | queue msg | accepted | rejected =>
      rw [hout] at h
      cases h
      rfl
  | send | elapse ms =>
    obtain ⟨y, fs, hy, rfl, -⟩ := Handler.inAuth_eq_some.mp h
    exact signers_console rfl hy
  | setInput report =>
    cases h
    rfl
  | signer a =>
    obtain ⟨-, h⟩ := Option.ite_none_right_eq_some.mp h
    obtain ⟨y, fs, hy, rfl, -⟩ := Handler.inAuth_eq_some.mp h
    exact signers_console (hb a rfl) hy
  | clear | take =>
    obtain ⟨y, fs, hy, rfl, -⟩ := Handler.inPath_eq_some.mp h
    rfl

theorem Ep0Shared.handled (h : Ep0Shared s) {b : HandlerAct}
    (hb : ∀ a, b = .signer a → a.ofSigner = false) {u : Relay} (hu : s.inHandler b = some (u, es))
    (hhandler : t.handler = u.handler) (hsession : t.session = u.session) : Ep0Shared t := by
  obtain ⟨x, fs, hx, rfl, -⟩ := Relay.inHandler_eq_some.mp hu
  refine h.same ?_ (congrArg Option.isSome hsession) ?_
  · rw [hhandler]
    exact signers_handler hb hx
  · unfold Relay.repeating
    rw [hsession]

theorem inHandler_signer {a : Auth.Act} (h : s.inHandler (.signer a) = some (t, es)) :
    ∃ y gs, (Auth.machine .relay).step s.handler.auth a = some (y, gs) ∧
      { s with handler := { s.handler with auth := y } } = t := by
  obtain ⟨x, fs, hx, rfl, -⟩ := Relay.inHandler_eq_some.mp h
  simp only [Handler.step, Option.ite_none_right_eq_some] at hx
  obtain ⟨y, gs, hy, rfl, -⟩ := Handler.inAuth_eq_some.mp hx.2
  exact ⟨y, gs, hy, rfl⟩

/-- The signer goes on, or takes a command while no request is repeated. -/
theorem Ep0Shared.resumed (h : Ep0Shared s) {a : Auth.Act} (ha : a.Resumes backend)
    (hfree : a = .receive backend → s.repeating = none)
    (hstep : s.inHandler (.signer a) = some (t, es)) : Ep0Shared t := by
  obtain ⟨y, gs, hy, rfl⟩ := inHandler_signer hstep
  obtain ⟨task, next, htask, hsigners, hreceive⟩ := signers_resumed ha hy
  constructor
  · intro i hi
    change y.signers i = none
    rw [hsigners, Function.update_of_ne hi]
    exact h.alone i hi
  · change (y.signers backend).isSome = s.session.isSome
    rw [hsigners, Function.update_self, ← h.present, htask]
    rfl
  · intro hrepeating
    have hidle := h.waits hrepeating
    rw [htask, Option.some.injEq] at hidle
    exact absurd (hfree (hreceive hidle)) hrepeating

/-- The tasks of the session go on, and `repeat_control` stays where it is. -/
theorem Ep0Shared.goOn (h : Ep0Shared s) {f g : Forwarding}
    (hf : s.session = some (.forwarding f)) (hg : g.repeating = f.repeating) {u : Relay}
    (hu : u.handler = s.handler) : Ep0Shared (u.goOn g) := by
  refine h.same ?_ ?_ ?_
  · change u.handler.auth.signers = _
    rw [hu]
  · rw [hf]
    rfl
  · simp only [Relay.repeating, Relay.goOn, hf, hg]

theorem session_stopped (path : RelayPath) :
    (s.stopped path).session.isSome = s.session.isSome ∧
      (s.stopped path).repeating = s.repeating := by
  unfold Relay.stopped
  split
  · next f hf =>
    split
    · exact ⟨rfl, rfl⟩
    · rw [hf]
      refine ⟨rfl, ?_⟩
      simp only [Relay.repeating, Relay.goOn, hf]
  · exact ⟨rfl, rfl⟩
  · exact ⟨rfl, rfl⟩

theorem Ep0Shared.attach (h : Ep0Shared s) {u : Relay}
    (hu : s.inHandler (.signer (.attach backend)) = some (u, es)) :
    Ep0Shared { u with session := some .probing } := by
  obtain ⟨y, gs, hy, rfl⟩ := inHandler_signer hu
  cases Auth.acted hy with
  | attach i hi =>
    constructor
    · intro i hi
      exact (Function.update_of_ne hi (some (.probe 1)) s.handler.auth.signers).trans (h.alone i hi)
    · change (Function.update s.handler.auth.signers backend (some (.probe 1)) backend).isSome =
        true
      rw [Function.update_self]
      rfl
    · exact fun hrepeating => absurd rfl hrepeating
  | woke a i task e r hends hi hr => cases hends

theorem Ep0Shared.detach (h : Ep0Shared s) (hdetach : s.detach = some (t, es)) : Ep0Shared t := by
  obtain ⟨⟨u, fs⟩, hu, heq⟩ := Option.map_eq_some_iff.mp hdetach
  obtain ⟨y, gs, hy, rfl⟩ := inHandler_signer hu
  cases heq
  cases Auth.acted hy with
  | detach i task hi =>
    constructor
    · intro i hi
      exact (Function.update_of_ne hi none s.handler.auth.signers).trans (h.alone i hi)
    · change (Function.update s.handler.auth.signers backend none backend).isSome = false
      rw [Function.update_self]
      rfl
    · exact fun hrepeating => absurd rfl hrepeating
  | woke a i task e r hends hi hr => cases hends

theorem ep0_shared_step {writeTransfer : WriteTransfer} {a : RelayAct} (h : Ep0Shared s)
    (hstep : s.step writeTransfer a = some (t, es)) : Ep0Shared t := by
  have hquiet {b : HandlerAct} (hb : ∀ a, b ≠ .signer a) :
      ∀ a, b = .signer a → a.ofSigner = false := fun a ha => absurd ha (hb a)
  cases a with
  | elapse ms =>
    simp only [Relay.step] at hstep
    obtain ⟨⟨u, fs⟩, hu, heq⟩ := Option.map_eq_some_iff.mp hstep
    cases heq
    exact h.handled (hquiet fun _ => HandlerAct.noConfusion) hu rfl rfl
  | attach =>
    simp only [Relay.step] at hstep
    split at hstep
    · obtain ⟨⟨u, fs⟩, hu, heq⟩ := Option.map_eq_some_iff.mp hstep
      cases heq
      exact h.attach hu
    · cases hstep
  | detach =>
    simp only [Relay.step] at hstep
    split at hstep
    · cases hstep
    · exact h.detach hstep
    · exact h.detach (Option.ite_none_right_eq_some.mp hstep).2
  | start =>
    simp only [Relay.step] at hstep
    split at hstep
    · next hsession hsigner =>
      cases hstep
      refine h.same rfl ?_ ?_
      · rw [hsession]
        rfl
      · simp only [Relay.repeating, hsession]
    · cases hstep
  | build =>
    simp only [Relay.step] at hstep
    obtain ⟨-, heq⟩ := Option.ite_none_right_eq_some.mp hstep
    cases heq
    exact h.same rfl rfl rfl
  | controlIn req =>
    simp only [Relay.step] at hstep
    have hstep := (Option.ite_none_right_eq_some.mp hstep).2
    exact h.handled (hquiet fun _ => HandlerAct.noConfusion) hstep rfl rfl
  | controlOut req data =>
    simp only [Relay.step] at hstep
    obtain ⟨-, hstep⟩ := Option.ite_none_right_eq_some.mp hstep
    obtain ⟨⟨u, fs⟩, hu, heq⟩ := Option.map_eq_some_iff.mp hstep
    cases heq
    exact h.handled (hquiet fun _ => HandlerAct.noConfusion) hu rfl rfl
  | send =>
    simp only [Relay.step] at hstep
    exact h.handled (hquiet fun _ => HandlerAct.noConfusion) hstep rfl rfl
  | ep0Command =>
    simp only [Relay.step] at hstep
    obtain ⟨f, hf, hstep⟩ := Relay.forwarded_eq_some.mp hstep
    obtain ⟨hfree, hstep⟩ := Option.ite_none_right_eq_some.mp hstep
    refine h.resumed (a := .receive backend) rfl (fun _ => ?_) hstep
    simp only [Relay.repeating, hf, hfree]
  | ep0Reply r =>
    simp only [Relay.step] at hstep
    exact h.resumed (a := .reply backend r) rfl Auth.Act.noConfusion hstep
  | ep0Timer =>
    simp only [Relay.step] at hstep
    exact h.resumed (a := .timer backend) rfl Auth.Act.noConfusion hstep
  | ep0Control =>
    simp only [Relay.step] at hstep
    obtain ⟨f, hf, hstep⟩ := Relay.forwarded_eq_some.mp hstep
    unfold Relay.ep0Control at hstep
    split at hstep
    · next msg rest hsigner hfree hitems =>
      obtain ⟨⟨u, fs⟩, hu, heq⟩ := Option.map_eq_some_iff.mp hstep
      have hu' := h.handled (t := u) (hquiet fun _ => HandlerAct.noConfusion) hu rfl rfl
      obtain ⟨x, gs, hx, rfl, -⟩ := Relay.inHandler_eq_some.mp hu
      have hsame := signers_handler (hquiet fun _ => HandlerAct.noConfusion) hx
      cases heq
      refine ⟨hu'.alone, ?_, ?_⟩
      · have hpresent := hu'.present
        change (x.auth.signers backend).isSome = s.session.isSome at hpresent
        rw [hf] at hpresent
        exact hpresent
      · intro
        change x.auth.signers backend = _
        rw [hsame]
        exact hsigner
    · cases hstep
  | ep0Done ok =>
    simp only [Relay.step] at hstep
    obtain ⟨f, hf, hstep⟩ := Relay.forwarded_eq_some.mp hstep
    obtain ⟨hidpp, hrepeating, heq⟩ := Option.map_eq_some_iff.mp hstep
    cases heq
    refine ⟨h.alone, ?_, fun hne => absurd rfl hne⟩
    have hpresent := h.present
    rw [hf] at hpresent
    exact hpresent
  | packet path data =>
    simp only [Relay.step] at hstep
    obtain ⟨-, heq⟩ := Option.ite_none_right_eq_some.mp hstep
    obtain ⟨rfl, -⟩ := Prod.mk.inj (Option.some.inj heq)
    split <;> exact h.same rfl rfl rfl
  | pollError path e =>
    simp only [Relay.step] at hstep
    obtain ⟨f, hf, hstep⟩ := Relay.forwarded_eq_some.mp hstep
    obtain ⟨-, heq⟩ := Option.ite_none_right_eq_some.mp hstep
    cases heq
    exact h.goOn hf (by rfl) rfl
  | pollTimer path =>
    simp only [Relay.step] at hstep
    obtain ⟨f, hf, hstep⟩ := Relay.forwarded_eq_some.mp hstep
    split at hstep
    · split at hstep
      · cases hstep
      · cases hstep
        exact h.goOn hf (by rfl) rfl
    · cases hstep
    · cases hstep
  | take path =>
    simp only [Relay.step] at hstep
    obtain ⟨-, hstep⟩ := Option.ite_none_right_eq_some.mp hstep
    obtain ⟨x, -, heq⟩ := Option.map_eq_some_iff.mp hstep
    cases heq
    exact h.same rfl rfl rfl
  | sent path ok =>
    simp only [Relay.step] at hstep
    unfold Relay.sent at hstep
    split at hstep
    · cases hstep
    · cases ok with
      | true =>
        cases hstep
        exact h.same rfl rfl rfl
      | false =>
        cases hstep
        have hidle : Ep0Shared { s with sending := Function.update s.sending path none } :=
          h.same rfl rfl rfl
        obtain ⟨hsession, hrepeating⟩ :=
          session_stopped (s := { s with sending := Function.update s.sending path none }) path
        exact hidle.same (congrArg (·.auth.signers) (handler_stopped path _)) hsession hrepeating
  | statsTick =>
    simp only [Relay.step] at hstep
    obtain ⟨f, hf, hstep⟩ := Relay.forwarded_eq_some.mp hstep
    obtain ⟨-, heq⟩ := Option.ite_none_right_eq_some.mp hstep
    cases heq
    exact h.goOn hf (by rfl) rfl
  | statsTake =>
    simp only [Relay.step] at hstep
    obtain ⟨f, hf, hstep⟩ := Relay.forwarded_eq_some.mp hstep
    split at hstep
    · cases hstep
    · cases hstep
      exact h.goOn hf (by rfl) rfl

end Shared

/-- Every run of the relay is, for the console's requests, a run of the control handler of the
c269; DriveHub is its only signer, and one as long as it is there; and the two users of
DriveHub's EP0 take turns: while a class request is repeated, the signer is between two
commands. -/
theorem relay_shares_ep0 {writeTransfer : WriteTransfer} {as : List RelayAct} {s : Relay}
    {es : List RelayEffect} (h : (relay writeTransfer).run Relay.init as = some (s, es)) :
    (∃ bs, (handler relayC269).run Handler.init bs =
      some (s.handler, es.filterMap RelayEffect.toHandler)) ∧ Ep0Shared s := by
  refine ⟨(relay_refines_handler writeTransfer).run h, ?_⟩
  have hinit : Ep0Shared Relay.init := ⟨fun _ _ => rfl, rfl, fun hne => absurd rfl hne⟩
  exact (Machine.run_always Ep0Shared (fun _ => True)
    (fun s a t es hi hstep => ⟨ep0_shared_step hi hstep, fun _ _ => trivial⟩) hinit h).1

/-- A HID++ request of the console is repeated while its first nonce page waits. -/
def relayRequests : List RelayAct :=
  relayStart ++ [
    .controlOut ⟨.class_, .interface, hidSetReport, 0x0210, ifHidpp⟩ ping,
    .controlOut ⟨.class_, .interface, hidSetReport, 0x03f0, ifInput⟩ [0xf0, 0x01, 0x00], .send,
    .ep0Control]

theorem relay_requests_share_ep0 :
    ∃ s es, (relay (chunkedTransfer 64)).run Relay.init relayRequests = some (s, es) ∧
      s.repeating = some true ∧ Ep0Shared s := by
  have hruns : ((relay (chunkedTransfer 64)).run Relay.init relayRequests).map
      (fun r => r.1.repeating) = some (some true) := by
    decide +kernel
  obtain ⟨⟨s, es⟩, h, hrepeating⟩ := Option.map_eq_some_iff.mp hruns
  exact ⟨s, es, h, hrepeating, (relay_shares_ep0 h).2⟩

end WheelBridge
