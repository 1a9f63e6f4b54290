import WheelBridge.WheelRole

/-!
The views of the wheel role: each of its runs is a run of the bridge, of the control handler
and of the authentication relay, and the class requests that reach the wheel are requests the
handler has accepted, in their order.
-/
namespace WheelBridge

section Shared

variable {s t : Bridge} {a : BridgeAct} {es : List BridgeEffect}

/-- The queue of class requests grows with nothing else. -/
theorem controlOut_not_grown (ha : a.apart = true) (h : bridge.step s a = some (t, es)) :
    t.controlOut.items.length ≤ s.controlOut.items.length := by
  have hlen (b : Bridge) : (b.held .controlOut).length = b.controlOut.items.length :=
    List.length_map ..
  rw [← hlen t, ← hlen s]
  have hmoved := linesMoved h
  generalize hfs : s.lineEffects a = fs at hmoved
  cases hmoved with
  | still hes hheld hdropped | refused hes line item hfull hheld hdropped =>
    exact Nat.le_of_eq (congrArg List.length (congrFun hheld _))
  | cleared hes hheld hdropped =>
    rw [hheld]
    exact Nat.zero_le _
  | entered hes line item hheld hdropped =>
    have hline : line ≠ .controlOut := by
      rintro rfl
      have hbrings : Brings s a .controlOut item := brings (hfs ▸ List.mem_cons_self ..)
      cases hbrings
      cases ha
    rw [hheld, Function.update_of_ne (Ne.symm hline)]
  | left hes line item rest hline hheld hdropped =>
    rw [hheld]
    by_cases heq : line = .controlOut
    · subst heq
      rw [Function.update_self, hline]
      exact Nat.le_succ rest.length
    · rw [Function.update_of_ne (Ne.symm heq)]

/-- What another step of the bridge does to what the control handler shares with it. -/
inductive Shared (s t : Bridge) : List BridgeEffect → Prop
  | kept (es : List BridgeEffect) (hq : t.controlOut = s.controlOut)
      (hes : ∀ e ∈ es, e.toHandler = none) : Shared s t es
  | cleared (es : List BridgeEffect) (hq : t.controlOut = Channel.empty)
      (hi : t.input = s.input) (hes : ∀ e ∈ es, e.toHandler = none) :
      Shared s t (.cleared :: es)
  | repeated (msg : ControlOut) (hq : s.controlOut.receive = some (msg, t.controlOut))
      (hi : t.input = s.input) : Shared s t [.took .control, .repeated msg]

theorem shared (ha : a.apart = true) (h : bridge.step s a = some (t, es)) : Shared s t es := by
  have hgrown := controlOut_not_grown ha h
  cases moved h with
  | queuedControl msg q hb hq =>
    have hitems := congrArg List.length (Channel.trySend_eq_some.mp hq).2
    rw [List.length_append, List.length_singleton] at hitems
    change q.items.length ≤ s.controlOut.items.length at hgrown
    omega
  | linkOn q hq hf => exact .cleared [.pullup true] rfl rfl (by simp [BridgeEffect.toHandler])
  | repeats p msg q tick hs he hq => exact .repeated msg hq rfl
  | message p packet answers hs =>
    obtain ⟨q, n, heq⟩ := s.hidppMessage_eq packet
    rw [heq]
    exact .kept _ rfl (by simp [BridgeEffect.toHandler])
  | _ => exact .kept _ rfl (by simp [BridgeEffect.toHandler])

end Shared

/-- The path of a class request does not depend on what was dropped before. -/
theorem request_add (role : Role) (req : Request) (data : List UInt8)
    (q : Channel ControlOut queueLen) (n k : ℕ) :
    (ControlPath.request role req data ⟨q, n + k⟩).1 =
      ⟨(ControlPath.request role req data ⟨q, n⟩).1.queue,
        (ControlPath.request role req data ⟨q, n⟩).1.dropped + k⟩ := by
  unfold ControlPath.request
  cases controlOut role req data with
  | queue msg =>
    dsimp only
    cases q.trySend msg with
    | some q' => rfl
    | none => exact congrArg (ControlPath.mk q) (Nat.add_right_comm n k 1)
  | none | nonce | accepted | rejected => rfl

/-- The bridge takes a class request as the path does, whatever that has dropped. -/
theorem bridge_request {s t : Bridge} {req : Request} {data : List UInt8}
    {es : List BridgeEffect} (h : bridge.step s (.controlRequest req data) = some (t, es))
    (n : ℕ) : (ControlPath.request .wheel req data ⟨s.controlOut, n⟩).1.queue = t.controlOut ∧
      (ControlPath.request .wheel req data ⟨s.controlOut, n⟩).1.dropped + s.dropped =
        n + t.dropped ∧ t.input = s.input ∧ ∀ e ∈ es, e = .queued .control := by
  have hbridge := bridge_control_request h
  have hpath := request_add .wheel req data s.controlOut 0 s.dropped
  have hn := request_add .wheel req data s.controlOut 0 n
  rw [Nat.zero_add] at hpath hn
  rw [Bridge.controlPath, hpath] at hbridge
  obtain ⟨hqueue, hdropped⟩ := ControlPath.mk.inj hbridge
  rw [hn]
  refine ⟨hqueue, by dsimp only; omega, ?_⟩
  obtain ⟨-, h⟩ := Option.ite_none_right_eq_some.mp h
  cases hout : controlOut .wheel req data with
  | queue msg =>
    simp only [hout, Option.some.injEq, Bridge.queueControl] at h
    split at h <;> cases h <;> exact ⟨rfl, by simp⟩
  | none | nonce | accepted | rejected =>
    simp only [hout] at h
    cases h
    exact ⟨rfl, by simp⟩

section Handler

variable {s t : Handler} {a : HandlerAct} {es : List HandlerEffect}

/-- Requests and steps that only the authentication relay is asked for. -/
def HandlerAct.onlyAuth : HandlerAct → Bool
  | .controlIn _ | .send | .elapse _ | .signer _ => true
  | .controlOut _ _ | .setInput _ | .clear | .take => false

theorem handler_onlyAuth (ha : a.onlyAuth = true) (h : s.step ps5 a = some (t, es)) :
    t.path = s.path ∧ t.input = s.input ∧ ∀ c, .path c ∉ es := by
  cases a with
  | controlIn req =>
    simp only [Handler.step, Option.ite_none_right_eq_some, Option.some.injEq] at h
    obtain ⟨-, h⟩ := h
    unfold Handler.controlIn at h
    dsimp only at h
    split at h <;> cases h <;> exact ⟨rfl, rfl, by simp⟩
  | send | elapse ms =>
    obtain ⟨b, fs, -, rfl, rfl⟩ := Handler.inAuth_eq_some.mp h
    exact ⟨rfl, rfl, by simp⟩
  | signer a =>
    obtain ⟨b, fs, -, rfl, rfl⟩ :=
      Handler.inAuth_eq_some.mp (Option.ite_none_right_eq_some.mp h).2
    exact ⟨rfl, rfl, by simp⟩
  | controlOut req data | setInput report | clear | take => cases ha

theorem handler_controlOut {req : Request} {data : List UInt8}
    (h : s.step ps5 (.controlOut req data) = some (t, es)) :
    t.path = (s.path.request .wheel req data).1 ∧ t.input = s.input ∧
      ∃ as : List Auth.Effect,
        es = as.map .auth ++ (s.path.request .wheel req data).2.map .path := by
  simp only [Handler.step, Option.ite_none_right_eq_some] at h
  obtain ⟨-, h⟩ := h
  unfold Handler.controlOut at h
  dsimp only at h
  cases hout : controlOut ps5.role req data with
  | nonce =>
    rw [hout] at h
    obtain ⟨r, -, heq⟩ := Option.map_eq_some_iff.mp h
    cases heq
    exact ⟨rfl, rfl, r.2, rfl⟩
  | none | queue msg | accepted | rejected =>
    rw [hout] at h
    cases h
    exact ⟨rfl, rfl, [], rfl⟩

/-- A GET_REPORT of the input report is answered with it. -/
theorem handler_readsInput {req : Request} (hreads : req.readsInput = true)
    (h : s.step ps5 (.controlIn req) = some (t, es)) :
    es = [.answered req (some (.accepted s.input.toList))] := by
  simp only [Request.readsInput, decide_eq_true_eq] at hreads
  obtain ⟨hget, hkind, hid, hindex⟩ := hreads
  have hfeature : req.kind ≠ reportTypeFeature := by
    rw [hkind]
    decide
  have hasks : ps5.asksAuth req = false := by
    simp [Profile.asksAuth, hfeature]
  have hreport : ps5.getReport s.input req = .accepted s.input.toList := by
    have hnone : ps5.feature req = none := if_neg fun hf => hfeature hf.1
    unfold Profile.getReport
    rw [hnone]
    exact if_pos ⟨hkind, hid, hindex, rfl⟩
  simp only [Handler.step, Option.ite_none_right_eq_some, Option.some.injEq] at h
  obtain ⟨-, h⟩ := h
  simp only [Handler.controlIn, hasks, Bool.false_eq_true, if_false, Prod.mk.injEq] at h
  rw [← h.2, controlIn_getReport ps5 s.input _ hget]
  simp only [hasks, Bool.false_eq_true, if_false, hreport]

/-- Only a control request to read is answered there. -/
theorem handler_answered {req : Request} {resp : Option InResponse}
    (h : s.step ps5 a = some (t, es)) (hanswered : .answered req resp ∈ es) :
    a = .controlIn req := by
  have hauth : ∀ as : List Auth.Effect, .answered req resp ∉ as.map HandlerEffect.auth := by
    intro as hmem
    obtain ⟨x, -, heq⟩ := List.mem_map.mp hmem
    cases heq
  have hpath : ∀ cs : List ControlEffect, .answered req resp ∉ cs.map HandlerEffect.path := by
    intro cs hmem
    obtain ⟨x, -, heq⟩ := List.mem_map.mp hmem
    cases heq
  cases a with
  | controlIn req' =>
    simp only [Handler.step, Option.ite_none_right_eq_some, Option.some.injEq] at h
    obtain ⟨-, h⟩ := h
    unfold Handler.controlIn at h
    dsimp only at h
    split at h <;> cases h
    · rcases List.mem_append.mp hanswered with hmem | hmem
      · exact absurd hmem (hauth _)
      · cases List.mem_singleton.mp hmem
        rfl
    · cases List.mem_singleton.mp hanswered
      rfl
  | controlOut req' data =>
    obtain ⟨-, -, as, rfl⟩ := handler_controlOut h
    rcases List.mem_append.mp hanswered with hmem | hmem
    · exact absurd hmem (hauth as)
    · exact absurd hmem (hpath _)
  | send | elapse ms =>
    obtain ⟨b, fs, -, -, rfl⟩ := Handler.inAuth_eq_some.mp h
    exact absurd hanswered (hauth fs)
  | signer a =>
    obtain ⟨b, fs, -, -, rfl⟩ := Handler.inAuth_eq_some.mp (Option.ite_none_right_eq_some.mp h).2
    exact absurd hanswered (hauth fs)
  | setInput report =>
    cases h
    cases hanswered
  | clear | take =>
    obtain ⟨b, fs, -, -, rfl⟩ := Handler.inPath_eq_some.mp h
    exact absurd hanswered (hpath fs)

end Handler

/-- A step of the wheel role as one of the handler, of the bridge or of both. -/
inductive RoleStepped (s t : WheelRole) : List WheelEffect → Prop
  | handled (a : HandlerAct) (bs : List BridgeAct) (fs : List HandlerEffect)
      (gs : List BridgeEffect) (ha : a.onlyAuth = true)
      (hh : (handler ps5).step s.handler a = some (t.handler, fs))
      (hb : bridge.run s.bridge bs = some (t.bridge, gs)) (hd : t.bridge.dropped = s.bridge.dropped)
      (hgs : gs = [] ∨ gs = [.inputGiven s.bridge.input])
      (hreads : ∀ req, a = .controlIn req → req.readsInput = true → gs ≠ []) :
      RoleStepped s t (fs.map .handler ++ gs.map .bridge)
  | requested (req : Request) (data : List UInt8) (fs : List HandlerEffect)
      (gs : List BridgeEffect)
      (hb : bridge.step s.bridge (.controlRequest req data) = some (t.bridge, gs))
      (hh : (handler ps5).step s.handler (.controlOut req data) = some (t.handler, fs)) :
      RoleStepped s t (gs.map .bridge ++ fs.map .handler)
  | apart (a : BridgeAct) (gs : List BridgeEffect) (ha : a.apart = true)
      (hb : bridge.step s.bridge a = some (t.bridge, gs)) (ht : t = { s with bridge := t.bridge }) :
      RoleStepped s t (gs.map .bridge)

section Role

variable {s t : WheelRole} {es : List WheelEffect}

theorem inBridge_role {a : BridgeAct} (h : s.inBridge a = some (t, es)) :
    ∃ gs, bridge.step s.bridge a = some (t.bridge, gs) ∧ t = { s with bridge := t.bridge } ∧
      gs.map .bridge = es := by
  obtain ⟨r, hr, heq⟩ := Option.map_eq_some_iff.mp h
  cases heq
  exact ⟨r.2, hr, rfl, rfl⟩

theorem inAuth_role {a : HandlerAct} (ha : a.onlyAuth = true) (h : s.inAuth a = some (t, es)) :
    ∃ fs, (handler ps5).step s.handler a = some (t.handler, fs) ∧ t.bridge = s.bridge ∧
      fs.map .handler = es := by
  obtain ⟨⟨u, fs⟩, hu, heq⟩ := Option.map_eq_some_iff.mp h
  cases heq
  refine ⟨fs, ?_, rfl, rfl⟩
  obtain ⟨hpath, hinput, -⟩ := handler_onlyAuth ha hu
  change s.handler.step ps5 a = _
  rw [hu]
  obtain ⟨auth, path, input⟩ := u
  cases hpath
  cases hinput
  rfl

/-- The bridge and the handler agree on what becomes of a class request. -/
theorem requested_role {req : Request} {data : List UInt8}
    (h : s.controlOut req data = some (t, es)) : RoleStepped s t es := by
  unfold WheelRole.controlOut at h
  split at h
  · next b u hb hu =>
    cases h
    refine .requested req data u.2 b.2 hb ?_
    obtain ⟨hpath, hinput, -⟩ := handler_controlOut hu
    obtain ⟨hqueue, -, hkept, -⟩ := bridge_request hb s.refused
    refine hu.trans ?_
    obtain ⟨⟨auth, path, input⟩, fs⟩ := u
    cases hpath
    cases hinput
    simp only [WheelRole.handler, hkept, ← hqueue]
  · cases h

/-- A step of the handler alone. -/
theorem alone_role {a : HandlerAct} (ha : a.onlyAuth = true) (hreads : ∀ req, a ≠ .controlIn req)
    (h : s.inAuth a = some (t, es)) : RoleStepped s t es := by
  obtain ⟨fs, hh, hbridge, rfl⟩ := inAuth_role ha h
  have hb : bridge.run s.bridge [] = some (t.bridge, []) := by
    rw [hbridge]
    rfl
  have hstep := RoleStepped.handled a [] fs [] ha hh hb (congrArg _ hbridge) (Or.inl rfl)
    fun req hreq => absurd hreq (hreads req)
  rwa [List.map_nil, List.append_nil] at hstep

theorem roleStepped {a : WheelAct} (h : wheelRole.step s a = some (t, es)) :
    RoleStepped s t es := by
  change s.step a = some (t, es) at h
  cases a with
  | elapse ms =>
    rw [WheelRole.step] at h
    obtain ⟨⟨u, gs⟩, hu, h⟩ := Option.bind_eq_some_iff.mp h
    obtain ⟨⟨v, es'⟩, hv, heq⟩ := Option.map_eq_some_iff.mp h
    cases heq
    obtain ⟨fs, hh, hbridge, rfl⟩ := inAuth_role rfl hv
    cases hu
    have hb : bridge.run s.bridge [.elapse ms] = some (v.bridge, []) := by
      rw [hbridge]
      rfl
    have hstep := RoleStepped.handled (s := s) (.elapse ms) [.elapse ms] fs [] rfl hh hb
      (by rw [hbridge]) (Or.inl rfl) (fun req hreq => HandlerAct.noConfusion hreq)
    rwa [List.map_nil, List.append_nil] at hstep
  | controlIn req =>
    obtain ⟨hbuilt, h⟩ := Option.ite_none_right_eq_some.mp h
    obtain ⟨⟨u, es'⟩, hu, heq⟩ := Option.map_eq_some_iff.mp h
    cases heq
    obtain ⟨fs, hh, hbridge, rfl⟩ := inAuth_role rfl hu
    split
    · have hb : bridge.run s.bridge [.giveInput] =
          some (u.bridge, [.inputGiven s.bridge.input]) := by
        rw [hbridge]
        exact Machine.run_single (if_pos hbuilt)
      exact .handled (.controlIn req) [.giveInput] fs [.inputGiven s.bridge.input] rfl hh hb
        (congrArg _ hbridge) (Or.inr rfl) fun _ _ _ => List.cons_ne_nil _ _
    · next hreads =>
      have hb : bridge.run s.bridge [] = some (u.bridge, []) := by
        rw [hbridge]
        rfl
      refine .handled (.controlIn req) [] fs [] rfl hh hb (congrArg _ hbridge) (Or.inl rfl) ?_
      intro req' heq hreads'
      cases heq
      exact absurd hreads' hreads
  | controlOut req data => exact requested_role h
  | send => exact alone_role rfl (fun _ => HandlerAct.noConfusion) h
  | signer a => exact alone_role rfl (fun _ => HandlerAct.noConfusion) h
  | bridge a =>
    obtain ⟨ha, h⟩ := Option.ite_none_right_eq_some.mp h
    obtain ⟨gs, hb, ht, rfl⟩ := inBridge_role h
    exact .apart a gs ha hb ht

end Role

theorem role_refines_bridge : wheelRole.Refines bridge WheelRole.bridge WheelEffect.toBridge where
  step s a t es h := by
    cases roleStepped h with
    | handled a bs fs gs ha hh hb hd hgs hreads =>
      rw [List.filterMap_append, toBridge_handler, toBridge_bridge]
      exact ⟨bs, hb⟩
    | requested req data fs gs hb hh =>
      rw [List.filterMap_append, toBridge_handler, toBridge_bridge, List.append_nil]
      exact ⟨[.controlRequest req data], Machine.run_single hb⟩
    | apart a gs ha hb ht =>
      rw [toBridge_bridge]
      exact ⟨[a], Machine.run_single hb⟩

theorem role_refines_handler :
    wheelRole.Refines (handler ps5) WheelRole.handler WheelEffect.toHandler where
  step s a t es h := by
    cases roleStepped h with
    | handled a bs fs gs ha hh hb hd hgs hreads =>
      have hnone : gs.filterMap BridgeEffect.toHandler = [] := by
        rcases hgs with rfl | rfl <;> rfl
      rw [List.filterMap_append, wheelToHandler_handler, wheelToHandler_bridge, hnone,
        List.append_nil]
      exact ⟨[a], Machine.run_single hh⟩
    | requested req data fs gs hb hh =>
      obtain ⟨-, -, -, hqueued⟩ := bridge_request hb 0
      have hnone : gs.filterMap BridgeEffect.toHandler = [] := by
        rw [List.filterMap_eq_nil_iff]
        intro e he
        rw [hqueued e he]
        rfl
      rw [List.filterMap_append, wheelToHandler_handler, wheelToHandler_bridge, hnone]
      exact ⟨[.controlOut req data], Machine.run_single hh⟩
    | apart a gs ha hb ht =>
      rw [wheelToHandler_bridge, ht]
      cases shared ha hb with
      | kept gs hq hes =>
        rw [List.filterMap_eq_nil_iff.mpr hes]
        refine ⟨[.setInput t.bridge.input], Machine.run_single ?_⟩
        simp only [WheelRole.handler, hq]
        rfl
      | cleared es hq hi hes =>
        rw [List.filterMap_cons, List.filterMap_eq_nil_iff.mpr hes]
        refine ⟨[.clear], Machine.run_single ?_⟩
        simp only [WheelRole.handler, hq, hi]
        rfl
      | repeated msg hq hi =>
        refine ⟨[.take], Machine.run_single ?_⟩
        have htake : (controlPath .wheel).step s.handler.path .take =
            some (⟨t.bridge.controlOut, s.refused⟩, [.issued (repeatControl msg)]) :=
          Option.map_eq_some_iff.mpr ⟨_, hq, rfl⟩
        refine Handler.inPath_eq_some.mpr ⟨_, _, htake, ?_, rfl⟩
        simp only [WheelRole.handler, hi]

section Requests

theorem repeated_unseen {gs : List BridgeEffect} (h : ∀ e ∈ gs, e.toHandler = none) :
    (gs.map WheelEffect.bridge).filterMap WheelEffect.repeated = [] := by
  rw [List.filterMap_map, List.filterMap_eq_nil_iff]
  intro e he
  have hnone := h e he
  cases e <;> first | rfl | cases hnone

theorem repeated_handler (fs : List HandlerEffect) :
    (fs.map WheelEffect.handler).filterMap WheelEffect.repeated = [] :=
  filterMap_unseen WheelEffect.handler WheelEffect.repeated (fun _ => rfl) fs

theorem handed_bridge (gs : List BridgeEffect) :
    (gs.map WheelEffect.bridge).filterMap WheelEffect.handed = [] :=
  filterMap_unseen WheelEffect.bridge WheelEffect.handed (fun _ => rfl) gs

theorem handed_auth (as : List Auth.Effect) :
    ((as.map HandlerEffect.auth).map WheelEffect.handler).filterMap WheelEffect.handed = [] := by
  rw [List.map_map]
  exact filterMap_unseen _ _ (fun _ => rfl) as

/-- A class request is queued behind the others, or not at all. -/
theorem handed_request (s : ControlPath) (req : Request) (data : List UInt8) :
    (s.request .wheel req data).1.queue.items = s.queue.items ++
      (((s.request .wheel req data).2.map HandlerEffect.path).map WheelEffect.handler).filterMap
        WheelEffect.handed := by
  unfold ControlPath.request
  cases controlOut .wheel req data with
  | queue msg =>
    dsimp only
    cases hq : s.queue.trySend msg with
    | some q => exact (Channel.trySend_eq_some.mp hq).2
    | none => exact (List.append_nil _).symm
  | none | nonce | accepted | rejected => exact (List.append_nil _).symm

/-- Only HID++ requests are queued, each as it was. -/
theorem request_queued {s : ControlPath} {req req' : Request} {data data' : List UInt8}
    {resp : Option OutResponse} {msg : ControlOut}
    (h : .answered req' data' resp (.queued msg) ∈ (s.request .wheel req data).2) :
    req'.isHidpp = true ∧ resp = some .accepted ∧ msg = req'.toControlOut data' := by
  unfold ControlPath.request at h
  cases hout : controlOut .wheel req data with
  | queue msg' =>
    obtain ⟨hback, hmsg⟩ := (controlOut_eq_queue_iff .wheel req data msg').mp hout
    simp only [hout] at h
    split at h
    · cases List.mem_singleton.mp h
      exact ⟨decide_eq_true (hback.2.2.1 rfl), rfl, hmsg.symm⟩
    · cases List.mem_singleton.mp h
  | none | nonce | accepted | rejected =>
    simp only [hout] at h
    cases List.mem_singleton.mp h

end Requests

/-- What a step moves on the way to the wheel keeps its order. -/
theorem repeated_in_order {s t : WheelRole} {es : List WheelEffect} (h : RoleStepped s t es) :
    (es.filterMap WheelEffect.repeated ++ t.bridge.controlOut.items).Sublist
      (s.bridge.controlOut.items ++ es.filterMap WheelEffect.handed) := by
  cases h with
  | handled a bs fs gs ha hh hb hd hgs hreads =>
    have hsame : t.bridge.controlOut = s.bridge.controlOut :=
      congrArg ControlPath.queue (handler_onlyAuth ha hh).1
    have hnone : (gs.map WheelEffect.bridge).filterMap WheelEffect.repeated = [] := by
      rcases hgs with rfl | rfl <;> rfl
    rw [List.filterMap_append, repeated_handler, hnone, hsame]
    exact List.sublist_append_left ..
  | requested req data fs gs hb hh =>
    obtain ⟨hpath, -, as, rfl⟩ := handler_controlOut hh
    obtain ⟨-, -, -, hqueued⟩ := bridge_request hb 0
    have hunseen : ∀ e ∈ gs, e.toHandler = none := by
      intro e he
      rw [hqueued e he]
      rfl
    have hitems : t.bridge.controlOut.items = _ :=
      (congrArg (fun p : ControlPath => p.queue.items) hpath).trans (handed_request ..)
    rw [List.filterMap_append, List.filterMap_append, repeated_unseen hunseen, repeated_handler,
      handed_bridge, List.map_append, List.filterMap_append, handed_auth, hitems]
    exact List.Sublist.refl _
  | apart a gs ha hb ht =>
    rw [handed_bridge, List.append_nil]
    cases shared ha hb with
    | kept gs hq hes =>
      rw [repeated_unseen hes, hq]
      exact List.Sublist.refl _
    | cleared es hq hi hes =>
      rw [List.map_cons, List.filterMap_cons, repeated_unseen hes, hq]
      exact List.nil_sublist _
    | repeated msg hq hi =>
      rw [Channel.receive_eq_some.mp hq]
      exact List.Sublist.refl _

theorem repeated_run {as : List WheelAct} {s t : WheelRole} {es : List WheelEffect}
    (h : wheelRole.run s as = some (t, es)) :
    (es.filterMap WheelEffect.repeated ++ t.bridge.controlOut.items).Sublist
      (s.bridge.controlOut.items ++ es.filterMap WheelEffect.handed) := by
  induction as generalizing s es with
  | nil =>
    cases h
    rw [List.filterMap_nil, List.filterMap_nil, List.append_nil]
    exact List.Sublist.refl _
  | cons a as ih =>
    obtain ⟨u, fs, gs, hone, hrun, rfl⟩ := Machine.run_cons_eq_some.mp h
    have hfirst := (repeated_in_order (roleStepped hone)).append
      (List.Sublist.refl (gs.filterMap WheelEffect.handed))
    have hlater := (List.Sublist.refl (fs.filterMap WheelEffect.repeated)).append (ih hrun)
    rw [List.append_assoc, List.append_assoc] at hfirst
    rw [List.filterMap_append, List.filterMap_append, List.append_assoc]
    exact hlater.trans hfirst

/-- Only HID++ requests are queued for the wheel, and the input report is read off the bridge. -/
structure Routed (es : List WheelEffect) : Prop where
  queued : ∀ req data resp msg, .handler (.path (.answered req data resp (.queued msg))) ∈ es →
    req.isHidpp = true ∧ resp = some .accepted ∧ msg = req.toControlOut data
  read : ∀ req resp, .handler (.answered req resp) ∈ es → req.readsInput = true →
    ∃ report, resp = some (.accepted report.toList) ∧ .bridge (.inputGiven report) ∈ es

theorem Routed.append {es fs : List WheelEffect} (h : Routed es) (h' : Routed fs) :
    Routed (es ++ fs) where
  queued req data resp msg hmem :=
    (List.mem_append.mp hmem).elim (h.queued req data resp msg) (h'.queued req data resp msg)
  read req resp hmem hreads := by
    rcases List.mem_append.mp hmem with hmem | hmem
    · obtain ⟨report, hresp, hgiven⟩ := h.read req resp hmem hreads
      exact ⟨report, hresp, List.mem_append_left _ hgiven⟩
    · obtain ⟨report, hresp, hgiven⟩ := h'.read req resp hmem hreads
      exact ⟨report, hresp, List.mem_append_right _ hgiven⟩

theorem handler_mem {fs : List HandlerEffect} {gs : List BridgeEffect} {e : HandlerEffect} :
    WheelEffect.handler e ∈ fs.map .handler ++ gs.map .bridge ↔ e ∈ fs := by
  simp

theorem routed_step {s t : WheelRole} {es : List WheelEffect} (h : RoleStepped s t es) :
    Routed es := by
  cases h with
  | handled a bs fs gs ha hh hb hd hgs hreads =>
    constructor
    · intro req data resp msg hmem
      exact absurd (handler_mem.mp hmem) ((handler_onlyAuth ha hh).2.2 _)
    · intro req resp hmem hreads'
      have hmem := handler_mem.mp hmem
      have ha' := handler_answered hh hmem
      have hgiven := hgs.resolve_left (hreads req ha' hreads')
      rw [ha'] at hh
      rw [handler_readsInput hreads' hh] at hmem
      cases List.mem_singleton.mp hmem
      refine ⟨s.bridge.input, rfl, ?_⟩
      rw [hgiven]
      simp
  | requested req data fs gs hb hh =>
    obtain ⟨-, -, as, rfl⟩ := handler_controlOut hh
    constructor
    · intro req' data' resp msg hmem
      have hqueued : .answered req' data' resp (.queued msg) ∈
          (s.handler.path.request .wheel req data).2 := by
        simpa using hmem
      exact request_queued hqueued
    · intro req' resp hmem
      simp at hmem
  | apart a gs ha hb ht =>
    constructor
    · intro req data resp msg hmem
      simp at hmem
    · intro req resp hmem
      simp at hmem

theorem dropped_le {s t : Bridge} {es : List BridgeEffect} {fs : List LineEffect}
    (h : LinesMoved s t es fs) : s.dropped ≤ t.dropped := by
  cases h <;> omega

/-- The class requests that were dropped are among those counted. -/
theorem refused_step {s t : WheelRole} {es : List WheelEffect}
    (h : s.refused ≤ s.bridge.dropped) (hstep : RoleStepped s t es) :
    t.refused ≤ t.bridge.dropped := by
  cases hstep with
  | handled a bs fs gs ha hh hb hd hgs hreads =>
    have hsame : t.refused = s.refused :=
      congrArg ControlPath.dropped (handler_onlyAuth ha hh).1
    rw [hsame, hd]
    exact h
  | requested req data fs gs hb hh =>
    have hpath : t.refused = _ := congrArg ControlPath.dropped (handler_controlOut hh).1
    have hcounted := (bridge_request hb s.refused).2.1
    change (s.handler.path.request .wheel req data).1.dropped + _ = _ at hcounted
    omega
  | apart a gs ha hb ht =>
    have hcounted := dropped_le (linesMoved hb)
    rw [ht]
    exact Nat.le_trans h hcounted

/-- Every run of the wheel role is one of the bridge, one of the control handler and one of the
authentication relay, each with what it was to them. What is repeated to the wheel are
class requests that the handler accepted, in their order and none twice, and all of them
HID++; the console's GET_REPORT of the input is answered with the report the bridge gives. -/
theorem wheel_role_composed {as : List WheelAct} {s : WheelRole} {es : List WheelEffect}
    (h : wheelRole.run WheelRole.init as = some (s, es)) :
    (∃ bs, bridge.run Bridge.init bs = some (s.bridge, es.filterMap WheelEffect.toBridge)) ∧
    (∃ bs, (handler ps5).run Handler.init bs =
      some (s.handler, es.filterMap WheelEffect.toHandler)) ∧
    (∃ bs, (Auth.machine .wheel).run Auth.System.init bs =
      some (s.auth, (es.filterMap WheelEffect.toHandler).filterMap HandlerEffect.toAuth)) ∧
    (es.filterMap WheelEffect.repeated ++ s.bridge.controlOut.items).Sublist
      (es.filterMap WheelEffect.handed) ∧
    s.refused ≤ s.bridge.dropped ∧ Routed es := by
  obtain ⟨bs, hbs⟩ := role_refines_handler.run h
  have hrefused := (Machine.run_always (fun s => s.refused ≤ s.bridge.dropped) (fun _ => True)
    (fun s a t es hi hstep => ⟨refused_step hi (roleStepped hstep), fun _ _ => trivial⟩)
    (Nat.le_refl 0) h).1
  have hrouted : Routed es := Machine.run_effects Routed ⟨by simp, by simp⟩
    (fun es fs hes hfs => hes.append hfs) (fun s a t es hstep => routed_step (roleStepped hstep)) h
  exact ⟨role_refines_bridge.run h, ⟨bs, hbs⟩, (handler_refines_auth ps5).run hbs,
    repeated_run h, hrefused, hrouted⟩

/-- The steps of the bridge, as steps of the wheel role. -/
def BridgeAct.inRole : BridgeAct → WheelAct
  | .elapse ms => .elapse ms
  | .controlRequest req data => .controlOut req data
  | a => .bridge a

/-- The wheel wakes up; the console reads its input, sets a first nonce page, and has a HID++
request repeated while DriveHub is enumerated. -/
def consoleTraffic : List WheelAct :=
  (wakeUp 0x03).map BridgeAct.inRole ++ [.bridge .follow,
    .controlIn ⟨.class_, .interface, hidGetReport, 0x0101, ifInput⟩,
    .controlOut ⟨.class_, .interface, hidSetReport, 0x03f0, ifInput⟩ [0xf0, 0x01, 0x00],
    .signer (.attach 1), .send,
    .controlOut ⟨.class_, .interface, hidSetReport, 0x0210, ifHidpp⟩ ping, .bridge .ep0Control]

theorem console_traffic_composed :
    ∃ s es, wheelRole.run WheelRole.init consoleTraffic = some (s, es) ∧
      es.filterMap WheelEffect.repeated ≠ [] ∧ Routed es := by
  have hruns : ((wheelRole.run WheelRole.init consoleTraffic).any fun r =>
      decide (r.2.filterMap WheelEffect.repeated ≠ [])) = true := by
    decide +kernel
  obtain ⟨⟨s, es⟩, h, hrepeated⟩ := (Option.any_eq_true ..).mp hruns
  exact ⟨s, es, h, of_decide_eq_true hrepeated, (wheel_role_composed h).2.2.2.2.2⟩

end WheelBridge
