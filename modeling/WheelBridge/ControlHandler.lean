import WheelBridge.CachedPages
import WheelBridge.ControlPath
import WheelBridge.Refinement
import WheelBridge.ReportAnswers

/-!
The device's control handler at work: the console's control requests, to read and to
write, on one core, against the cache of the authentication relay and the queue to the
backend. It refines both the authentication relay and the path of the class requests.
-/
namespace WheelBridge

structure Handler where
  auth : Auth.System
  path : ControlPath
  /-- `INPUT`. -/
  input : Bytes c269Len

def Handler.init : Handler where
  auth := Auth.System.init
  path := ControlPath.init
  input := InputMap.neutral

inductive HandlerAct
  /-- The console's requests; `set_report` sends its command as a step of its own. -/
  | controlIn (req : Request)
  | controlOut (req : Request) (data : List UInt8)
  | send
  /-- `set_input` on the other core. -/
  | setInput (report : Bytes c269Len)
  | elapse (ms : ℕ)
  /-- A signer on the other core. -/
  | signer (a : Auth.Act)
  /-- `follow_wheel` clears the queue to the backend, or the host side takes a message. -/
  | clear
  | take
deriving DecidableEq

inductive HandlerEffect
  | answered (req : Request) (resp : Option InResponse)
  | auth (e : Auth.Effect)
  | path (e : ControlEffect)
deriving DecidableEq

def Auth.Act.ofSigner : Auth.Act → Bool
  | .attach _ | .detach _ | .receive _ | .reply _ _ | .timer _ => true
  | .elapse _ | .getReport _ | .setReport _ _ | .send => false

namespace Handler

/-- `Control::control_in`: the cache is asked, and may change, before the tables are. -/
def controlIn (p : Profile) (req : Request) (s : Handler) : Handler × List HandlerEffect :=
  let report := (Auth.getReport req.id s.auth.statics.state).2.2
  let resp := WheelBridge.controlIn p s.input report req
  if p.asksAuth req then
    let r := Auth.consoleGet req.id s.auth
    ({ s with auth := r.1 }, r.2.map .auth ++ [.answered req resp])
  else (s, [.answered req resp])

/-- `Control::control_out`. -/
def controlOut (p : Profile) (req : Request) (data : List UInt8) (s : Handler) :
    Option (Handler × List HandlerEffect) :=
  let r := s.path.request p.role req data
  match WheelBridge.controlOut p.role req data with
  | .nonce =>
    (Auth.step p.role s.auth (.setReport idNonce data)).map fun a =>
      ({ s with auth := a.1, path := r.1 }, a.2.map .auth ++ r.2.map .path)
  | .none | .queue _ | .accepted | .rejected => some ({ s with path := r.1 }, r.2.map .path)

def inAuth (p : Profile) (a : Auth.Act) (s : Handler) : Option (Handler × List HandlerEffect) :=
  (Auth.step p.role s.auth a).map fun r => ({ s with auth := r.1 }, r.2.map .auth)

def inPath (p : Profile) (a : ControlAct) (s : Handler) : Option (Handler × List HandlerEffect) :=
  (s.path.step p.role a).map fun r => ({ s with path := r.1 }, r.2.map .path)

/-- The handler runs to its end before the next request; `serve_device` has no signers in the
mirror role. -/
def step (p : Profile) (s : Handler) : HandlerAct → Option (Handler × List HandlerEffect)
  | .controlIn req => if s.auth.console = .idle then some (s.controlIn p req) else none
  | .controlOut req data => if s.auth.console = .idle then s.controlOut p req data else none
  | .send => s.inAuth p .send
  | .setInput report => some ({ s with input := report }, [])
  | .elapse ms => s.inAuth p (.elapse ms)
  | .signer a => if a.ofSigner ∧ p.role ≠ .mirror then s.inAuth p a else none
  | .clear => s.inPath p .clear
  | .take => s.inPath p .take

end Handler

def handler (p : Profile) : Machine Handler HandlerAct HandlerEffect := ⟨Handler.step p⟩

def HandlerEffect.toAuth : HandlerEffect → Option Auth.Effect
  | .auth e => some e
  | .answered _ _ | .path _ => none

def HandlerEffect.toPath : HandlerEffect → Option ControlEffect
  | .path e => some e
  | .answered _ _ | .auth _ => none

section Effects

theorem toAuth_auth (es : List Auth.Effect) :
    (es.map HandlerEffect.auth).filterMap HandlerEffect.toAuth = es :=
  filterMap_seen HandlerEffect.auth HandlerEffect.toAuth (fun _ => rfl) es

theorem toAuth_path (es : List ControlEffect) :
    (es.map HandlerEffect.path).filterMap HandlerEffect.toAuth = [] :=
  filterMap_unseen HandlerEffect.path HandlerEffect.toAuth (fun _ => rfl) es

theorem toPath_path (es : List ControlEffect) :
    (es.map HandlerEffect.path).filterMap HandlerEffect.toPath = es :=
  filterMap_seen HandlerEffect.path HandlerEffect.toPath (fun _ => rfl) es

theorem toPath_auth (es : List Auth.Effect) :
    (es.map HandlerEffect.auth).filterMap HandlerEffect.toPath = [] :=
  filterMap_unseen HandlerEffect.auth HandlerEffect.toPath (fun _ => rfl) es

end Effects

/-- Everything one step of the handler can be. -/
inductive Handler.Stepped (p : Profile) (s : Handler) : Handler → List HandlerEffect → Prop
  | auth (a : Auth.Act) (b : Auth.System) (es : List Auth.Effect)
      (hget : ∀ id, a ≠ .getReport id)
      (hmirror : p.role = .mirror → a = .send ∨ ∃ ms, a = .elapse ms)
      (h : (Auth.machine p.role).step s.auth a = some (b, es)) :
      Stepped p s { s with auth := b } (es.map .auth)
  | path (a : ControlAct) (b : ControlPath) (es : List ControlEffect)
      (h : (controlPath p.role).step s.path a = some (b, es)) :
      Stepped p s { s with path := b } (es.map .path)
  | input (report : Bytes c269Len) : Stepped p s { s with input := report } []
  /-- A GET_REPORT that the cache is asked for first. -/
  | asked (req : Request) (b : Auth.System) (es : List Auth.Effect)
      (hasks : p.asksAuth req = true)
      (h : (Auth.machine p.role).step s.auth (.getReport req.id) = some (b, es)) :
      Stepped p s { s with auth := b } (es.map .auth ++ [.answered req
        (WheelBridge.controlIn p s.input (Auth.getReport req.id s.auth.statics.state).2.2 req)])
  | answered (req : Request) (hasks : p.asksAuth req = false) (resp : Option InResponse)
      (h : resp = WheelBridge.controlIn p s.input
        (Auth.getReport req.id s.auth.statics.state).2.2 req) :
      Stepped p s s [.answered req resp]
  /-- A nonce page of the console. -/
  | nonce (req : Request) (data : List UInt8) (b : Auth.System) (es : List Auth.Effect)
      (hnonce : WheelBridge.controlOut p.role req data = .nonce)
      (h : (Auth.machine p.role).step s.auth (.setReport idNonce data) = some (b, es)) :
      Stepped p s { s with auth := b, path := (s.path.request p.role req data).1 }
        (es.map .auth ++ (s.path.request p.role req data).2.map .path)

namespace Handler

variable {p : Profile} {s t : Handler} {es : List HandlerEffect}

theorem inAuth_eq_some {a : Auth.Act} : s.inAuth p a = some (t, es) ↔
    ∃ b fs, (Auth.machine p.role).step s.auth a = some (b, fs) ∧ { s with auth := b } = t ∧
      fs.map .auth = es := by
  constructor
  · intro h
    obtain ⟨r, hr, heq⟩ := Option.map_eq_some_iff.mp h
    cases heq
    exact ⟨r.1, r.2, hr, rfl, rfl⟩
  · rintro ⟨b, fs, hb, rfl, rfl⟩
    exact Option.map_eq_some_iff.mpr ⟨(b, fs), hb, rfl⟩

theorem inPath_eq_some {a : ControlAct} : s.inPath p a = some (t, es) ↔
    ∃ b fs, (controlPath p.role).step s.path a = some (b, fs) ∧ { s with path := b } = t ∧
      fs.map .path = es := by
  constructor
  · intro h
    obtain ⟨r, hr, heq⟩ := Option.map_eq_some_iff.mp h
    cases heq
    exact ⟨r.1, r.2, hr, rfl, rfl⟩
  · rintro ⟨b, fs, hb, rfl, rfl⟩
    exact Option.map_eq_some_iff.mpr ⟨(b, fs), hb, rfl⟩

theorem stepped {a : HandlerAct} (h : (handler p).step s a = some (t, es)) :
    Handler.Stepped p s t es := by
  change s.step p a = some (t, es) at h
  cases a with
  | controlIn req =>
    simp only [Handler.step, Option.ite_none_right_eq_some, Option.some.injEq] at h
    obtain ⟨hidle, h⟩ := h
    unfold Handler.controlIn at h
    dsimp only at h
    split at h
    · next hasks =>
      cases h
      refine .asked req _ _ hasks ?_
      change Auth.step p.role s.auth (.getReport req.id) = _
      simp only [Auth.step, hidle]
    · next hasks =>
      cases h
      exact .answered req (by simpa using hasks) _ rfl
  | controlOut req data =>
    simp only [Handler.step, Option.ite_none_right_eq_some] at h
    obtain ⟨hidle, h⟩ := h
    unfold Handler.controlOut at h
    dsimp only at h
    have hplain : some ({ s with path := (s.path.request p.role req data).1 },
        (s.path.request p.role req data).2.map HandlerEffect.path) = some (t, es) →
        Handler.Stepped p s t es := by
      intro h
      cases h
      exact .path (.request req data) _ _ rfl
    cases hout : WheelBridge.controlOut p.role req data with
    | nonce =>
      rw [hout] at h
      obtain ⟨r, hr, heq⟩ := Option.map_eq_some_iff.mp h
      cases heq
      exact .nonce req data r.1 r.2 hout hr
    | none | queue msg | accepted | rejected =>
      rw [hout] at h
      exact hplain h
  | send =>
    obtain ⟨b, fs, hb, rfl, rfl⟩ := inAuth_eq_some.mp h
    exact .auth .send b fs (by simp) (fun _ => Or.inl rfl) hb
  | setInput report =>
    cases h
    exact .input report
  | elapse ms =>
    obtain ⟨b, fs, hb, rfl, rfl⟩ := inAuth_eq_some.mp h
    exact .auth (.elapse ms) b fs (by simp) (fun _ => Or.inr ⟨ms, rfl⟩) hb
  | signer a =>
    simp only [Handler.step, Option.ite_none_right_eq_some] at h
    obtain ⟨⟨hsigner, hrole⟩, h⟩ := h
    obtain ⟨b, fs, hb, rfl, rfl⟩ := inAuth_eq_some.mp h
    refine .auth a b fs ?_ (fun hmirror => absurd hmirror hrole) hb
    rintro id rfl
    cases hsigner
  | clear =>
    obtain ⟨b, fs, hb, rfl, rfl⟩ := inPath_eq_some.mp h
    exact .path .clear b fs hb
  | take =>
    obtain ⟨b, fs, hb, rfl, rfl⟩ := inPath_eq_some.mp h
    exact .path .take b fs hb

end Handler

theorem handler_refines_auth (p : Profile) :
    (handler p).Refines (Auth.machine p.role) Handler.auth HandlerEffect.toAuth where
  step s a t es hstep := by
    cases Handler.stepped hstep with
    | auth a b es hget hmirror h =>
      rw [toAuth_auth]
      exact ⟨[a], Machine.run_single h⟩
    | path a b es h =>
      rw [toAuth_path]
      exact ⟨[], rfl⟩
    | input report => exact ⟨[], rfl⟩
    | asked req b es hasks h =>
      rw [List.filterMap_append, toAuth_auth]
      refine ⟨[.getReport req.id], ?_⟩
      have hnone : [HandlerEffect.answered req (controlIn p s.input
          (Auth.getReport req.id s.auth.statics.state).2.2 req)].filterMap
            HandlerEffect.toAuth = [] := rfl
      rw [hnone, List.append_nil]
      exact Machine.run_single h
    | answered req hasks resp h => exact ⟨[], rfl⟩
    | nonce req data b es hnonce h =>
      rw [List.filterMap_append, toAuth_auth, toAuth_path, List.append_nil]
      exact ⟨[.setReport idNonce data], Machine.run_single h⟩

theorem handler_refines_path (p : Profile) :
    (handler p).Refines (controlPath p.role) Handler.path HandlerEffect.toPath where
  step s a t es hstep := by
    cases Handler.stepped hstep with
    | auth a b es hget hmirror h =>
      rw [toPath_auth]
      exact ⟨[], rfl⟩
    | path a b es h =>
      rw [toPath_path]
      exact ⟨[a], Machine.run_single h⟩
    | input report => exact ⟨[], rfl⟩
    | asked req b es hasks h =>
      rw [List.filterMap_append, toPath_auth]
      exact ⟨[], rfl⟩
    | answered req hasks resp h => exact ⟨[], rfl⟩
    | nonce req data b es hnonce h =>
      rw [List.filterMap_append, toPath_auth, toPath_path, List.nil_append]
      exact ⟨[.request req data], Machine.run_single rfl⟩

/-- The console has not come to the authentication relay, and no signer has. -/
structure Untouched (s : Auth.System) : Prop where
  statics : s.statics = Auth.Statics.init
  cmd : s.cmd = Channel.empty
  console : s.console = .idle

theorem controlOut_mirror (req : Request) (data : List UInt8) :
    controlOut .mirror req data ≠ .nonce := by
  unfold controlOut
  split
  · simp
  · simp

theorem untouched_step {p : Profile} (hrole : p.role = .mirror) {s t : Handler}
    {es : List HandlerEffect} (hs : Untouched s.auth) (h : Handler.Stepped p s t es) :
    Untouched t.auth ∧ ∀ e ∈ es, e.toAuth = none := by
  cases h with
  | auth a b es hget hmirror h =>
    rcases hmirror hrole with rfl | ⟨ms, rfl⟩
    · change Auth.step p.role s.auth .send = _ at h
      simp only [Auth.step, hs.console, reduceCtorEq] at h
    · cases h
      exact ⟨⟨hs.statics, hs.cmd, hs.console⟩, fun e he => by cases he⟩
  | path a b es h =>
    refine ⟨hs, fun e he => ?_⟩
    obtain ⟨f, -, rfl⟩ := List.mem_map.mp he
    rfl
  | input report => exact ⟨hs, fun e he => by cases he⟩
  | asked req b es hasks h =>
    simp only [Profile.asksAuth, decide_eq_true_eq] at hasks
    exact absurd hrole hasks.2.2.2.1
  | answered req hasks resp h =>
    refine ⟨hs, fun e he => ?_⟩
    cases List.mem_singleton.mp he
    rfl
  | nonce req data b es hnonce h =>
    rw [hrole] at hnonce
    exact absurd hnonce (controlOut_mirror req data)

/-- Every run of the handler is a run of the authentication relay and one of the path to the
backend, each with what the requests meant to it; in the mirror role no request reaches
the authentication relay. -/
theorem handler_refines (p : Profile) {as : List HandlerAct} {s : Handler}
    {es : List HandlerEffect} (h : (handler p).run Handler.init as = some (s, es)) :
    (∃ bs, (Auth.machine p.role).run Auth.System.init bs =
      some (s.auth, es.filterMap HandlerEffect.toAuth)) ∧
    (∃ cs, (controlPath p.role).run ControlPath.init cs =
      some (s.path, es.filterMap HandlerEffect.toPath)) ∧
    (p.role = .mirror → Untouched s.auth ∧ es.filterMap HandlerEffect.toAuth = []) := by
  refine ⟨(handler_refines_auth p).run h, (handler_refines_path p).run h, ?_⟩
  intro hrole
  obtain ⟨hs, hes⟩ := Machine.run_always (fun s => Untouched s.auth)
    (fun e => HandlerEffect.toAuth e = none)
    (fun _ _ _ _ hi hstep => untouched_step hrole hi (Handler.stepped hstep))
    ⟨rfl, rfl, rfl⟩ h
  exact ⟨hs, List.filterMap_eq_nil_iff.mpr hes⟩

/-- The console resets the authentication and sets a first nonce page, then a HID++ request. -/
def mixedRequests : List HandlerAct :=
  [.controlIn (featureRequest Auth.idReset),
    .controlOut ⟨.class_, .interface, hidSetReport, 0x03f0, ifInput⟩ [0xf0, 0x01, 0x00], .send,
    .controlOut ⟨.class_, .interface, hidSetReport, 0x0210, ifHidpp⟩ ping]

theorem mixed_requests_refine :
    ∃ s es bs, (handler ps5).run Handler.init mixedRequests = some (s, es) ∧
      (Auth.machine .wheel).run Auth.System.init bs =
        some (s.auth, es.filterMap HandlerEffect.toAuth) := by
  have hruns : ((handler ps5).run Handler.init mixedRequests).isSome = true := by decide +kernel
  obtain ⟨⟨s, es⟩, h⟩ := Option.isSome_iff_exists.mp hruns
  obtain ⟨bs, hbs⟩ := (handler_refines ps5 h).1
  exact ⟨s, es, bs, h, hbs⟩

/-- What a GET F1 is answered, by what the cache gives. -/
def pageResponse : Option (List UInt8) → InResponse
  | some page => .accepted page
  | none => .rejected

/-- The answers to GET_REPORT(Feature, F1) on IF0. -/
def pageAnswers (p : Profile) (es : List HandlerEffect) : List (Option InResponse) :=
  es.filterMap fun e =>
    match e with
    | .answered req resp => if p.asksAuth req ∧ req.id = Auth.idSignature then some resp else none
    | .auth _ | .path _ => none

theorem pageAnswers_append (p : Profile) (es fs : List HandlerEffect) :
    pageAnswers p (es ++ fs) = pageAnswers p es ++ pageAnswers p fs :=
  List.filterMap_append

theorem pageAnswers_auth (p : Profile) (es : List Auth.Effect) :
    pageAnswers p (es.map .auth) = [] :=
  filterMap_unseen _ _ (fun _ => rfl) es

theorem pageAnswers_path (p : Profile) (es : List ControlEffect) :
    pageAnswers p (es.map .path) = [] :=
  filterMap_unseen _ _ (fun _ => rfl) es

/-- The cache answers nobody but the console. -/
theorem signatureAnswers_step {role : Role} {s t : Auth.System} {a : Auth.Act}
    {es : List Auth.Effect} (h : (Auth.machine role).step s a = some (t, es))
    (hget : ∀ id, a ≠ .getReport id) : Auth.signatureAnswers es = [] := by
  cases Auth.acted h with
  | elapse ms => rfl
  | get id hidle => exact absurd rfl (hget id)
  | ignored id data => rfl
  | nonceSet data hidle => rfl
  | send data hcon t es hsend =>
    obtain ⟨-, -, hes⟩ := Auth.send_eq hsend
    rcases hes with rfl | rfl <;> rfl
  | attach i hi => rfl
  | detach i task hi => rfl
  | receive i cmd q hi hq =>
    refine (Auth.silent_unheard ?_).1
    intro e he
    rcases List.mem_cons.mp he with rfl | he
    · trivial
    · simp only [Option.mem_toList, Option.map_eq_some_iff] at he
      obtain ⟨x, -, rfl⟩ := he
      trivial
  | woke a i task e r ha hi hr => exact (Auth.silent_unheard (Auth.settle_silent i s r)).1

/-- A GET_REPORT of the console is answered once by the cache. -/
theorem signatureAnswers_get {role : Role} {s t : Auth.System} {id : UInt8} {es : List Auth.Effect}
    (h : (Auth.machine role).step s (.getReport id) = some (t, es)) :
    Auth.signatureAnswers es =
      if id = Auth.idSignature then [(Auth.getReport id s.statics.state).2.2] else [] := by
  cases Auth.acted h with
  | get id hidle =>
    by_cases hid : id = Auth.idReset
    · subst hid
      obtain ⟨q, e, heq, he⟩ := Auth.consoleGet_reset s
      rw [heq, if_neg (by decide)]
      rcases he with rfl | rfl <;> rfl
    · rw [Auth.consoleGet_other hid]
      by_cases hsig : id = Auth.idSignature
      · rw [if_pos hsig]
        simp [Auth.signatureAnswers, hsig]
      · rw [if_neg hsig]
        simp [Auth.signatureAnswers, hsig]
  | woke a i task e r ha hi hr => cases ha

theorem isGetReport_of_asksAuth {p : Profile} {req : Request} (h : p.asksAuth req = true) :
    req.isGetReport = true := by
  simp only [Profile.asksAuth, decide_eq_true_eq] at h
  exact decide_eq_true ⟨h.1, h.2.1, h.2.2.1⟩

/-- No table has a signature page, so the cache has the last word. -/
theorem controlIn_signature {p : Profile} (hc : p.Consistent) (input : Bytes c269Len)
    (report : Option (List UInt8)) {req : Request} (hasks : p.asksAuth req = true)
    (hid : req.id = Auth.idSignature) :
    controlIn p input report req = some (pageResponse report) := by
  rw [controlIn_getReport p input report (isGetReport_of_asksAuth hasks), if_pos hasks]
  cases report with
  | some page => rfl
  | none =>
    simp only [Profile.asksAuth, decide_eq_true_eq] at hasks
    have hfeature : p.feature req = none := by
      unfold Profile.feature
      rw [if_pos hasks.2.2.2.2, List.find?_eq_none]
      intro f hmem hhead
      have hsize := (hc.features f hmem).2 req.id (of_decide_eq_true hhead)
      exact hsize.2.2 hid
    have hinput : ¬ (req.kind = reportTypeInput ∧ req.id = inputId ∧ req.index = ifInput ∧
        p.role = .wheel) := by
      rw [hid]
      exact fun h => absurd h.2.1 (by decide)
    simp only [Profile.getReport, hfeature, if_neg hinput]
    rfl

theorem pageAnswers_step {p : Profile} (hc : p.Consistent) {s t : Handler}
    {es : List HandlerEffect} (h : Handler.Stepped p s t es) :
    pageAnswers p es =
      (Auth.signatureAnswers (es.filterMap HandlerEffect.toAuth)).map (some ∘ pageResponse) := by
  cases h with
  | auth a b es hget hmirror h =>
    rw [pageAnswers_auth, toAuth_auth, signatureAnswers_step h hget]
    rfl
  | path a b es h =>
    rw [pageAnswers_path, toAuth_path]
    rfl
  | input report => rfl
  | asked req b es hasks h =>
    rw [pageAnswers_append, pageAnswers_auth, List.filterMap_append, toAuth_auth]
    have hnone (resp : Option InResponse) :
        [HandlerEffect.answered req resp].filterMap HandlerEffect.toAuth = [] := rfl
    rw [hnone, List.append_nil, signatureAnswers_get h]
    by_cases hid : req.id = Auth.idSignature
    · rw [if_pos hid, controlIn_signature hc s.input _ hasks hid]
      simp [pageAnswers, hasks, hid]
    · rw [if_neg hid]
      simp [pageAnswers, hid]
  | answered req hasks resp h =>
    have hnone : pageAnswers p [.answered req resp] = [] := by simp [pageAnswers, hasks]
    rw [hnone]
    rfl
  | nonce req data b es hnonce h =>
    rw [pageAnswers_append, pageAnswers_auth, pageAnswers_path, List.filterMap_append, toAuth_auth,
      toAuth_path, List.append_nil, List.append_nil, signatureAnswers_step h (by simp)]
    rfl

theorem pageAnswers_run {p : Profile} (hc : p.Consistent) {s t : Handler}
    {as : List HandlerAct} {es : List HandlerEffect} (h : (handler p).run s as = some (t, es)) :
    pageAnswers p es =
      (Auth.signatureAnswers (es.filterMap HandlerEffect.toAuth)).map (some ∘ pageResponse) := by
  induction as generalizing s es with
  | nil =>
    cases h
    rfl
  | cons a as ih =>
    obtain ⟨u, fs, gs, hone, hrest, rfl⟩ := Machine.run_cons_eq_some.mp h
    have hsplit : Auth.signatureAnswers ((fs ++ gs).filterMap HandlerEffect.toAuth) =
        Auth.signatureAnswers (fs.filterMap HandlerEffect.toAuth) ++
          Auth.signatureAnswers (gs.filterMap HandlerEffect.toAuth) := by
      rw [List.filterMap_append]
      exact List.filterMap_append
    rw [pageAnswers_append, pageAnswers_step hc (Handler.stepped hone), ih hrest, hsplit,
      List.map_append]

/-- The cache is in order wherever a run of the authentication relay ends. -/
theorem kept_reachable {role : Role} {as : List Auth.Act} {s : Auth.System}
    {es : List Auth.Effect} (h : (Auth.machine role).run Auth.System.init as = some (s, es)) :
    ∃ nonce, Auth.Kept s nonce := by
  refine (Machine.run_always (fun s => ∃ nonce, Auth.Kept s nonce) (fun _ => True) ?_
    ⟨[], .init⟩ h).1
  rintro s a t es ⟨nonce, hkept⟩ hstep
  exact ⟨⟨_, (Auth.kept_step hkept (Auth.stepped hstep)).kept⟩, fun _ _ => trivial⟩

/-- Over USB as well the signature is given out page by page: however the console's requests
and the signers are interleaved, as long as no GET F3, nonce or publication renews the cache
the GETs of F1 are answered with the pages that are left, in order and each once, and are
rejected after the last. -/
theorem signature_pages_served {p : Profile} (hp : p = ps5 ∨ p = relayC269)
    {as bs : List HandlerAct} {s t : Handler} {es fs : List HandlerEffect}
    (hreach : (handler p).run Handler.init as = some (s, es))
    (hrun : (handler p).run s bs = some (t, fs))
    (hkeep : ∀ e ∈ fs.filterMap HandlerEffect.toAuth, ¬ e.Renews) :
    pageAnswers p fs = (List.range (pageAnswers p fs).length).map fun j =>
      some (pageResponse (s.auth.statics.state.given j)) := by
  have hc : p.Consistent := by
    rcases hp with rfl | rfl
    · exact ps5_consistent
    · exact relayC269_consistent
  obtain ⟨nonce, hkept⟩ := (handler_refines_auth p).reaches (fun s => ∃ nonce, Auth.Kept s nonce)
    (fun _ _ _ h => kept_reachable h) hreach
  obtain ⟨cs, hcs⟩ := (handler_refines_auth p).run hrun
  have hgives := (hkept.delivers cs t.auth _ hcs hkeep).1
  rw [pageAnswers_run hc hrun, List.length_map]
  conv_lhs => rw [hgives]
  rw [List.map_map]
  rfl

instance (e : Auth.Effect) : Decidable e.Renews :=
  match e with
  | .resetRead | .nonceSet _ | .signer _ .publish => isTrue trivial
  | .answered _ _ | .queued _ | .dropped _ | .cleared _ | .attached _ | .detached _
  | .received _ _ | .signer _ (.transfer _) | .signer _ .serve | .signer _ (.pageSent _)
  | .signer _ (.sign _) | .signer _ .copyNonce => isFalse id

/-- A pad is attached, takes the console's last nonce page and signs. -/
def signedRun : List HandlerAct :=
  [.signer (.attach 0), .signer (.reply 0 (some [0xf3])),
    .controlOut ⟨.class_, .interface, hidSetReport, 0x03f0, ifInput⟩ [0xf0, 0x07, 0x04], .send,
    .signer (.receive 0), .signer (.reply 0 (some [])),
    .signer (.reply 0 (some [0xf2, 0x01, 0x10])), .elapse 20, .signer (.timer 0),
    .signer (.reply 0 (some [0xf2, 0x01, 0x00]))] ++
  (List.range Auth.signaturePages).map fun i =>
    .signer (.reply 0 (some [0xf1, 0x01, UInt8.ofNat i]))

/-- The console polls the state once more and reads two pages. -/
def twoPages : List HandlerAct :=
  [.controlIn (featureRequest Auth.idState), .controlIn (featureRequest Auth.idSignature),
    .controlIn (featureRequest Auth.idSignature)]

theorem two_pages_served :
    ∃ s t es fs, (handler ps5).run Handler.init signedRun = some (s, es) ∧
      (handler ps5).run s twoPages = some (t, fs) ∧ s.auth.statics.state.ready = true ∧
      pageAnswers ps5 fs = (List.range (pageAnswers ps5 fs).length).map fun j =>
        some (pageResponse (s.auth.statics.state.given j)) := by
  have hruns : (((handler ps5).run Handler.init signedRun).bind fun r =>
      ((handler ps5).run r.1 twoPages).map fun q => r.1.auth.statics.state.ready &&
        decide (∀ e ∈ q.2.filterMap HandlerEffect.toAuth, ¬ e.Renews)) = some true := by
    decide +kernel
  obtain ⟨⟨s, es⟩, hs, hbind⟩ := Option.bind_eq_some_iff.mp hruns
  obtain ⟨⟨t, fs⟩, ht, hboth⟩ := Option.map_eq_some_iff.mp hbind
  obtain ⟨hready, hkeep⟩ := Bool.and_eq_true_iff.mp hboth
  exact ⟨s, t, es, fs, hs, ht, hready,
    signature_pages_served (Or.inl rfl) hs ht (of_decide_eq_true hkeep)⟩

end WheelBridge
