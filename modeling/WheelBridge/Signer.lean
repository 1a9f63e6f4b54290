import WheelBridge.AuthCache

/-!
The signer side of the authentication relay: one device that may sign, as a task
that is suspended at an awaited transfer, an awaited timer or the command queue.
`resume` is what the task does from there to its next await. The transfers and the
clock belong to the environment: a transfer may succeed with any bytes or fail, and
a timer fires at any time from its deadline on (all times in milliseconds).
-/
namespace WheelBridge.Auth

/-- How often the signer's F2 is polled, and for how long. -/
def signerPoll : ℕ := 20
def signerTimeout : ℕ := 10000
/-- Reads of a candidate signer's F3 before it is taken for something else. -/
def signerProbeTries : ℕ := 5
def signerProbePause : ℕ := 200
/-- Signing runs per console nonce. -/
def signAttempts : ℕ := 4
def resignPause : ℕ := 300
def resetSettleTime : ℕ := 50
def noncePageGap : ℕ := 10
/-- A "ready" F2 right after a nonce is believed only once "signing" has been seen, or
after this long. -/
def staleReadyGrace : ℕ := 500

/-- The statics of the relay other than `CMD`. -/
structure Statics where
  state : State
  /-- `NONCE`: the console's nonce pages, kept to sign again. -/
  nonce : Fin noncePages → Bytes nonceLen
  /-- `NONCE_REFUSED`: the signer refused a nonce page of the current nonce. -/
  nonceRefused : Bool

def Statics.init : Statics where
  state := State.init
  nonce := fun _ => Bytes.zero
  nonceRefused := false

/-- A control transfer to the signer. -/
inductive Transfer
  /-- GET_REPORT(Feature, `id`) into a buffer of `len` bytes. -/
  | get (id : UInt8) (len : ℕ)
  /-- SET_REPORT(Feature) F0. -/
  | setNonce (data : List UInt8)
deriving DecidableEq

/-- What `fetch_signature` remembers while it polls F2. -/
structure Poll where
  start : ℕ
  state : Bytes stateLen
  seenSigning : Bool
deriving DecidableEq

/-- Where an attempt of `sign` is suspended. -/
inductive SignStep
  | resignPause (wake : ℕ)
  | resetSigner
  | resetSettle (wake : ℕ)
  /-- Resending page `i` of the copied nonce. -/
  | setNonce (pages : Fin noncePages → Bytes nonceLen) (i : Fin noncePages)
  | noncePageGap (pages : Fin noncePages → Bytes nonceLen) (i : Fin noncePages) (wake : ℕ)
  /-- In `fetch_signature`: GET F2, the pause after it, GET F1 for page `i`. -/
  | getState (poll : Poll)
  | pollPause (poll : Poll) (wake : ℕ)
  | getSignature (poll : Poll) (pages : Fin signaturePages → Bytes signatureLen)
      (i : Fin signaturePages)
  /-- The `reset_signer` before `sign` gives up. -/
  | giveUp

/-- Where the task of a candidate signer is suspended. -/
inductive Task
  /-- In `try_signer`. -/
  | probe (attempt : ℕ)
  | probePause (attempt : ℕ) (wake : ℕ)
  | notSigner
  /-- In `serve`: `CMD.receive()`. -/
  | receive
  /-- In `handle`: `reset_signer` for a reset, `set_nonce` for a page. -/
  | reset
  | setNonce (page : Packet)
  | sign (attempt : ℕ) (step : SignStep)

/-- The transfer a task awaits. -/
def Task.transfer : Task → Option Transfer
  | .probe _ => some (.get idReset resetLen)
  | .reset => some (.get idReset resetLen)
  | .setNonce page => some (.setNonce page.bytes)
  | .sign _ .resetSigner => some (.get idReset resetLen)
  | .sign _ (.setNonce pages i) => some (.setNonce (pages i).toList)
  | .sign _ (.getState _) => some (.get idState stateLen)
  | .sign _ (.getSignature _ _ _) => some (.get idSignature signatureLen)
  | .sign _ .giveUp => some (.get idReset resetLen)
  | _ => none

/-- What resumes a task: a command, the end of its transfer (with the bytes read, or
failed), its timer. -/
inductive Event
  | command (cmd : Cmd)
  | reply (r : Option (List UInt8))
  | timer

/-- What a task does that others can see. -/
inductive SignerEffect
  | transfer (t : Transfer)
  /-- `serve` is entered (wheel role): the command queue is cleared. -/
  | serve
  /-- The signer took a nonce page from `handle`, or refused it. -/
  | pageSent (accepted : Bool)
  /-- `sign` is called. -/
  | sign (resend : Bool)
  /-- `sign` copies the nonce pages for a resend. -/
  | copyNonce
  /-- `fetch_signature` publishes the signature. -/
  | publish
deriving DecidableEq

abbrev Resumed := Statics × Task × List SignerEffect

/-- Go on to the next await; a transfer awaited there is issued. -/
def goOn (st : Statics) (t : Task) (es : List SignerEffect) : Resumed :=
  (st, t, es ++ (t.transfer.map SignerEffect.transfer).toList)

/-- The page byte of an F0 report. -/
def pageOf (page : Packet) : Option UInt8 := page.bytes[2]?

/-- The first half of `handle` for a nonce page: keep it to sign again. -/
def storePage (page : Packet) (st : Statics) : Statics :=
  match pageOf page with
  | none => st
  | some n =>
    if h : n.toNat < noncePages ∧ page.bytes.length = nonceLen then
      { st with nonce := Function.update st.nonce ⟨n.toNat, h.1⟩ ⟨page.bytes, h.2⟩ }
    else st

/-- The second half, after `set_nonce`: whether the signer took the page. On the last
page `sign` is called with the resend flag given back. -/
def finishPage (page : Packet) (accepted : Bool) (st : Statics) : Statics × Option Bool :=
  let refused := if accepted then st.nonceRefused else true
  if pageOf page = some lastNoncePage then ({ st with nonceRefused := false }, some refused)
  else if pageOf page = some 0 then ({ st with nonceRefused := false }, none)
  else ({ st with nonceRefused := refused }, none)

/-- `fetch_signature` begins. -/
def fetchSignature (attempt now : ℕ) : Task :=
  .sign attempt (.getState ⟨now, Bytes.zero, false⟩)

/-- `sign` begins. -/
def sign (resend : Bool) (now : ℕ) : Task :=
  if resend then .sign 1 (.resignPause (now + resignPause)) else fetchSignature 1 now

/-- A page was lost: sign again, if an attempt is left. -/
def pageLost (attempt now : ℕ) : Task :=
  if attempt < signAttempts then .sign (attempt + 1) (.resignPause (now + resignPause))
  else .sign attempt .giveUp

/-- A reply to GET F2. -/
def stateRead (attempt now : ℕ) (poll : Poll) (bytes : List UInt8) : Task :=
  let state := poll.state.write bytes
  let seen := poll.seenSigning || state.byte 2 = stateSigning
  let poll := ⟨poll.start, state, seen⟩
  if state.byte 2 = stateReady ∧ (seen ∨ staleReadyGrace ≤ now - poll.start) then
    .sign attempt (.getSignature poll (fun _ => Bytes.zero) ⟨0, by decide⟩)
  else .sign attempt (.pollPause poll (now + signerPoll))

/-- A reply to GET F1 for page `i`; the last page is followed by the publication. -/
def signatureRead (st : Statics) (attempt now : ℕ) (poll : Poll)
    (pages : Fin signaturePages → Bytes signatureLen) (i : Fin signaturePages)
    (bytes : List UInt8) : Resumed :=
  let page := (pages i).write bytes
  let pages := Function.update pages i page
  if page.byte 2 ≠ UInt8.ofNat i then goOn st (pageLost attempt now) []
  else if h : i + 1 < signaturePages then
    goOn st (.sign attempt (.getSignature poll pages ⟨i + 1, h⟩)) []
  else goOn { st with state := publish poll.state pages st.state } .receive [.publish]

def resumeSign (now : ℕ) (st : Statics) (attempt : ℕ) : SignStep → Event → Option Resumed
  | .resignPause wake, .timer =>
    if wake ≤ now then some (goOn st (.sign attempt .resetSigner) []) else none
  | .resetSigner, .reply _ =>
    some (goOn st (.sign attempt (.resetSettle (now + resetSettleTime))) [])
  | .resetSettle wake, .timer =>
    if wake ≤ now then
      some (goOn st (.sign attempt (.setNonce st.nonce ⟨0, noncePages_pos⟩)) [.copyNonce])
    else none
  | .setNonce _ _, .reply none => some (goOn st .receive [])
  | .setNonce pages i, .reply (some _) =>
    some (goOn st (.sign attempt (.noncePageGap pages i (now + noncePageGap))) [])
  | .noncePageGap pages i wake, .timer =>
    if wake ≤ now then
      if h : i + 1 < noncePages then
        some (goOn st (.sign attempt (.setNonce pages ⟨i + 1, h⟩)) [])
      else some (goOn st (fetchSignature attempt now) [])
    else none
  | .getState poll, .reply (some bytes) => some (goOn st (stateRead attempt now poll bytes) [])
  | .getState poll, .reply none =>
    some (goOn st (.sign attempt (.pollPause poll (now + signerPoll))) [])
  | .pollPause poll wake, .timer =>
    if wake ≤ now then
      if signerTimeout ≤ now - poll.start then some (goOn st (.sign attempt .giveUp) [])
      else some (goOn st (.sign attempt (.getState poll)) [])
    else none
  | .getSignature _ _ _, .reply none => some (goOn st (pageLost attempt now) [])
  | .getSignature poll pages i, .reply (some bytes) =>
    some (signatureRead st attempt now poll pages i bytes)
  | .giveUp, .reply _ => some (goOn st .receive [])
  | _, _ => none

def resume (role : Role) (now : ℕ) (st : Statics) : Task → Event → Option Resumed
  | .probe _, .reply (some bytes) =>
    let reset := (Bytes.zero : Bytes resetLen).write bytes
    some (goOn { st with state := { st.state with reset := reset } } .receive
      (if role = .wheel then [.serve] else []))
  | .probe attempt, .reply none =>
    if attempt < signerProbeTries then
      some (goOn st (.probePause attempt (now + signerProbePause)) [])
    -- The relay serves DriveHub even without its F3.
    else some (goOn st (if role = .relay then .receive else .notSigner) [])
  | .probePause attempt wake, .timer =>
    if wake ≤ now then some (goOn st (.probe (attempt + 1)) []) else none
  | .receive, .command .reset => some (goOn st .reset [])
  | .receive, .command (.nonce page) => some (goOn (storePage page st) (.setNonce page) [])
  | .reset, .reply _ => some (goOn st .receive [])
  | .setNonce page, .reply r =>
    match finishPage page r.isSome st with
    | (st, none) => some (goOn st .receive [.pageSent r.isSome])
    | (st, some resend) =>
      some (goOn st (sign resend now) [.pageSent r.isSome, .sign resend])
  | .sign attempt step, e => resumeSign now st attempt step e
  | _, _ => none

/-- What a device begins when it takes a command. -/
def begin (cmd : Cmd) (st : Statics) : Statics × Task :=
  match cmd with
  | .reset => (st, .reset)
  | .nonce page => (storePage page st, .setNonce page)

/-- The command a busy task acts on; `sign` is only ever called for a last page. -/
def Task.Handles : Task → Cmd → Prop
  | .reset, cmd => cmd = .reset
  | .setNonce page, cmd => cmd = .nonce page
  | .sign _ _, .nonce page => pageOf page = some lastNoncePage
  | _, _ => False

/-- In `handle`, that is not ready for another command. -/
def Task.Busy : Task → Prop
  | .reset | .setNonce _ | .sign _ _ => True
  | _ => False

/-- Effects that tell nothing beyond the transfers issued. -/
def Plain (es : List SignerEffect) : Prop :=
  .serve ∉ es ∧ .publish ∉ es ∧ (∀ resend, .sign resend ∉ es) ∧ ∀ ok, .pageSent ok ∉ es

/-- Going on to the next await issues a transfer, if anything. -/
theorem mem_goOn {st : Statics} {t : Task} {e : SignerEffect} (h : e ∈ (goOn st t []).2.2) :
    ∃ x, e = .transfer x := by
  simp only [goOn, List.nil_append, Option.mem_toList, Option.map_eq_some_iff] at h
  obtain ⟨x, -, hx⟩ := h
  exact ⟨x, hx.symm⟩

theorem plain_goOn (st : Statics) (t : Task) : Plain (goOn st t []).2.2 := by
  refine ⟨fun h => ?_, fun h => ?_, fun resend h => ?_, fun ok h => ?_⟩ <;>
    · obtain ⟨x, hx⟩ := mem_goOn h
      cases hx

/-- What one await of `sign` can end in. -/
inductive SignOutcome (st : Statics) : Resumed → Prop
  | returned : SignOutcome st (st, .receive, [])
  | ongoing (attempt : ℕ) (step : SignStep) (es : List SignerEffect) (hes : Plain es) :
      SignOutcome st (st, .sign attempt step, es)
  | published (poll : Poll) (pages : Fin signaturePages → Bytes signatureLen) :
      SignOutcome st ({ st with state := publish poll.state pages st.state }, .receive, [.publish])

theorem SignOutcome.goOn (st : Statics) (attempt : ℕ) (step : SignStep) :
    SignOutcome st (goOn st (.sign attempt step) []) :=
  .ongoing attempt step _ (plain_goOn st _)

theorem SignOutcome.pageLost (st : Statics) (attempt now : ℕ) :
    SignOutcome st (Auth.goOn st (pageLost attempt now) []) := by
  unfold Auth.pageLost
  split <;> exact SignOutcome.goOn ..

theorem signatureRead_outcome (st : Statics) (attempt now : ℕ) (poll : Poll)
    (pages : Fin signaturePages → Bytes signatureLen) (i : Fin signaturePages)
    (bytes : List UInt8) :
    SignOutcome st (signatureRead st attempt now poll pages i bytes) := by
  unfold signatureRead
  dsimp only
  split
  · exact SignOutcome.pageLost ..
  · split
    · exact SignOutcome.goOn ..
    · exact .published _ _

theorem resumeSign_outcome {now : ℕ} {st : Statics} {attempt : ℕ} {step : SignStep}
    {e : Event} {r : Resumed} (h : resumeSign now st attempt step e = some r) :
    SignOutcome st r := by
  unfold resumeSign at h
  split at h
  · split at h <;> cases h
    exact SignOutcome.goOn ..
  · cases h
    exact SignOutcome.goOn ..
  · split at h <;> cases h
    exact .ongoing _ _ _ (by simp [Plain, Task.transfer])
  · cases h
    exact .returned
  · cases h
    exact SignOutcome.goOn ..
  · split at h
    · split at h <;> cases h <;> exact SignOutcome.goOn ..
    · cases h
  · cases h
    unfold stateRead
    dsimp only
    split <;> exact SignOutcome.goOn ..
  · cases h
    exact SignOutcome.goOn ..
  · split at h
    · split at h <;> cases h <;> exact SignOutcome.goOn ..
    · cases h
  · cases h
    exact SignOutcome.pageLost ..
  · cases h
    exact signatureRead_outcome ..
  · cases h
    exact .returned
  · cases h

/-- What one await of a candidate signer's task can end in. -/
inductive Outcome (now : ℕ) (st : Statics) : Task → Event → Resumed → Prop
  | probed (attempt : ℕ) (e : Event) (reset : Bytes resetLen) (es : List SignerEffect)
      (hes : es = [.serve] ∨ es = []) :
      Outcome now st (.probe attempt) e
        ({ st with state := { st.state with reset := reset } }, .receive, es)
  | probing (t : Task) (e : Event) (t' : Task) (ht : ¬ t.Busy) (ht' : ¬ t'.Busy) :
      Outcome now st t e (goOn st t' [])
  | reset : Outcome now st .receive (.command .reset) (goOn st .reset [])
  | nonce (page : Packet) : Outcome now st .receive (.command (.nonce page))
      (goOn (storePage page st) (.setNonce page) [])
  | resetDone (e : Event) : Outcome now st .reset e (st, .receive, [])
  | pageDone (page : Packet) (r : Option (List UInt8)) (st' : Statics)
      (hf : finishPage page r.isSome st = (st', none)) :
      Outcome now st (.setNonce page) (.reply r) (st', .receive, [.pageSent r.isSome])
  | signs (page : Packet) (r : Option (List UInt8)) (st' : Statics) (resend : Bool)
      (hf : finishPage page r.isSome st = (st', some resend)) :
      Outcome now st (.setNonce page) (.reply r)
        (goOn st' (sign resend now) [.pageSent r.isSome, .sign resend])
  | signing (attempt : ℕ) (step : SignStep) (e : Event) (r : Resumed)
      (h : resumeSign now st attempt step e = some r) (hr : SignOutcome st r) :
      Outcome now st (.sign attempt step) e r

theorem resume_outcome {role : Role} {now : ℕ} {st : Statics} {t : Task} {e : Event}
    {r : Resumed} (h : resume role now st t e = some r) : Outcome now st t e r := by
  unfold resume at h
  split at h
  · cases h
    refine .probed _ _ _ _ ?_
    split <;> simp [Task.transfer]
  · split at h <;> cases h
    · exact .probing _ _ _ id id
    · refine .probing _ _ _ id ?_
      split <;> exact id
  · split at h <;> cases h
    exact .probing _ _ _ id id
  · cases h
    exact .reset
  · cases h
    exact .nonce _
  · cases h
    exact .resetDone _
  · split at h <;> cases h
    · next hf => exact .pageDone _ _ _ hf
    · next hf => exact .signs _ _ _ _ hf
  · exact .signing _ _ _ _ h (resumeSign_outcome h)
  · cases h

/-- Only a task in `serve` takes commands. -/
theorem resume_command {role : Role} {now : ℕ} {st : Statics} {t : Task} {cmd : Cmd}
    {r : Resumed} (h : resume role now st t (.command cmd) = some r) :
    t = .receive ∧ r = goOn (begin cmd st).1 (begin cmd st).2 [] := by
  cases t <;> cases cmd <;> simp only [resume, resumeSign, reduceCtorEq, Option.some.injEq] at h
  · exact ⟨rfl, h.symm⟩
  · exact ⟨rfl, h.symm⟩

@[simp]
theorem storePage_state (page : Packet) (st : Statics) :
    (storePage page st).state = st.state := by
  unfold storePage
  split
  · rfl
  · split <;> rfl

@[simp]
theorem storePage_nonceRefused (page : Packet) (st : Statics) :
    (storePage page st).nonceRefused = st.nonceRefused := by
  unfold storePage
  split
  · rfl
  · split <;> rfl

/-- `handle` after `set_nonce` touches nothing but the refused flag, and calls `sign`
for a last page only. -/
theorem finishPage_spec {page : Packet} {accepted : Bool} {st st' : Statics}
    {sg : Option Bool} (h : finishPage page accepted st = (st', sg)) :
    st'.state = st.state ∧ st'.nonce = st.nonce ∧
      (sg ≠ none → pageOf page = some lastNoncePage) := by
  unfold finishPage at h
  dsimp only at h
  split at h
  · next hl =>
    cases h
    exact ⟨rfl, rfl, fun _ => hl⟩
  · split at h <;> cases h <;> exact ⟨rfl, rfl, fun hn => absurd rfl hn⟩

/-- The pages kept are changed by nothing but a command that is taken. -/
theorem Outcome.keeps_nonce {now : ℕ} {st : Statics} {t : Task} {e : Event} {r : Resumed}
    (h : Outcome now st t e r) (he : ∀ cmd, e ≠ .command cmd) : r.1.nonce = st.nonce := by
  cases h with
  | reset => exact absurd rfl (he .reset)
  | nonce page => exact absurd rfl (he (.nonce page))
  | probed | probing | resetDone => rfl
  | pageDone page r st' hf | signs page r st' resend hf => exact (finishPage_spec hf).2.1
  | signing attempt step e r hres hr => cases hr <;> rfl

theorem begin_handles (cmd : Cmd) (st : Statics) : (begin cmd st).2.Handles cmd := by
  cases cmd <;> rfl

theorem begin_state (cmd : Cmd) (st : Statics) : (begin cmd st).1.state = st.state := by
  cases cmd
  · rfl
  · exact storePage_state ..

/-- What is kept of the pages depends on nothing else. -/
theorem begin_nonce_congr (cmd : Cmd) {st st' : Statics} (h : st.nonce = st'.nonce) :
    (begin cmd st).1.nonce = (begin cmd st').1.nonce := by
  cases cmd with
  | reset => exact h
  | nonce page =>
    simp only [begin, storePage]
    split
    · exact h
    · split
      · rw [h]
      · exact h

theorem sign_eq (resend : Bool) (now : ℕ) : ∃ step, sign resend now = .sign 1 step := by
  unfold sign fetchSignature
  split <;> exact ⟨_, rfl⟩

end WheelBridge.Auth
