import WheelBridge.SignSteps
import WheelBridge.SignTrace

/-!
Where an attempt of `sign` stands in the trace of its call, and what it may therefore do
next: the law of the requests a signer is sent, however it answers and whenever.
-/
namespace WheelBridge.Auth

section Traces

variable {x : Exchange} {xs : List Exchange}

theorem pollsOf_cons (hx : x.isState = true) : pollsOf (x :: xs) = x :: pollsOf xs :=
  List.takeWhile_cons_of_pos hx

theorem pollsOf_other (hx : x.isState = false) : pollsOf (x :: xs) = [] :=
  List.takeWhile_cons_of_neg (by simp [hx])

theorem readsOf_cons (hx : x.isSignature = true) : readsOf (x :: xs) = x :: readsOf xs :=
  List.takeWhile_cons_of_pos hx

theorem readsOf_other (hx : x.isSignature = false) : readsOf (x :: xs) = [] :=
  List.takeWhile_cons_of_neg (by simp [hx])

theorem pollsBefore_cons (hx : x.isSignature = true) : pollsBefore (x :: xs) = pollsBefore xs := by
  unfold pollsBefore
  rw [List.dropWhile_cons_of_pos hx]

theorem pollsBefore_other (hx : x.isSignature = false) :
    pollsBefore (x :: xs) = pollsOf (x :: xs) := by
  unfold pollsBefore
  rw [List.dropWhile_cons_of_neg (by simp [hx])]

theorem fetches_other (hx : x.isState = false) : fetches (x :: xs) = fetches xs := by
  simp [fetches, hx]

theorem isSignature_of_isState (hx : x.isState = true) : x.isSignature = false := by
  simp only [Exchange.isState, decide_eq_true_eq] at hx
  simp only [Exchange.isSignature, hx]
  decide

theorem isState_of_isSignature (hx : x.isSignature = true) : x.isState = false := by
  by_contra hne
  rw [isSignature_of_isState (by simpa using hne)] at hx
  cases hx

/-- The pages read before another one are where they were. -/
theorem pageBuffer_cons (k : ℕ) (hk : k < xs.length) :
    pageBuffer (x :: xs) k = pageBuffer xs k := by
  unfold pageBuffer
  rw [List.reverse_cons, List.getElem?_append_left (by rw [List.length_reverse]; exact hk)]

theorem pageBuffer_last : pageBuffer (x :: xs) xs.length = Bytes.zero.write (x.reply.getD []) := by
  unfold pageBuffer
  rw [List.reverse_cons, List.getElem?_append_right (by simp), List.length_reverse]
  simp

/-- Past the pages read the buffers are as they were made. -/
theorem pageBuffer_past (k : ℕ) (hk : xs.length ≤ k) : pageBuffer xs k = Bytes.zero := by
  unfold pageBuffer
  rw [List.getElem?_eq_none (by rw [List.length_reverse]; exact hk)]
  rfl

theorem Sent.congr {nonce nonce' : Fin noncePages → Bytes nonceLen} (h : Sent nonce 0 xs) :
    Sent nonce' 0 xs := by
  cases xs with
  | nil => exact h
  | cons x xs => exact h

end Traces

namespace Call

def add (c : Call) (x : Exchange) : Call := { c with trace := x :: c.trace }

/-- The attempt has not begun to poll. -/
def Between (c : Call) (attempt : ℕ) : Prop :=
  fetches c.trace + 1 = attempt ∧ pollsOf c.trace = []

/-- The attempt has polled, and `poll` is what it remembers. -/
structure Polled (c : Call) (attempt : ℕ) (poll : Poll) : Prop where
  ne_nil : pollsOf c.trace ≠ []
  count : fetches c.trace = attempt
  state : poll.state = stateBuffer (pollsOf c.trace)
  seen : poll.seenSigning = signingSeen (pollsOf c.trace)
  began : pollingBegan (pollsOf c.trace) = some poll.start

/-- The attempt polls, with a GET F2 under way since `issued`. -/
def Polling (c : Call) (attempt : ℕ) (poll : Poll) (issued : ℕ) : Prop :=
  c.Polled attempt poll ∨ c.Between attempt ∧ poll = ⟨issued, Bytes.zero, false⟩

/-- The attempt has believed `poll` and read the first `i` pages. -/
structure Reading (c : Call) (attempt : ℕ) (poll : Poll)
    (pages : Fin signaturePages → Bytes signatureLen) (i : ℕ) : Prop where
  count : fetches c.trace = attempt
  numbered : Numbered (readsOf c.trace)
  length : (readsOf c.trace).length = i
  pages : ∀ k : Fin signaturePages, pages k = pageBuffer (readsOf c.trace) k
  believed : Believed (pollsBefore c.trace)
  state : poll.state = stateBuffer (pollsBefore c.trace)

variable {c : Call} {attempt : ℕ} {poll : Poll} {issued now : ℕ}

theorem Between.add (h : c.Between attempt) {x : Exchange} (hx : x.isState = false) :
    (c.add x).Between attempt := by
  refine ⟨?_, pollsOf_other hx⟩
  change fetches (x :: c.trace) + 1 = attempt
  rw [fetches_other hx]
  exact h.1

theorem mayIssue_reset (c : Call) (len : ℕ) : c.MayIssue (.get idReset len) :=
  ⟨fun h => absurd h (by decide), fun h => absurd h (by decide)⟩

theorem MayPoll.mayIssue (h : c.MayPoll) (len : ℕ) : c.MayIssue (.get idState len) :=
  ⟨fun _ => h, fun h => absurd h (by decide)⟩

theorem MayRead.mayIssue (h : c.MayRead) (len : ℕ) : c.MayIssue (.get idSignature len) :=
  ⟨fun h => absurd h (by decide), fun _ => h⟩

/-- A fetch may be begun, if this is not a resend or the nonce has been sent again. -/
theorem Between.mayPoll (h : c.Between attempt) (hle : attempt ≤ signAttempts)
    (hsent : 0 < fetches c.trace ∨ c.resend = true → Sent c.nonce noncePages c.trace) :
    c.MayPoll := by
  have hcount := h.1
  refine Or.inr ⟨?_, hsent⟩
  omega

/-- What the polls say after one more. -/
theorem signingSeen_some {x : Exchange} {polls : List Exchange} {bytes : List UInt8}
    (hr : x.reply = some bytes) (hstate : poll.state = stateBuffer polls)
    (hseen : poll.seenSigning = signingSeen polls) :
    (poll.read bytes).state = stateBuffer (x :: polls) ∧
      (poll.read bytes).seenSigning = signingSeen (x :: polls) := by
  have hbuffer : (poll.read bytes).state = stateBuffer (x :: polls) := by
    simp only [stateBuffer, hr, Poll.read, hstate]
  refine ⟨hbuffer, ?_⟩
  rw [signingSeen, ← hbuffer, hr, ← hseen, Option.isSome_some, Bool.true_and]
  rfl

/-- The reply to a GET F2 that polling was waiting for. -/
theorem Polling.ended (h : c.Polling attempt poll issued) {x : Exchange}
    (hx : x.isState = true) (hi : x.issued = issued) :
    (c.add x).Polled attempt (x.reply.elim poll poll.read) := by
  have hpolls : pollsOf (c.add x).trace = x :: pollsOf c.trace := pollsOf_cons hx
  have hstart : (x.reply.elim poll poll.read).start = poll.start := by
    cases x.reply <;> rfl
  have hcount : fetches (c.add x).trace = attempt := by
    change fetches (x :: c.trace) = attempt
    rcases h with h | ⟨hbetween, -⟩
    · rw [fetches, if_neg fun hnew => h.ne_nil hnew.2, h.count]
    · rw [fetches, if_pos ⟨hx, hbetween.2⟩, hbetween.1]
  have hbegan : pollingBegan (x :: pollsOf c.trace) = some poll.start := by
    rcases h with h | ⟨hbetween, rfl⟩
    · rw [pollingBegan, List.getLast?_cons_of_ne_nil h.ne_nil]
      exact h.began
    · rw [hbetween.2, ← hi]
      rfl
  have hold : poll.state = stateBuffer (pollsOf c.trace) ∧
      poll.seenSigning = signingSeen (pollsOf c.trace) := by
    rcases h with h | ⟨hbetween, rfl⟩
    · exact ⟨h.state, h.seen⟩
    · rw [hbetween.2]
      exact ⟨rfl, rfl⟩
  have hnew : (x.reply.elim poll poll.read).state = stateBuffer (x :: pollsOf c.trace) ∧
      (x.reply.elim poll poll.read).seenSigning = signingSeen (x :: pollsOf c.trace) := by
    cases hr : x.reply with
    | none =>
      refine ⟨?_, ?_⟩
      · simp only [Option.elim_none, stateBuffer, hr, hold.1]
      · simp [signingSeen, hr, hold.2]
    | some bytes => exact signingSeen_some hr hold.1 hold.2
  constructor
  · rw [hpolls]
    simp
  · exact hcount
  · rw [hpolls]
    exact hnew.1
  · rw [hpolls]
    exact hnew.2
  · rw [hpolls, hstart]
    exact hbegan

/-- A poll that ends polling is believed by the rule on the trace. -/
theorem Polling.believed (h : c.Polling attempt poll issued) {x : Exchange}
    (hx : x.isState = true) (hi : x.issued = issued) {bytes : List UInt8}
    (hr : x.reply = some bytes) (hready : (poll.read bytes).Believes x.ended) :
    (c.add x).Reading attempt (poll.read bytes) (fun _ => Bytes.zero) 0 := by
  have hreads : readsOf (c.add x).trace = [] := readsOf_other (isSignature_of_isState hx)
  have hbefore : pollsBefore (c.add x).trace = x :: pollsOf c.trace := by
    change pollsBefore (x :: c.trace) = _
    rw [pollsBefore_other (isSignature_of_isState hx), pollsOf_cons hx]
  obtain ⟨-, hcount, hstate, hseen, hbegan⟩ := h.ended hx hi
  have hpolls : pollsOf (c.add x).trace = x :: pollsOf c.trace := pollsOf_cons hx
  rw [hr, hpolls] at hstate hseen hbegan
  obtain ⟨hzero, hwhen⟩ := hready
  constructor
  · exact hcount
  · rw [hreads]
    trivial
  · rw [hreads]
    rfl
  · intro k
    rw [hreads, pageBuffer_past _ (Nat.zero_le _)]
  · rw [hbefore]
    refine ⟨by rw [hr]; rfl, hstate ▸ hzero, ?_⟩
    rcases hwhen with hwhen | hwhen
    · -- The poll that says "ready" is not the one that said "signing".
      left
      rw [Option.elim_some] at hstate hseen
      rw [hseen, signingSeen, ← hstate, hzero] at hwhen
      simpa [stateReady, stateSigning] using hwhen
    · right
      exact ⟨_, hbegan, hwhen⟩
  · rw [hbefore]
    exact hstate

/-- The next page has come. -/
theorem Reading.page {pages : Fin signaturePages → Bytes signatureLen} {i : Fin signaturePages}
    (h : c.Reading attempt poll pages i) {x : Exchange} (hx : x.isSignature = true)
    {bytes : List UInt8} (hr : x.reply = some bytes)
    (hpage : ((pages i).write bytes).byte 2 = UInt8.ofNat i) :
    (c.add x).Reading attempt poll (Function.update pages i ((pages i).write bytes)) (i + 1) := by
  have hreads : readsOf (c.add x).trace = x :: readsOf c.trace := readsOf_cons hx
  have hbefore : pollsBefore (c.add x).trace = pollsBefore c.trace := pollsBefore_cons hx
  have hlength := h.length
  have hlast : pageBuffer (x :: readsOf c.trace) i = (pages i).write bytes := by
    have hempty : pages i = Bytes.zero := by
      rw [h.pages i, pageBuffer_past _ (by omega)]
    rw [← hlength, pageBuffer_last, hr, hempty, Option.getD_some]
  constructor
  · change fetches (x :: c.trace) = attempt
    rw [fetches_other (isState_of_isSignature hx), h.count]
  · rw [hreads]
    refine ⟨by rw [hr]; rfl, ?_, h.numbered⟩
    rw [hlength, hlast]
    exact hpage
  · rw [hreads, List.length_cons, hlength]
  · intro k
    rw [hreads]
    by_cases hk : k = i
    · rw [hk, Function.update_self, hlast]
    · rw [Function.update_of_ne hk, h.pages k]
      have hne : (k : ℕ) ≠ i := fun heq => hk (Fin.ext heq)
      rcases Nat.lt_or_gt_of_ne hne with hlt | hgt
      · rw [pageBuffer_cons _ (by omega)]
      · rw [pageBuffer_past _ (by omega), pageBuffer_past _ (by rw [List.length_cons]; omega)]
  · rw [hbefore]
    exact h.believed
  · rw [hbefore]
    exact h.state

/-- The last page has come. -/
theorem Reading.last {pages : Fin signaturePages → Bytes signatureLen} {i : Fin signaturePages}
    (h : c.Reading attempt poll pages i) {x : Exchange} (hx : x.isSignature = true)
    {bytes : List UInt8} (hr : x.reply = some bytes)
    (hpage : ((pages i).write bytes).byte 2 = UInt8.ofNat i) (hi : ¬ i + 1 < signaturePages) :
    (c.add x).Reading attempt poll (Function.update pages i ((pages i).write bytes))
      signaturePages := by
  have hlast : (i : ℕ) + 1 = signaturePages := by
    have hlt := i.isLt
    omega
  have hreading := h.page hx hr hpage
  rwa [hlast] at hreading

/-- A page is lost, and with it the attempt. -/
theorem Reading.lost {pages : Fin signaturePages → Bytes signatureLen} {i : ℕ}
    (h : c.Reading attempt poll pages i) {x : Exchange} (hx : x.isSignature = true) :
    (c.add x).Between (attempt + 1) := by
  refine ⟨?_, pollsOf_other (isState_of_isSignature hx)⟩
  change fetches (x :: c.trace) + 1 = attempt + 1
  rw [fetches_other (isState_of_isSignature hx), h.count]

theorem Reading.mayRead {pages : Fin signaturePages → Bytes signatureLen} {i : ℕ}
    (h : c.Reading attempt poll pages i) (hi : i < signaturePages) : c.MayRead :=
  ⟨h.numbered, h.length ▸ hi, h.believed⟩

theorem Reading.complete {pages : Fin signaturePages → Bytes signatureLen}
    (h : c.Reading attempt poll pages signaturePages) : c.Complete :=
  ⟨h.numbered, h.length, h.believed⟩

end Call

/-- Where an attempt stands in the trace of its call; `issued` is when the transfer it
awaits was issued. -/
def SignStep.Traced (c : Call) (attempt issued : ℕ) : SignStep → Prop
  | .resignPause _ | .resetSigner => c.Between attempt
  | .resetSettle _ => c.Between attempt ∧ Sent c.nonce 0 c.trace
  | .setNonce pages i => c.Between attempt ∧ c.nonce = pages ∧ Sent c.nonce i c.trace
  | .noncePageGap pages i _ => c.Between attempt ∧ c.nonce = pages ∧ Sent c.nonce (i + 1) c.trace
  | .getState poll => c.Polling attempt poll issued
  | .pollPause poll _ => c.Polled attempt poll
  | .getSignature poll pages i => c.Reading attempt poll pages i
  | .giveUp => True

/-- What a task is doing, told from its device's line. -/
structure Task.Traced (t : Task) (l : Line) : Prop where
  pending : l.pending.map Prod.fst = t.transfer
  signing : ∀ attempt step, t = .sign attempt step → ∃ c, l.call = some c ∧
    attempt ≤ signAttempts ∧ step.Traced c attempt ((l.pending.map Prod.snd).getD 0)
  /-- A call is over when the next command is taken. -/
  other : (∀ attempt step, t ≠ .sign attempt step) → t ≠ .receive → l.call = none

namespace Line

/-- What a signer does next is in order with its call of `sign`. -/
def InOrder (l : Line) : SignerEffect → Prop
  | .transfer x => ∀ c, l.call = some c → c.MayIssue x
  | .publish => ∃ c, l.call = some c ∧ c.Complete
  | .serve | .pageSent _ | .sign _ | .copyNonce => True

/-- The line after the event that resumed its task. -/
def resumed (now : ℕ) (l : Line) : Event → Line
  | .reply r => l.ended now r
  | .command _ => init
  | .timer => l

theorem ended_pending (now : ℕ) (r : Option (List UInt8)) (l : Line) :
    (l.ended now r).pending = none := by
  unfold ended
  split
  · assumption
  · rfl

end Line

theorem Line.ended_eq {l : Line} {x : Transfer} {issued : ℕ} {c : Call} (now : ℕ)
    (r : Option (List UInt8)) (hp : l.pending = some (x, issued)) (hc : l.call = some c) :
    l.ended now r = ⟨none, some (c.add ⟨x, issued, r, now⟩)⟩ := by
  simp only [ended, hp, hc, Option.map_some, Call.add]

namespace Task.Traced

variable {l : Line} {attempt : ℕ} {step : SignStep} {c : Call}

theorem of_sign (hp : l.pending.map Prod.fst = (Task.sign attempt step).transfer)
    (hc : l.call = some c) (hle : attempt ≤ signAttempts)
    (h : step.Traced c attempt ((l.pending.map Prod.snd).getD 0)) :
    (Task.sign attempt step).Traced l := by
  refine ⟨hp, ?_, fun hne => absurd rfl (hne attempt step)⟩
  intro attempt' step' heq
  cases heq
  exact ⟨c, hc, hle, h⟩

theorem receive (hp : l.pending = none) : Task.receive.Traced l := by
  refine ⟨?_, ?_, fun _ hne => absurd rfl hne⟩
  · rw [hp]
    rfl
  · intro attempt step heq
    cases heq

/-- The transfer a task awaits is under way. -/
theorem under_way {t : Task} (h : t.Traced l) {x : Transfer} (hx : t.transfer = some x) :
    ∃ issued, l.pending = some (x, issued) := by
  have hp := h.pending
  rw [hx, Option.map_eq_some_iff] at hp
  obtain ⟨⟨y, issued⟩, hpending, rfl⟩ := hp
  exact ⟨issued, hpending⟩

end Task.Traced

/-- Every await of `sign` keeps to what its call may do. -/
theorem SignStepped.traced {now : ℕ} {st : Statics} {attempt : ℕ} {step : SignStep} {e : Event}
    {r : Resumed} (h : SignStepped now st attempt step e r) {l : Line}
    (hl : (Task.sign attempt step).Traced l) :
    Each (Line.watch now st.nonce) Line.InOrder (l.resumed now e) r.2.2 ∧
      r.2.1.Traced (r.2.2.foldl (Line.watch now st.nonce) (l.resumed now e)) := by
  obtain ⟨c, hc, hle, htraced⟩ := hl.signing attempt step rfl
  cases h with
  | paused wake hwake =>
    refine ⟨⟨?_, trivial⟩, .of_sign rfl hc hle htraced⟩
    exact fun c' _ => c'.mayIssue_reset resetLen
  | signerReset r =>
    obtain ⟨issued, hp⟩ := hl.under_way (x := .get idReset resetLen) rfl
    simp only [Line.resumed, Line.ended_eq now r hp hc]
    refine ⟨trivial, .of_sign rfl rfl hle ⟨htraced.add rfl, rfl⟩⟩
  | copied wake hwake =>
    obtain ⟨hbetween, hsent⟩ := htraced
    have hcall : (l.watch now st.nonce .copyNonce).call = some { c with nonce := st.nonce } := by
      simp only [Line.watch, hc, Option.map_some]
    refine ⟨⟨trivial, fun _ _ => trivial, trivial⟩, .of_sign rfl hcall hle ?_⟩
    exact ⟨hbetween, rfl, hsent.congr⟩
  | pageRefused pages i => exact ⟨trivial, .receive (Line.ended_pending now none l)⟩
  | pageTaken pages i bytes =>
    obtain ⟨issued, hp⟩ := hl.under_way (x := .setNonce (pages i).toList) rfl
    obtain ⟨hbetween, rfl, hsent⟩ := htraced
    simp only [Line.resumed, Line.ended_eq now _ hp hc]
    refine ⟨trivial, .of_sign rfl rfl hle ⟨hbetween.add rfl, rfl, ?_⟩⟩
    exact ⟨⟨i, rfl, rfl⟩, rfl, hsent⟩
  | nextPage pages i wake hwake hi =>
    exact ⟨⟨fun _ _ => trivial, trivial⟩, .of_sign rfl hc hle htraced⟩
  | resent pages i wake hwake hi =>
    obtain ⟨hbetween, rfl, hsent⟩ := htraced
    have hall : (i : ℕ) + 1 = noncePages := by
      have hlt := i.isLt
      omega
    refine ⟨⟨?_, trivial⟩, .of_sign rfl hc hle (Or.inr ⟨hbetween, rfl⟩)⟩
    intro c' hc'
    cases hc.symm.trans hc'
    exact (hbetween.mayPoll hle fun _ => hall ▸ hsent).mayIssue stateLen
  | ready poll bytes hready =>
    obtain ⟨issued, hp⟩ := hl.under_way (x := .get idState stateLen) rfl
    rw [hp] at htraced
    have hreading := Call.Polling.believed htraced
      (x := ⟨.get idState stateLen, issued, some bytes, now⟩) rfl rfl rfl hready
    simp only [Line.resumed, Line.ended_eq now _ hp hc]
    refine ⟨⟨?_, trivial⟩, .of_sign rfl rfl hle hreading⟩
    intro c' hc'
    cases hc'
    exact (hreading.mayRead signaturePages_pos).mayIssue signatureLen
  | polled poll bytes hready =>
    obtain ⟨issued, hp⟩ := hl.under_way (x := .get idState stateLen) rfl
    rw [hp] at htraced
    simp only [Line.resumed, Line.ended_eq now _ hp hc]
    exact ⟨trivial, .of_sign rfl rfl hle (Call.Polling.ended htraced
      (x := ⟨.get idState stateLen, issued, some bytes, now⟩) rfl rfl)⟩
  | stateLost poll =>
    obtain ⟨issued, hp⟩ := hl.under_way (x := .get idState stateLen) rfl
    rw [hp] at htraced
    simp only [Line.resumed, Line.ended_eq now _ hp hc]
    exact ⟨trivial, .of_sign rfl rfl hle (Call.Polling.ended htraced
      (x := ⟨.get idState stateLen, issued, none, now⟩) rfl rfl)⟩
  | timedOut poll wake hwake hlate =>
    refine ⟨⟨?_, trivial⟩, .of_sign rfl hc hle trivial⟩
    exact fun c' _ => c'.mayIssue_reset resetLen
  | pollAgain poll wake hwake hlate =>
    refine ⟨⟨?_, trivial⟩, .of_sign rfl hc hle (Or.inl htraced)⟩
    intro c' hc'
    cases hc.symm.trans hc'
    exact Call.MayPoll.mayIssue (Or.inl htraced.ne_nil) stateLen
  | signAgain poll pages i r hlost hleft =>
    obtain ⟨issued, hp⟩ := hl.under_way (x := .get idSignature signatureLen) rfl
    simp only [Line.resumed, Line.ended_eq now _ hp hc]
    exact ⟨trivial, .of_sign rfl rfl hleft (Call.Reading.lost htraced rfl)⟩
  | usedUp poll pages i r hlost hleft =>
    obtain ⟨issued, hp⟩ := hl.under_way (x := .get idSignature signatureLen) rfl
    simp only [Line.resumed, Line.ended_eq now _ hp hc]
    refine ⟨⟨?_, trivial⟩, .of_sign rfl rfl hle trivial⟩
    exact fun c' _ => c'.mayIssue_reset resetLen
  | pageRead poll pages i bytes hpage hi =>
    obtain ⟨issued, hp⟩ := hl.under_way (x := .get idSignature signatureLen) rfl
    have hreading := Call.Reading.page htraced
      (x := ⟨.get idSignature signatureLen, issued, some bytes, now⟩) rfl rfl hpage
    simp only [Line.resumed, Line.ended_eq now _ hp hc]
    refine ⟨⟨?_, trivial⟩, .of_sign rfl rfl hle hreading⟩
    intro c' hc'
    cases hc'
    exact (hreading.mayRead hi).mayIssue signatureLen
  | published poll pages i bytes hpage hi =>
    obtain ⟨issued, hp⟩ := hl.under_way (x := .get idSignature signatureLen) rfl
    have hreading := Call.Reading.last htraced
      (x := ⟨.get idSignature signatureLen, issued, some bytes, now⟩) rfl rfl hpage hi
    simp only [Line.resumed, Line.ended_eq now _ hp hc]
    exact ⟨⟨⟨_, rfl, hreading.complete⟩, trivial⟩, .receive rfl⟩
  | gaveUp r => exact ⟨trivial, .receive (Line.ended_pending now r l)⟩

end WheelBridge.Auth
