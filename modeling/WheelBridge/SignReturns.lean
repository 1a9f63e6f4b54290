import WheelBridge.AuthFreshness
import WheelBridge.SignRuns

/-!
How a call of `sign` ends without a publication. It may give up on a signer that never
became ready, or once every attempt has lost a page, and leaves the signer reset; a page
it resends that the signer refuses ends it too, with nothing cleaned up.
-/
namespace WheelBridge.Auth

/-- No reply to a GET F1, or another page than the next one. -/
def Lost (x : Exchange) (xs : List Exchange) : Prop :=
  x.isSignature = true ∧ ∀ bytes ∈ x.reply,
    ((Bytes.zero : Bytes signatureLen).write bytes).byte 2 ≠ UInt8.ofNat (readsOf xs).length

instance (x : Exchange) (xs : List Exchange) : Decidable (Lost x xs) :=
  inferInstanceAs (Decidable (_ ∧ _))

def lostPages : List Exchange → ℕ
  | [] => 0
  | x :: xs => if Lost x xs then lostPages xs + 1 else lostPages xs

instance decidableBelieved : ∀ polls, Decidable (Believed polls)
  | [] => inferInstanceAs (Decidable False)
  | x :: xs => inferInstanceAs (Decidable (_ ∧ _ ∧ (_ ∨ ∃ start ∈ pollingBegan (x :: xs), _)))

/-- None of the polls was believed. -/
def Unready : List Exchange → Prop
  | [] => True
  | x :: xs => ¬ Believed (x :: xs) ∧ Unready xs

instance decidableUnready : ∀ polls, Decidable (Unready polls)
  | [] => inferInstanceAs (Decidable True)
  | x :: xs =>
    have : Decidable (Unready xs) := decidableUnready xs
    inferInstanceAs (Decidable (¬ Believed (x :: xs) ∧ Unready xs))

/-- The trace ends with the polls of an attempt that were not believed, until at `now` the
timeout was over. -/
def NeverReady (now : ℕ) (trace : List Exchange) : Prop :=
  Unready (pollsOf trace) ∧ ∃ start ∈ pollingBegan (pollsOf trace), signerTimeout ≤ now - start

instance (now : ℕ) (trace : List Exchange) : Decidable (NeverReady now trace) :=
  inferInstanceAs (Decidable (_ ∧ ∃ start ∈ pollingBegan (pollsOf trace), _))

/-- The last request was GET F3, after an attempt in which the signer never became ready
or after every attempt had lost a page. -/
def GivenUp : List Exchange → Prop
  | [] => False
  | x :: xs => x.transfer = .get idReset resetLen ∧
      (NeverReady x.issued xs ∨ lostPages xs = signAttempts)

instance decidableGivenUp : ∀ trace, Decidable (GivenUp trace)
  | [] => inferInstanceAs (Decidable False)
  | _ :: _ => inferInstanceAs (Decidable (_ ∧ (_ ∨ _)))

def Task.inSign : Task → Bool
  | .sign _ _ => true
  | _ => false

/-- A call of `sign` on device `i` returns. -/
def SignReturns (i : ℕ) (s t : System) : Prop :=
  (s.signers i).map Task.inSign = some true ∧ (t.signers i).map Task.inSign = some false

instance (i : ℕ) (s t : System) : Decidable (SignReturns i s t) :=
  inferInstanceAs (Decidable (_ ∧ _))

/-- Where a call of `sign` on device `i` returns without a publication, it was given up and
the signer reset. -/
def ReturnsReset (i : ℕ) (s : System) (m : Lines) (es : List (Act ⊕ Effect)) (t : System) : Prop :=
  SignReturns i s t → .inr (.signer i .publish) ∉ es →
    ∃ c ∈ ((es.foldl Lines.watch m).line i).call, GivenUp c.trace

/-- No transfer of a nonce page that `sign` resends fails. -/
def PagesTaken (i : ℕ) (s : System) (_ : Lines) (es : List (Act ⊕ Effect)) (_ : System) : Prop :=
  .inl (.reply i none) ∈ es →
    ∀ attempt pages k, s.signers i ≠ some (.sign attempt (.setNonce pages k))

section Traces

variable {x : Exchange} {xs : List Exchange}

theorem lostPages_lost (h : Lost x xs) : lostPages (x :: xs) = lostPages xs + 1 :=
  if_pos h

theorem lostPages_other (h : ¬ Lost x xs) : lostPages (x :: xs) = lostPages xs :=
  if_neg h

theorem not_lost (hx : x.isSignature = false) : ¬ Lost x xs := by
  intro h
  rw [h.1] at hx
  cases hx

end Traces

namespace Call

variable {c : Call} {attempt : ℕ} {poll : Poll} {issued : ℕ}

theorem lost_before (c : Call) {x : Exchange} (hx : x.isSignature = false)
    (h : lostPages c.trace + 1 = attempt) : lostPages (c.add x).trace + 1 = attempt :=
  (congrArg (· + 1) (lostPages_other (not_lost hx))).trans h

/-- A poll that polling goes on after is not believed by the rule on the trace. -/
theorem Polling.unready (h : c.Polling attempt poll issued) (hun : Unready (pollsOf c.trace))
    {x : Exchange} (hx : x.isState = true) (hi : x.issued = issued)
    (hready : ∀ bytes ∈ x.reply, ¬ (poll.read bytes).Believes x.ended) :
    Unready (pollsOf (c.add x).trace) := by
  have hpolls : pollsOf (c.add x).trace = x :: pollsOf c.trace := pollsOf_cons hx
  obtain ⟨-, -, hstate, hseen, hbegan⟩ := h.ended hx hi
  rw [hpolls] at hstate hseen hbegan ⊢
  refine ⟨?_, hun⟩
  intro hbelieved
  obtain ⟨hsome, hzero, hwhen⟩ := hbelieved
  obtain ⟨bytes, hr⟩ := Option.isSome_iff_exists.mp hsome
  rw [hr, Option.elim_some] at hstate hseen
  refine hready bytes hr ⟨by rw [hstate]; exact hzero, ?_⟩
  rcases hwhen with hwhen | ⟨start, hstart, hgrace⟩
  · left
    rw [hseen, signingSeen, hwhen, Bool.true_or]
  · right
    rw [hr, Option.elim_some, Option.mem_def.mp hstart, Option.some.injEq] at hbegan
    have hstart' : (poll.read bytes).start = start := hbegan.symm
    rw [hstart']
    exact hgrace

/-- A read loses a page just where the code finds that it is not the next one. -/
theorem Reading.lost_iff {pages : Fin signaturePages → Bytes signatureLen}
    {i : Fin signaturePages} (h : c.Reading attempt poll pages i) {x : Exchange}
    (hx : x.isSignature = true) : Lost x c.trace ↔ NotPage (pages i) i x.reply := by
  have hempty : pages i = Bytes.zero := by
    rw [h.pages i, pageBuffer_past _ (by rw [h.length])]
  unfold Lost
  rw [h.length, hempty]
  cases x.reply <;> simp [NotPage, hx]

theorem Reading.lost_one {pages : Fin signaturePages → Bytes signatureLen}
    {i : Fin signaturePages} (h : c.Reading attempt poll pages i)
    (hcount : lostPages c.trace + 1 = attempt) {x : Exchange} (hx : x.isSignature = true)
    (hlost : NotPage (pages i) i x.reply) : lostPages (c.add x).trace = attempt :=
  (lostPages_lost ((h.lost_iff hx).mpr hlost)).trans hcount

theorem Reading.lost_none {pages : Fin signaturePages → Bytes signatureLen}
    {i : Fin signaturePages} (h : c.Reading attempt poll pages i)
    (hcount : lostPages c.trace + 1 = attempt) {x : Exchange} (hx : x.isSignature = true)
    (hpage : ¬ NotPage (pages i) i x.reply) : lostPages (c.add x).trace + 1 = attempt := by
  have hsame : lostPages (c.add x).trace = lostPages c.trace :=
    lostPages_other fun hlost => hpage ((h.lost_iff hx).mp hlost)
  rw [hsame, hcount]

end Call

/-- What an attempt has come to: each one before it has lost a page, and polls that go on
were not believed. -/
def SignStep.Stands (c : Call) (attempt issued : ℕ) : SignStep → Prop
  | .getState _ | .pollPause _ _ => lostPages c.trace + 1 = attempt ∧ Unready (pollsOf c.trace)
  | .giveUp => NeverReady issued c.trace ∨ lostPages c.trace = signAttempts
  | _ => lostPages c.trace + 1 = attempt

/-- The same of a task in `sign`, told from its device's line. -/
def Task.Stands (t : Task) (l : Line) : Prop :=
  ∀ attempt step, t = .sign attempt step → ∃ c, l.call = some c ∧
    step.Stands c attempt ((l.pending.map Prod.snd).getD 0)

theorem Task.Stands.of_sign {l : Line} {attempt : ℕ} {step : SignStep} {c : Call}
    (hc : l.call = some c) (h : step.Stands c attempt ((l.pending.map Prod.snd).getD 0)) :
    (Task.sign attempt step).Stands l := by
  intro attempt' step' heq
  cases heq
  exact ⟨c, hc, h⟩

theorem Task.Stands.other {t : Task} (ht : t.inSign = false) (l : Line) : t.Stands l := by
  intro attempt step heq
  subst heq
  cases ht

/-- What an attempt has come to, carried over one await. -/
theorem SignStepped.stands {now : ℕ} {st : Statics} {attempt : ℕ} {step : SignStep} {e : Event}
    {r : Resumed} (h : SignStepped now st attempt step e r) {l : Line}
    (hl : (Task.sign attempt step).Traced l) (hs : (Task.sign attempt step).Stands l) :
    r.2.1.Stands (r.2.2.foldl (Line.watch now st.nonce) (l.resumed now e)) := by
  obtain ⟨c, hc, hle, htraced⟩ := hl.signing attempt step rfl
  obtain ⟨c', hc', hstands⟩ := hs attempt step rfl
  obtain rfl : c = c' := Option.some.inj (hc.symm.trans hc')
  cases h with
  | pageRefused | published | gaveUp => exact .other rfl _
  | paused wake hwake => exact .of_sign hc hstands
  | copied wake hwake =>
    have hcall : (l.watch now st.nonce .copyNonce).call = some { c with nonce := st.nonce } := by
      simp only [Line.watch, hc, Option.map_some]
    exact .of_sign hcall hstands
  | nextPage pages i wake hwake hi => exact .of_sign hc hstands
  | pollAgain poll wake hwake hlate => exact .of_sign hc hstands
  | signerReset r =>
    obtain ⟨issued, hp⟩ := hl.under_way (x := .get idReset resetLen) rfl
    simp only [Line.resumed, Line.ended_eq now r hp hc]
    exact .of_sign rfl (c.lost_before rfl hstands)
  | pageTaken pages i bytes =>
    obtain ⟨issued, hp⟩ := hl.under_way (x := .setNonce (pages i).toList) rfl
    simp only [Line.resumed, Line.ended_eq now _ hp hc]
    exact .of_sign rfl (c.lost_before rfl hstands)
  | resent pages i wake hwake hi =>
    obtain ⟨hbetween, -, -⟩ := htraced
    refine .of_sign hc ⟨hstands, ?_⟩
    rw [hbetween.2]
    trivial
  | ready poll bytes hready =>
    obtain ⟨issued, hp⟩ := hl.under_way (x := .get idState stateLen) rfl
    simp only [Line.resumed, Line.ended_eq now _ hp hc]
    exact .of_sign rfl (c.lost_before rfl hstands.1)
  | polled poll bytes hready =>
    obtain ⟨issued, hp⟩ := hl.under_way (x := .get idState stateLen) rfl
    rw [hp] at htraced
    simp only [Line.resumed, Line.ended_eq now _ hp hc]
    refine .of_sign rfl ⟨c.lost_before rfl hstands.1, ?_⟩
    exact Call.Polling.unready htraced hstands.2 rfl rfl (by simpa using hready)
  | stateLost poll =>
    obtain ⟨issued, hp⟩ := hl.under_way (x := .get idState stateLen) rfl
    rw [hp] at htraced
    simp only [Line.resumed, Line.ended_eq now _ hp hc]
    refine .of_sign rfl ⟨c.lost_before rfl hstands.1, ?_⟩
    exact Call.Polling.unready htraced hstands.2 rfl rfl (by simp)
  | timedOut poll wake hwake hlate =>
    exact .of_sign hc (Or.inl ⟨hstands.2, poll.start, htraced.began, hlate⟩)
  | signAgain poll pages i r hlost hleft =>
    obtain ⟨issued, hp⟩ := hl.under_way (x := .get idSignature signatureLen) rfl
    simp only [Line.resumed, Line.ended_eq now _ hp hc]
    have hcount := Call.Reading.lost_one htraced hstands
      (x := ⟨.get idSignature signatureLen, issued, r, now⟩) rfl hlost
    exact .of_sign rfl (congrArg (· + 1) hcount)
  | usedUp poll pages i r hlost hleft =>
    obtain ⟨issued, hp⟩ := hl.under_way (x := .get idSignature signatureLen) rfl
    simp only [Line.resumed, Line.ended_eq now _ hp hc]
    have hcount := Call.Reading.lost_one htraced hstands
      (x := ⟨.get idSignature signatureLen, issued, r, now⟩) rfl hlost
    exact .of_sign rfl (Or.inr (hcount.trans (le_antisymm hle (not_lt.mp hleft))))
  | pageRead poll pages i bytes hpage hi =>
    obtain ⟨issued, hp⟩ := hl.under_way (x := .get idSignature signatureLen) rfl
    simp only [Line.resumed, Line.ended_eq now _ hp hc]
    exact .of_sign rfl (Call.Reading.lost_none htraced hstands
      (x := ⟨.get idSignature signatureLen, issued, some bytes, now⟩) rfl (not_not.mpr hpage))

/-- An await that ends `sign` was that of a refused page, or publishes, or gives up. -/
theorem SignStepped.returns {now : ℕ} {st : Statics} {attempt : ℕ} {step : SignStep} {e : Event}
    {r : Resumed} (h : SignStepped now st attempt step e r) (hend : r.2.1.inSign = false) {l : Line}
    (hl : (Task.sign attempt step).Traced l) (hs : (Task.sign attempt step).Stands l) :
    (∃ pages i, step = .setNonce pages i) ∧ e = .reply none ∨ .publish ∈ r.2.2 ∨
      ∃ c ∈ (r.2.2.foldl (Line.watch now st.nonce) (l.resumed now e)).call, GivenUp c.trace := by
  cases h with
  | pageRefused pages i => exact Or.inl ⟨⟨pages, i, rfl⟩, rfl⟩
  | published poll pages i bytes hpage hi => exact Or.inr (Or.inl (List.mem_singleton_self _))
  | gaveUp r =>
    obtain ⟨c, hc, hstands⟩ := hs attempt .giveUp rfl
    obtain ⟨issued, hp⟩ := hl.under_way (x := .get idReset resetLen) rfl
    rw [hp] at hstands
    refine Or.inr (Or.inr ?_)
    simp only [Line.resumed, Line.ended_eq now _ hp hc]
    exact ⟨_, rfl, rfl, hstands⟩
  | paused | signerReset | copied | pageTaken | nextPage | resent | ready | polled | stateLost
  | timedOut | pollAgain | signAgain | usedUp | pageRead => cases hend

theorem resume_stands {role : Role} {now : ℕ} {st : Statics} {t : Task} {e : Event}
    {r : Resumed} (h : resume role now st t e = some r) {l : Line} (hl : t.Traced l)
    (hs : t.Stands l) :
    r.2.1.Stands (r.2.2.foldl (Line.watch now st.nonce) (l.resumed now e)) := by
  cases resume_outcome h with
  | probed | reset | nonce | resetDone | pageDone => exact .other rfl _
  | probing t e t' ht ht' =>
    refine .other ?_ _
    cases t' with
    | sign => exact absurd trivial ht'
    | probe | probePause | notSigner | receive | reset | setNonce => rfl
  | signs page r st' resend hf =>
    cases resend with
    | true => exact .of_sign rfl rfl
    | false => exact .of_sign rfl ⟨rfl, trivial⟩
  | signing attempt step e r hstep hr => exact (resumeSign_stepped hstep).stands hl hs

/-- Where the task of a device is the same, no call of `sign` returns. -/
theorem not_signReturns {s t : System} {i : ℕ} (h : t.signers i = s.signers i) :
    ¬ SignReturns i s t := by
  intro hreturns
  obtain ⟨hbefore, hafter⟩ := hreturns
  rw [h] at hafter
  cases hbefore.symm.trans hafter

/-- A step in which no await ends leaves a device as it is, or puts no call of `sign` there
and ends none but by dropping it. -/
theorem acted_elsewhere {role : Role} {s t : System} {a : Act} {es : List Effect}
    (h : Acted role s a t es) (hact : a.ends = none) (m : Lines) (i : ℕ) :
    t.signers i = s.signers i ∧
        ((.inl a :: es.map .inr).foldl Lines.watch m).line i = m.line i ∨
      (t.signers i).map Task.inSign ≠ some true ∧ ¬ SignReturns i s t := by
  cases h with
  | elapse | ignored | nonceSet => exact Or.inl ⟨rfl, rfl⟩
  | get id hidle =>
    obtain ⟨⟨q, hsys⟩, hes⟩ := consoleGet_spec id s
    refine Or.inl ⟨by rw [hsys], congrFun (congrArg Lines.line (foldl_unheeded ?_)) i⟩
    intro e he
    rcases List.mem_cons.mp he with rfl | he
    · rfl
    · obtain ⟨f, hf, rfl⟩ := List.mem_map.mp he
      rcases hes f hf with rfl | rfl | rfl | rfl <;> rfl
  | send data hcon t es hsend =>
    obtain ⟨-, hsigners, hes⟩ := send_eq hsend
    refine Or.inl ⟨by rw [hsigners], ?_⟩
    rcases hes with rfl | rfl <;> rfl
  | attach j hj =>
    by_cases hij : i = j
    · subst hij
      exact Or.inr ⟨by simp [Task.inSign], by simp [SignReturns, hj]⟩
    · exact Or.inl ⟨Function.update_of_ne hij .., by simp [Lines.watch, hij]⟩
  | detach j task hj =>
    by_cases hij : i = j
    · subst hij
      exact Or.inr ⟨by simp, by simp [SignReturns]⟩
    · exact Or.inl ⟨Function.update_of_ne hij .., rfl⟩
  | receive j cmd q hj hq =>
    by_cases hij : i = j
    · subst hij
      refine Or.inr ⟨?_, by simp [SignReturns, hj, Task.inSign]⟩
      cases cmd <;> simp [begin, Task.inSign]
    · refine Or.inl ⟨Function.update_of_ne hij .., ?_⟩
      cases cmd <;> simp [Lines.watch, begin, Task.transfer, hij]
  | woke a j task e r ha hi hr =>
    rw [ha] at hact
    cases hact

/-- The await that an action ends is that of a task. -/
theorem acted_woke {role : Role} {s t : System} {a : Act} {es : List Effect}
    (h : Acted role s a t es) {i : ℕ} {e : Event} (ha : a.ends = some (i, e)) :
    ∃ task r, s.signers i = some task ∧ resume role s.now s.statics task e = some r ∧
      settle i s r = (t, es) := by
  cases h with
  | woke a j task e' r ha' hi hr =>
    cases ha'.symm.trans ha
    exact ⟨task, r, hi, hr, rfl⟩
  | elapse | get | ignored | nonceSet | send | attach | detach | receive => cases ha

/-- `sign` returns where an await of its own device ends, and nowhere else. -/
theorem SignReturns.ends {role : Role} {s t : System} {a : Act} {es : List Effect} {i : ℕ}
    (h : SignReturns i s t) (hacted : Acted role s a t es) : ∃ e, a.ends = some (i, e) := by
  cases hact : a.ends with
  | none =>
    rcases acted_elsewhere hacted hact Lines.init i with ⟨hsame, -⟩ | ⟨-, hnot⟩
    · exact absurd h (not_signReturns hsame)
    · exact absurd h hnot
  | some w =>
    obtain ⟨j, e⟩ := w
    obtain ⟨task, r, hj, -, hsettle⟩ := acted_woke hacted hact
    have hsigners := (settle_system j s r).2.2
    rw [hsettle] at hsigners
    by_cases hij : i = j
    · exact ⟨e, by rw [hij]⟩
    · have hsame : t.signers i = s.signers i := by
        rw [hsigners]
        exact Function.update_of_ne hij ..
      exact absurd h (not_signReturns hsame)

/-- Every task stands where its line tells. -/
structure Standing (s : System) (m : Lines) : Prop where
  tells : Tells s m
  stands : ∀ i t, s.signers i = some t → t.Stands (m.line i)

theorem standing_step {role : Role} {s t : System} {m : Lines} {a : Act}
    {es : List (Act ⊕ Effect)} (h : Standing s m)
    (hstep : (machine role).recorded.step s a = some (t, es)) :
    Standing t (es.foldl Lines.watch m) := by
  refine ⟨(tells_step h.tells hstep).1, ?_⟩
  obtain ⟨fs, hfs, rfl⟩ := Machine.recorded_step.mp hstep
  intro j u hj
  cases hact : a.ends with
  | none =>
    rcases acted_elsewhere (acted hfs) hact m j with ⟨hsame, hline⟩ | ⟨hnot, -⟩
    · rw [hline]
      exact h.stands j u (hsame ▸ hj)
    · refine .other ?_ _
      rw [hj, Option.map_some] at hnot
      simpa using hnot
  | some w =>
    obtain ⟨i, e⟩ := w
    obtain ⟨task, r, hi, hr, hsettle⟩ := acted_woke (acted hfs) hact
    have ht := (settle_system i s r).2.2
    have hfold := Tells.watch_woke hact s r m
    rw [hsettle] at ht hfold
    rw [ht] at hj
    rw [hfold, h.tells.now, h.tells.nonce]
    rcases update_some_eq_some.mp hj with ⟨rfl, rfl⟩ | ⟨hji, hj⟩
    · simp only [Function.update_self]
      exact resume_stands hr (h.tells.traced j task hi) (h.stands j task hi)
    · simp only [Function.update_of_ne hji]
      exact h.stands j u hj

/-- Where the await of a device ends, its call of `sign` returns given up if the await is
not that of a refused page. -/
theorem woke_returns_iff {role : Role} {s : System} {m : Lines} (h : Standing s m) {i : ℕ}
    {task : Task} (hi : s.signers i = some task) {e : Event} {r : Resumed}
    (hr : resume role s.now s.statics task e = some r) {a : Act} (ha : a.ends = some (i, e)) :
    ReturnsReset i s m (.inl a :: (settle i s r).2.map .inr) (settle i s r).1 ↔
      PagesTaken i s m (.inl a :: (settle i s r).2.map .inr) (settle i s r).1 := by
  have hline : ((.inl a :: (settle i s r).2.map .inr).foldl Lines.watch m).line i =
      r.2.2.foldl (Line.watch s.now s.statics.nonce) ((m.line i).resumed s.now e) := by
    rw [Tells.watch_woke ha, h.tells.now, h.tells.nonce]
    exact Function.update_self ..
  have hafter : (settle i s r).1.signers i = some r.2.1 := by
    rw [(settle_system i s r).2.2]
    exact Function.update_self ..
  have htraced := h.tells.traced i task hi
  unfold ReturnsReset
  rw [hline]
  constructor
  · intro hreset hmem attempt pages k hsign
    cases hi.symm.trans hsign
    have hrefused : a = .reply i none := by simpa [eq_comm] using hmem
    subst hrefused
    cases ha
    cases hr
    obtain ⟨c, hc, -⟩ := htraced.signing attempt _ rfl
    obtain ⟨issued, hp⟩ := htraced.under_way (x := .setNonce (pages k).toList) rfl
    obtain ⟨c', hc', hgiven⟩ := hreset ⟨by rw [hsign]; rfl, by rw [hafter]; rfl⟩
      (by simp [publish_mem_settle, goOn, Task.transfer])
    -- The last request was the nonce page.
    simp only [Line.resumed, Line.ended_eq _ _ hp hc] at hc'
    cases hc'
    cases hgiven.1
  · intro htaken hreturns hpublish
    obtain ⟨hbefore, hend⟩ := hreturns
    rw [hi] at hbefore
    rw [hafter] at hend
    cases task with
    | sign attempt step =>
      rcases (resumeSign_stepped hr).returns (Option.some.inj hend) htraced (h.stands i _ hi) with
        ⟨⟨pages, k, rfl⟩, rfl⟩ | hpub | hgiven
      · obtain rfl := Act.ends_reply ha
        exact absurd hi (htaken (List.mem_cons_self ..) attempt pages k)
      · exact absurd (List.mem_cons_of_mem _ (List.mem_map_of_mem
          (publish_mem_settle.mpr ⟨rfl, hpub⟩))) hpublish
      · exact hgiven
    | probe | probePause | notSigner | receive | reset | setNonce => cases hbefore

theorem step_returns_iff {role : Role} {s t : System} {m : Lines} {a : Act}
    {es : List (Act ⊕ Effect)} (h : Standing s m)
    (hstep : (machine role).recorded.step s a = some (t, es)) (i : ℕ) :
    ReturnsReset i s m es t ↔ PagesTaken i s m es t := by
  obtain ⟨fs, hfs, rfl⟩ := Machine.recorded_step.mp hstep
  by_cases hact : ∃ e, a.ends = some (i, e)
  · obtain ⟨e, ha⟩ := hact
    obtain ⟨task, r, hi, hr, hsettle⟩ := acted_woke (acted hfs) ha
    have hiff := woke_returns_iff h hi hr ha
    rwa [hsettle] at hiff
  · refine iff_of_true (fun hreturns => absurd (hreturns.ends (acted hfs)) hact) ?_
    intro hmem
    have hrefused : a = .reply i none := by simpa [eq_comm] using hmem
    subst hrefused
    exact absurd ⟨_, rfl⟩ hact

theorem standing_init : Standing System.init Lines.init := by
  refine ⟨tells_init, ?_⟩
  intro i t hi
  cases hi

/-- In every run each call of `sign` that returns without a publication gave up, on a
signer that never became ready or once every attempt had lost a page, and had reset the
signer last, if and only if no nonce page that it resent was refused. -/
theorem returns_reset_iff (role : Role) (i : ℕ) (as : List Act) :
    (machine role).recorded.Along Lines.watch (ReturnsReset i) System.init Lines.init as ↔
      (machine role).recorded.Along Lines.watch (PagesTaken i) System.init Lines.init as := by
  apply Machine.along_iff Standing
  · intro s m a es t h hstep _
    exact standing_step h hstep
  · intro s m a es t h hstep
    exact step_returns_iff h hstep i
  · exact standing_init

/-- The first page of the signature is lost, and the signer refuses the second of the nonce
pages it is sent again: no attempt follows, and it is left with one page. -/
def refusedResend : List Act :=
  [.attach 0, .reply 0 (some [0xf3, 0x00, 0x38, 0x38, 0x00, 0x00, 0x00, 0x00])] ++
  passPage 1 0 ++ passPage 1 1 ++ passPage 1 2 ++ passPage 1 3 ++ passPage 1 4 ++
  [.reply 0 (some ([idState, 0x04, stateSigning] ++ List.replicate 13 0)), .elapse 20, .timer 0,
    .reply 0 (some ([idState, 0x04, stateReady] ++ List.replicate 13 0)), .reply 0 none,
    .elapse 300, .timer 0, .reply 0 (some [0xf3, 0x00, 0x38, 0x38, 0x00, 0x00, 0x00, 0x00]),
    .elapse 50, .timer 0, .reply 0 (some []), .elapse 10, .timer 0, .reply 0 none]

instance decidableMemRecorded (e : Act ⊕ Effect) (es : List (Act ⊕ Effect)) :
    Decidable (e ∈ es) :=
  decidable_of_iff (∃ f ∈ es, f = e) exists_eq_right

instance (i : ℕ) (s : System) (m : Lines) (es : List (Act ⊕ Effect)) (t : System) :
    Decidable (ReturnsReset i s m es t) :=
  inferInstanceAs (Decidable (_ → _ → ∃ c ∈ ((es.foldl Lines.watch m).line i).call, _))

theorem refused_resend_not_reset :
    ((machine .wheel).recorded.run System.init refusedResend).isSome = true ∧
      ¬ (machine .wheel).recorded.Along Lines.watch (ReturnsReset 0) System.init Lines.init
        refusedResend := by
  decide +kernel

end WheelBridge.Auth
