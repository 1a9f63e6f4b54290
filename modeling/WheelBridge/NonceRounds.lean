import WheelBridge.AuthLedger

/-!
Which nonce a signing run is made for. A round is the F0 reports since the console's
last page 0. `sign` is called on the page number of one command alone, so the run is
for the whole of that round only if none of its pages was lost on the way.
-/
namespace WheelBridge.Auth

namespace Ledger

/-- The F0 report at a place in the log. -/
def report (m : Ledger) (j : ℕ) : Option (List UInt8) :=
  match m.log[j]? with
  | some (.nonce page) => some page.bytes
  | _ => none

/-- The report at `j` is the last one of nonce page `p`. -/
def Latest (m : Ledger) (p : Fin noncePages) (j : ℕ) : Prop :=
  (m.report j).bind (·[2]?) = some (UInt8.ofNat p) ∧
    ∀ l < m.log.length, j < l → (m.report l).bind (·[2]?) ≠ some (UInt8.ofNat p)

/-- All F0 reports since the last page 0 have the same nonce id, each page is among
them, and the last of each page has `P`. -/
def CurrentRound (m : Ledger) (P : Fin noncePages → ℕ → Prop) : Prop :=
  ∃ start < m.log.length, m.Latest ⟨0, noncePages_pos⟩ start ∧
    (∀ j < m.log.length, start ≤ j → m.report j = none ∨
      (m.report j).map (·[1]?) = (m.report start).map (·[1]?)) ∧
    ∀ p, ∃ j < m.log.length, start ≤ j ∧ m.Latest p j ∧ P p j

/-- Device `i` was given the pages of the round, and `NONCE` holds them. -/
def WholeNonce (m : Ledger) (i : ℕ) (nonce : Fin noncePages → Bytes nonceLen) : Prop :=
  m.CurrentRound fun p j => j ∈ m.given i ∧ m.report j = some (nonce p).toList

/-- The command at `j` was lost, or taken by another device than `i`, or by `i` before
it was last attached. -/
def Missed (m : Ledger) (i j : ℕ) : Prop :=
  j ∈ m.lost ∨ m.takenBy j ≠ none ∧ j ∉ m.given i

/-- The pages of the round are whole reports, sent up to the command device `i` acts on,
and missed by it in no way. -/
def NoneMissed (m : Ledger) (i : ℕ) : Prop :=
  m.CurrentRound fun _ j => (m.report j).map List.length = some nonceLen ∧
    (∀ k, m.serving i = some k → j ≤ k) ∧ ¬ m.Missed i j

theorem CurrentRound.imp {m : Ledger} {P P' : Fin noncePages → ℕ → Prop} (h : m.CurrentRound P)
    (himp : ∀ p j, m.Latest p j → P p j → P' p j) : m.CurrentRound P' := by
  obtain ⟨start, hstart, hfirst, hids, hpages⟩ := h
  refine ⟨start, hstart, hfirst, hids, ?_⟩
  intro p
  obtain ⟨j, hj, hle, hlatest, hp⟩ := hpages p
  exact ⟨j, hj, hle, hlatest, himp p j hlatest hp⟩

instance (m : Ledger) (p : Fin noncePages) (j : ℕ) : Decidable (m.Latest p j) :=
  inferInstanceAs (Decidable (_ ∧ _))

instance (m : Ledger) (i : ℕ) (nonce : Fin noncePages → Bytes nonceLen) :
    Decidable (m.WholeNonce i nonce) := by
  unfold WholeNonce CurrentRound
  infer_instance

theorem wholePage_eq_some {cmd : Cmd} {p : Fin noncePages} :
    wholePage cmd = some p ↔ ∃ page, cmd = .nonce page ∧
      pageOf page = some (UInt8.ofNat p) ∧ page.bytes.length = nonceLen := by
  cases cmd with
  | reset => simp [wholePage]
  | nonce page =>
    simp only [wholePage, Cmd.nonce.injEq, exists_eq_left']
    cases hp : pageOf page with
    | none => simp
    | some n =>
      simp only [Option.some.injEq]
      constructor
      · intro h
        split at h
        · split at h
          · next hlen =>
            cases h
            exact ⟨by simp, hlen⟩
          · cases h
        · cases h
      · rintro ⟨rfl, hlen⟩
        have hp : (UInt8.ofNat p.val).toNat = p.val := by
          have := p.isLt
          simp only [noncePages] at this
          simp only [UInt8.toNat_ofNat']
          omega
        rw [dif_pos (by rw [hp]; exact p.isLt), if_pos hlen]
        simp only [hp]

/-- Taking a command keeps a whole page in `NONCE`, and nothing else. -/
theorem begin_nonce (cmd : Cmd) (st : Statics) :
    (wholePage cmd = none ∧ (begin cmd st).1.nonce = st.nonce) ∨
      ∃ page p, ∃ h : page.bytes.length = nonceLen, cmd = .nonce page ∧
        wholePage cmd = some p ∧
        (begin cmd st).1.nonce = Function.update st.nonce p ⟨page.bytes, h⟩ := by
  cases cmd with
  | reset => exact Or.inl ⟨rfl, rfl⟩
  | nonce page =>
    simp only [wholePage, begin, storePage]
    cases hp : pageOf page with
    | none => exact Or.inl ⟨rfl, rfl⟩
    | some n =>
      dsimp only
      by_cases hn : n.toNat < noncePages ∧ page.bytes.length = nonceLen
      · rw [dif_pos hn.1, if_pos hn.2, dif_pos hn]
        exact Or.inr ⟨page, _, hn.2, rfl, rfl, rfl⟩
      · refine Or.inl ⟨?_, by rw [dif_neg hn]⟩
        by_cases hlt : n.toNat < noncePages
        · rw [dif_pos hlt, if_neg fun hlen => hn ⟨hlt, hlen⟩]
        · rw [dif_neg hlt]

/-- What is kept of the pages changes with a whole page only. -/
theorem take_none {m : Ledger} {i : ℕ} {cmd : Cmd} (h : wholePage cmd = none) :
    (m.take i cmd).stored = m.stored := by
  unfold take
  split
  · rfl
  · simp only [h]

theorem take_some {m : Ledger} {k : ℕ} {rest : List ℕ} (hqueue : m.queue = k :: rest) {i : ℕ}
    {cmd : Cmd} {p : Fin noncePages} (h : wholePage cmd = some p) :
    (m.take i cmd).stored = Function.update m.stored p (some k) := by
  simp only [take, hqueue, h]

end Ledger

/-- Where every command sent has got to, and what `NONCE` holds. -/
structure Delivered (sent : ℕ) (nonce : Fin noncePages → Bytes nonceLen) (m : Ledger) :
    Prop where
  accounted : ∀ j < sent, j ∈ m.queue ∨ j ∈ m.lost ∨ m.takenBy j ≠ none
  lost_only : ∀ j ∈ m.lost, j < sent ∧ j ∉ m.queue ∧ m.takenBy j = none
  given_taken : ∀ i, ∀ j ∈ m.given i, m.takenBy j = some i ∧ ∃ k, m.serving i = some k ∧ j ≤ k
  stored_log : ∀ p j, m.stored p = some j → ∃ page, m.log[j]? = some (.nonce page) ∧
    Ledger.wholePage (.nonce page) = some p ∧ (nonce p).toList = page.bytes
  stored_latest : ∀ j cmd p, m.takenBy j ≠ none → m.log[j]? = some cmd →
    Ledger.wholePage cmd = some p → ∃ l, m.stored p = some l ∧ j ≤ l

namespace Delivered

variable {sent : ℕ} {s t : System} {nonce : Fin noncePages → Bytes nonceLen} {m : Ledger}

theorem enter (h : Delivered sent nonce m) (hlen : sent ≤ m.log.length)
    (htaken : ∀ j, m.takenBy j ≠ none → j < sent) (cmd : Cmd) :
    Delivered sent nonce { m with log := m.log ++ [cmd] } where
  accounted := h.accounted
  lost_only := h.lost_only
  given_taken := h.given_taken
  stored_log p j hj := by
    obtain ⟨page, hl, hw, hn⟩ := h.stored_log p j hj
    obtain ⟨hlt, -⟩ := List.getElem?_eq_some_iff.mp hl
    exact ⟨page, by rw [List.getElem?_append_left hlt, hl], hw, hn⟩
  stored_latest j c p hj hl hw := by
    have hlt : j < m.log.length := Nat.lt_of_lt_of_le (htaken j hj) hlen
    rw [List.getElem?_append_left hlt] at hl
    exact h.stored_latest j c p hj hl hw

theorem send (h : Delivered sent nonce m) (hlen : m.log.length = sent + 1)
    (hqueue : ∀ k ∈ m.queue, k < sent) (htaken : ∀ j, m.takenBy j ≠ none → j < sent)
    {cmd : Cmd} {es : List Effect} (hsend : send cmd s = (t, es)) :
    Delivered (sent + 1) nonce (es.foldl Ledger.watch m) := by
  have hfree : m.takenBy sent = none := by
    by_contra hne
    exact Nat.lt_irrefl sent (htaken sent hne)
  have hsplit : ∀ j < sent + 1, j < sent ∨ j = sent := fun j hj => by omega
  unfold Auth.send at hsend
  cases hq : s.cmd.trySend cmd with
  | none =>
    rw [hq] at hsend
    obtain ⟨rfl, rfl⟩ := Prod.mk.inj hsend
    simp only [List.foldl_cons, List.foldl_nil, Ledger.watch_dropped, hlen, Nat.add_sub_cancel]
    exact
      { accounted := by
          intro j hj
          rcases hsplit j hj with hj | rfl
          · rcases h.accounted j hj with hq | hl | ht
            · exact Or.inl hq
            · exact Or.inr (Or.inl (List.mem_append_left _ hl))
            · exact Or.inr (Or.inr ht)
          · exact Or.inr (Or.inl (by simp))
        lost_only := by
          intro j hj
          rcases List.mem_append.mp hj with hj | hj
          · obtain ⟨hlt, hrest⟩ := h.lost_only j hj
            exact ⟨Nat.lt_succ_of_lt hlt, hrest⟩
          · obtain rfl := List.mem_singleton.mp hj
            exact ⟨Nat.lt_succ_self j, fun hk => Nat.lt_irrefl j (hqueue j hk), hfree⟩
        given_taken := h.given_taken
        stored_log := h.stored_log
        stored_latest := h.stored_latest }
  | some q =>
    rw [hq] at hsend
    obtain ⟨rfl, rfl⟩ := Prod.mk.inj hsend
    simp only [List.foldl_cons, List.foldl_nil, Ledger.watch_queued, hlen, Nat.add_sub_cancel]
    exact
      { accounted := by
          intro j hj
          rcases hsplit j hj with hj | rfl
          · rcases h.accounted j hj with hq | hl | ht
            · exact Or.inl (List.mem_append_left _ hq)
            · exact Or.inr (Or.inl hl)
            · exact Or.inr (Or.inr ht)
          · exact Or.inl (by simp)
        lost_only := by
          intro j hj
          obtain ⟨hlt, hnq, hnt⟩ := h.lost_only j hj
          refine ⟨Nat.lt_succ_of_lt hlt, ?_, hnt⟩
          intro hk
          rcases List.mem_append.mp hk with hk | hk
          · exact hnq hk
          · rw [List.mem_singleton.mp hk] at hlt
            exact Nat.lt_irrefl sent hlt
        given_taken := h.given_taken
        stored_log := h.stored_log
        stored_latest := h.stored_latest }

theorem clear (h : Delivered sent nonce m) (hqueue : ∀ k ∈ m.queue, k < sent)
    (htaken : ∀ j ∈ m.queue, m.takenBy j = none) (i : ℕ) :
    Delivered sent nonce (m.watch (.cleared i)) where
  accounted j hj := by
    rcases h.accounted j hj with hq | hl | ht
    · exact Or.inr (Or.inl (List.mem_append_right _ hq))
    · exact Or.inr (Or.inl (List.mem_append_left _ hl))
    · exact Or.inr (Or.inr ht)
  lost_only j hj := by
    refine ⟨?_, List.not_mem_nil, ?_⟩
    · rcases List.mem_append.mp hj with hj | hj
      · exact (h.lost_only j hj).1
      · exact hqueue j hj
    · rcases List.mem_append.mp hj with hj | hj
      · exact (h.lost_only j hj).2.2
      · exact htaken j hj
  given_taken := h.given_taken
  stored_log := h.stored_log
  stored_latest := h.stored_latest

/-- A device takes the command in front; a whole page goes to `NONCE`. -/
theorem take (h : Delivered sent nonce m) (hf : Follows sent s m) (i : ℕ) {cmd : Cmd}
    {q : Channel Cmd cmdLen} (hq : s.cmd.receive = some (cmd, q)) (st : Statics)
    (hst : st.nonce = nonce) : Delivered sent (begin cmd st).1.nonce (m.take i cmd) := by
  obtain ⟨k, rest, hqueue, hk, -, -, hbefore⟩ := hf.front hq
  have hne : ∀ j, m.takenBy j ≠ none → j ≠ k := fun j hj => Nat.ne_of_lt (hbefore j hj)
  have haccounted := h.accounted
  have hlost := h.lost_only
  rw [hqueue] at haccounted hlost
  rw [Ledger.take_cons hqueue]
  exact
    { accounted := by
        intro j hj
        rcases haccounted j hj with hjq | hl | ht
        · rcases List.mem_cons.mp hjq with rfl | hjr
          · exact Or.inr (Or.inr (by simp))
          · exact Or.inl hjr
        · exact Or.inr (Or.inl hl)
        · refine Or.inr (Or.inr ?_)
          simpa only [Function.update_of_ne (hne j ht)] using ht
      lost_only := by
        intro j hj
        obtain ⟨hlt, hnq, hnt⟩ := hlost j hj
        have hjk : j ≠ k := fun heq => hnq (heq ▸ List.mem_cons_self)
        refine ⟨hlt, fun hr => hnq (List.mem_cons_of_mem k hr), ?_⟩
        simpa only [Function.update_of_ne hjk] using hnt
      given_taken := by
        intro l j hj
        by_cases hli : l = i
        · subst l
          simp only [Function.update_self] at hj ⊢
          rcases List.mem_append.mp hj with hj | hj
          · have ht := (h.given_taken i j hj).1
            have hjk := hbefore j (by simp [ht])
            rw [Function.update_of_ne (Nat.ne_of_lt hjk)]
            exact ⟨ht, k, rfl, Nat.le_of_lt hjk⟩
          · rw [List.mem_singleton.mp hj, Function.update_self]
            exact ⟨rfl, k, rfl, Nat.le_refl k⟩
        · simp only [Function.update_of_ne hli] at hj ⊢
          obtain ⟨ht, hserving⟩ := h.given_taken l j hj
          exact ⟨by rwa [Function.update_of_ne (hne j (by simp [ht]))], hserving⟩
      stored_log := by
        intro p j hj
        rcases Ledger.begin_nonce cmd st with ⟨hnone, hkeep⟩ | ⟨page, n, hlen, rfl, hn, hnew⟩
        · rw [Ledger.take_none hnone] at hj
          rw [hkeep, hst]
          exact h.stored_log p j hj
        · rw [Ledger.take_some hqueue hn] at hj
          rw [hnew, hst]
          by_cases hpn : p = n
          · subst hpn
            rw [Function.update_self] at hj ⊢
            obtain rfl := Option.some.inj hj
            exact ⟨page, hk, hn, rfl⟩
          · rw [Function.update_of_ne hpn] at hj ⊢
            exact h.stored_log p j hj
      stored_latest := by
        intro j c p hj hl hw
        by_cases hjk : j = k
        · subst hjk
          have hc : cmd = c := Option.some.inj (hk.symm.trans hl)
          rw [hc, Ledger.take_some hqueue hw]
          exact ⟨j, Function.update_self .., Nat.le_refl j⟩
        · simp only [Function.update_of_ne hjk] at hj
          obtain ⟨l, hs, hle⟩ := h.stored_latest j c p hj hl hw
          cases hwc : Ledger.wholePage cmd with
          | none => exact ⟨l, by rw [Ledger.take_none hwc, hs], hle⟩
          | some n =>
            rw [Ledger.take_some hqueue hwc]
            by_cases hpn : p = n
            · subst hpn
              exact ⟨k, Function.update_self .., Nat.le_of_lt (hbefore j hj)⟩
            · exact ⟨l, by rw [Function.update_of_ne hpn, hs], hle⟩ }

theorem attach (h : Delivered sent nonce m) (i : ℕ) :
    Delivered sent nonce (m.watch (.attached i)) where
  accounted := h.accounted
  lost_only := h.lost_only
  given_taken j l hl := by
    by_cases hij : j = i
    · subst j
      simp [Ledger.watch] at hl
    · simp only [Ledger.watch, Function.update_of_ne hij] at hl
      exact h.given_taken j l hl
  stored_log := h.stored_log
  stored_latest := h.stored_latest

end Delivered

theorem delivered_init :
    Delivered (System.init.sent Ledger.init) System.init.statics.nonce Ledger.init where
  accounted j hj := absurd hj (Nat.not_lt_zero j)
  lost_only _ hj := absurd hj List.not_mem_nil
  given_taken _ _ hj := absurd hj List.not_mem_nil
  stored_log _ _ hj := by cases hj
  stored_latest _ _ _ hj := absurd rfl hj

theorem delivered_woke {s : System} {m : Ledger} (h : Agrees s m)
    (hd : Delivered (s.sent m) s.statics.nonce m) {i : ℕ} {t : Task} {e : Event} {r : Resumed}
    (he : ∀ cmd, e ≠ .command cmd) (hr : Outcome s.now s.statics t e r) :
    Delivered ((settle i s r).1.sent ((settle i s r).2.foldl Ledger.watch m))
      (settle i s r).1.statics.nonce ((settle i s r).2.foldl Ledger.watch m) := by
  have hnonce := hr.keeps_nonce he
  obtain ⟨st, task, es⟩ := r
  change st.nonce = s.statics.nonce at hnonce
  rw [← hnonce] at hd
  rcases hr.effects with ⟨hpub, -⟩ | ⟨hserve, rfl, -⟩
  · by_cases hserve : .serve ∈ es
    · simp only [settle, if_pos hserve, List.foldl_cons]
      rw [Ledger.watch_signer _ i es hpub]
      refine hd.clear h.follows.queue_lt ?_ i
      intro j hj
      by_contra hne
      exact Nat.lt_irrefl j ((h.follows.taken_lt j hne).2 j hj)
    · rw [settle_plain i s st task es hserve]
      simp only [Ledger.watch_signer m i es hpub]
      exact hd
  · rw [settle_plain i s st task _ hserve]
    exact { hd with }

theorem delivered_step {role : Role} {s t : System} {m : Ledger} {es : List Effect}
    (h : Agrees s m) (hd : Delivered (s.sent m) s.statics.nonce m) (hstep : Stepped role s t es) :
    Delivered (t.sent (es.foldl Ledger.watch m)) t.statics.nonce (es.foldl Ledger.watch m) := by
  have hf := h.follows
  have htaken : ∀ j, m.takenBy j ≠ none → j < s.sent m := fun j hj =>
    Nat.lt_of_lt_of_le (hf.taken_lt j hj).1 hf.gone_le
  cases hstep with
  | elapse | read | ignored => exact hd
  | resetRead hidle t es hsend =>
    simp only [System.sent, hidle] at hf hd htaken
    have hin := hd.enter (Nat.le_refl _) htaken .reset
    have hs := hin.send (by simp) hf.queue_lt htaken hsend
    obtain ⟨-, hlog, -, hst, hcon⟩ := ((hf.enter .reset).congr (t := { s with statics :=
      { s.statics with state := (getReport idReset s.statics.state).1 } }) rfl rfl).send
      (by simp) (by simp) hsend
    rw [List.cons_append, List.foldl_cons, List.foldl_append]
    simp only [Ledger.watch_resetRead, List.foldl_cons, List.foldl_nil, Ledger.watch_answered]
    simp only [System.sent, hcon.trans hidle, hlog, hst, List.length_append,
      List.length_singleton]
    exact hs
  | nonceSet data hidle =>
    simp only [System.sent, hidle] at hd htaken
    simp only [List.foldl_cons, List.foldl_nil, Ledger.watch_nonceSet, System.sent,
      List.length_append, List.length_singleton, Nat.add_sub_cancel]
    exact hd.enter (Nat.le_refl _) htaken _
  | send data hcon t es hsend =>
    have hlast := h.sending data hcon
    simp only [System.sent, hcon] at hf hd htaken
    have hpos : 0 < m.log.length := by
      cases hl : m.log with
      | nil => simp [hl] at hlast
      | cons => simp
    obtain ⟨-, hlog, -, hst, hcon'⟩ := (hf.congr (t := { s with console := .idle }) rfl rfl).send
      (by omega) (by rw [List.getLast?_eq_getElem?] at hlast; exact hlast) hsend
    have hs := hd.send (by omega) hf.queue_lt htaken hsend
    rw [Nat.sub_add_cancel hpos] at hs
    simp only [System.sent, hcon', hlog, hst]
    exact hs
  | attach i hi => exact hd.attach i
  | detach => exact hd
  | receive i cmd q hi hq =>
    rw [List.foldl_cons, watch_transfers, Ledger.watch_received]
    simp only [System.sent, Ledger.take_log]
    exact hd.take hf i hq s.statics rfl
  | woke i task e r hi he hr => exact delivered_woke h hd he (resume_outcome hr)

/-- `sign` is called, or copies the pages to resend. -/
def SignerEffect.UsesNonce : SignerEffect → Prop
  | .sign _ | .copyNonce => True
  | _ => False

instance (e : SignerEffect) : Decidable e.UsesNonce :=
  match e with
  | .sign _ | .copyNonce => isTrue trivial
  | .transfer _ | .serve | .pageSent _ | .publish => isFalse id

/-- A device that calls `sign`, or resends, has `P`. -/
def OnUse (P : ℕ → Prop) : Effect → Prop
  | .signer i e => e.UsesNonce → P i
  | _ => True

instance (P : ℕ → Prop) [∀ i, Decidable (P i)] (fx : Effect) : Decidable (OnUse P fx) :=
  match fx with
  | .signer _ _ => inferInstanceAs (Decidable (_ → _))
  | .resetRead | .nonceSet _ | .answered _ _ | .queued _ | .dropped _ | .cleared _
  | .attached _ | .detached _ | .received _ _ => isTrue trivial

/-- Whenever `sign` is called, and whenever it copies `NONCE` to resend it, that is the
nonce of the console's current round, and the signer has been given all of it. -/
def SignsWholeNonce (s : System) (m : Ledger) (es : List Effect) (_ : System) : Prop :=
  ∀ fx ∈ es, OnUse (fun i => m.WholeNonce i s.statics.nonce) fx

instance (s : System) (m : Ledger) (es : List Effect) (t : System) :
    Decidable (SignsWholeNonce s m es t) :=
  inferInstanceAs (Decidable (∀ fx ∈ es, _))

/-- Whenever `sign` is called or copies `NONCE`, the device has missed nothing of the
current round. -/
def SignsUnmissed (_ : System) (m : Ledger) (es : List Effect) (_ : System) : Prop :=
  ∀ fx ∈ es, OnUse m.NoneMissed fx

/-- A device that has missed nothing has been given all, and `NONCE` holds it. -/
theorem whole_iff_unmissed {s : System} {m : Ledger} {sent : ℕ} (hf : Follows sent s m)
    (hd : Delivered sent s.statics.nonce m) {i : ℕ} {t : Task} (hi : s.signers i = some t)
    (ht : t.Busy) : m.WholeNonce i s.statics.nonce ↔ m.NoneMissed i := by
  obtain ⟨k, cmd, hserving, htaken, hgiven, hlog, -⟩ := hf.busy i t hi ht
  constructor
  · intro h
    refine h.imp ?_
    intro p j _ hgiven
    obtain ⟨hj, hreport⟩ := hgiven
    obtain ⟨hjt, l, hl, hle⟩ := hd.given_taken i j hj
    refine ⟨by simp [hreport, Bytes.length_eq], ?_, ?_⟩
    · intro k' hk'
      rw [hl] at hk'
      exact Option.some.inj hk' ▸ hle
    · intro hmissed
      rcases hmissed with hlost | ⟨-, hnot⟩
      · have := (hd.lost_only j hlost).2.2
        rw [hjt] at this
        cases this
      · exact hnot hj
  · intro h
    refine h.imp ?_
    intro p j hlatest hnone
    obtain ⟨hpage, hlast⟩ := hlatest
    obtain ⟨hwhole, hle, hmissed⟩ := hnone
    have hjk := hle k hserving
    have hksent : k < sent :=
      Nat.lt_of_lt_of_le (hf.taken_lt k (by simp [htaken])).1 hf.gone_le
    have htakenj : m.takenBy j ≠ none := by
      rcases hd.accounted j (by omega) with hq | hl | ht
      · have := (hf.taken_lt k (by simp [htaken])).2 j hq
        omega
      · exact absurd (Or.inl hl) hmissed
      · exact ht
    have hgiven : j ∈ m.given i := by
      by_contra hnot
      exact hmissed (Or.inr ⟨htakenj, hnot⟩)
    refine ⟨hgiven, ?_⟩
    obtain ⟨page, hpj, hlen, hn⟩ : ∃ page, m.log[j]? = some (.nonce page) ∧
        page.bytes.length = nonceLen ∧ pageOf page = some (UInt8.ofNat p) := by
      unfold Ledger.report at hwhole hpage
      split at hwhole
      · next page hl =>
        rw [hl] at hpage
        exact ⟨page, hl, Option.some.inj hwhole, hpage⟩
      · cases hwhole
    obtain ⟨l, hs, hjl⟩ := hd.stored_latest j _ p htakenj hpj
      (Ledger.wholePage_eq_some.mpr ⟨page, rfl, hn, hlen⟩)
    obtain ⟨page', hpl, hw, hnonce⟩ := hd.stored_log p l hs
    obtain ⟨hlt, -⟩ := List.getElem?_eq_some_iff.mp hpl
    have hlj : l = j := by
      by_contra hne
      apply hlast l hlt (by omega)
      obtain ⟨page'', heq, hn', -⟩ := Ledger.wholePage_eq_some.mp hw
      obtain rfl := Cmd.nonce.inj heq
      simp only [Ledger.report, hpl]
      exact hn'
    subst hlj
    rw [hpj] at hpl
    obtain rfl := Cmd.nonce.inj (Option.some.inj hpl)
    simp only [Ledger.report, hpj, hnonce]

/-- Only a task that handles a command calls `sign` or resends. -/
theorem Outcome.usesNonce {now : ℕ} {st : Statics} {t : Task} {e : Event} {r : Resumed}
    (h : Outcome now st t e r) {x : SignerEffect} (hx : x ∈ r.2.2) (hu : x.UsesNonce) :
    t.Busy := by
  cases h with
  | probed attempt e reset es hes =>
    rcases hes with rfl | rfl
    · rw [List.mem_singleton.mp hx] at hu
      exact absurd hu id
    · exact absurd hx List.not_mem_nil
  | probing t e t' | reset | nonce =>
    obtain ⟨y, rfl⟩ := mem_goOn hx
    exact absurd hu id
  | resetDone => exact absurd hx List.not_mem_nil
  | pageDone | signs | signing => trivial

theorem usesNonce_busy {role : Role} {s t : System} {es : List Effect}
    (hstep : Stepped role s t es) {i : ℕ} {x : SignerEffect} (hx : .signer i x ∈ es)
    (hu : x.UsesNonce) : ∃ task, s.signers i = some task ∧ task.Busy := by
  cases hstep with
  | woke j task e r hj he hr =>
    obtain ⟨st, task', fx⟩ := r
    have hmem : i = j ∧ x ∈ fx := by
      unfold settle at hx
      dsimp only at hx
      split at hx <;> simpa [eq_comm, and_comm] using hx
    obtain ⟨rfl, hmem⟩ := hmem
    exact ⟨task, hj, (resume_outcome hr).usesNonce hmem hu⟩
  | resetRead hidle t es hsend =>
    unfold send at hsend
    split at hsend <;> cases hsend <;> simp at hx
  | send data hcon t es hsend =>
    unfold send at hsend
    split at hsend <;> cases hsend <;> simp at hx
  | receive j cmd q hj hq =>
    rcases List.mem_cons.mp hx with heq | hmem
    · cases heq
    · simp only [Option.mem_toList, Option.map_eq_some_iff] at hmem
      obtain ⟨y, -, heq⟩ := hmem
      cases heq
      exact absurd hu id
  | attach j hj =>
    simp at hx
    rw [hx.2] at hu
    exact absurd hu id
  | elapse | read | ignored | nonceSet | detach => simp at hx

/-- In every run, every signing run and every resend inside it is for the whole current
nonce if and only if no device ever signs having missed a page of it. -/
theorem signs_whole_nonce_iff (role : Role) (as : List Act) :
    (machine role).Along Ledger.watch SignsWholeNonce System.init Ledger.init as ↔
      (machine role).Along Ledger.watch SignsUnmissed System.init Ledger.init as := by
  apply Machine.along_iff
    (fun s m => Agrees s m ∧ Delivered (s.sent m) s.statics.nonce m)
  · intro s m a es t hi h _
    obtain ⟨ha, hd⟩ := hi
    exact ⟨agrees_step ha h, delivered_step ha hd (stepped h)⟩
  · intro s m a es t hi h
    obtain ⟨ha, hd⟩ := hi
    apply forall₂_congr
    intro fx hfx
    cases fx with
    | signer i x =>
      apply imp_congr_right
      intro hu
      obtain ⟨task, hi, hbusy⟩ := usesNonce_busy (stepped h) hfx hu
      exact whole_iff_unmissed ha.follows hd hi hbusy
    | resetRead | nonceSet | answered | queued | dropped | cleared | attached | detached
    | received => exact Iff.rfl
  · exact ⟨agrees_init, delivered_init⟩

/-- A signer answers its F3 while the console is between pages 3 and 4. -/
def lateSigner : List Act :=
  (.getReport idReset :: queuePage 1 0) ++ queuePage 1 1 ++ queuePage 1 2 ++ queuePage 1 3 ++
  [.attach 0, .reply 0 (some [0xf3, 0x00, 0x38, 0x38, 0x00, 0x00, 0x00, 0x00])] ++
  queuePage 1 4 ++ [.receive 0, .reply 0 (some [])]

theorem last_page_alone_signed :
    ((machine .wheel).run System.init lateSigner).isSome = true ∧
      ¬ (machine .wheel).Along Ledger.watch SignsWholeNonce System.init Ledger.init
        lateSigner := by
  decide +kernel

end WheelBridge.Auth
