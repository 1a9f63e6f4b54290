import WheelBridge.AuthSystem
import WheelBridge.Ownership
import WheelBridge.SignSteps

/-!
What the cache holds at any time, and how its pages are given out. The signer side fills
it with numbered pages under the console's nonce id; from then on each GET F1 takes the
next page until a reset, a nonce or another publication.
-/
namespace WheelBridge.Auth

/-- The last F0 of the console, empty before the first. -/
def lastNonce (nonce : List UInt8) : Effect → List UInt8
  | .nonceSet data => data
  | _ => nonce

/-- The fields of the cache agree with each other and with the console's last nonce. -/
structure Cached (nonce : List UInt8) (s : State) : Prop where
  nextPage_le : s.nextPage ≤ signaturePages
  nonceId : s.nonceId = nonce[1]?.getD 0
  page : s.ready = true → ∀ i, (s.signature i).byte 2 = UInt8.ofNat i ∧
    (s.signature i).byte 1 = s.nonceId
  state : s.ready = true → s.readyState.byte 2 = stateReady ∧ s.readyState.byte 1 = s.nonceId

/-- The effects that withdraw or replace what the cache offers. -/
def Effect.Renews : Effect → Prop
  | .resetRead | .nonceSet _ | .signer _ .publish => True
  | _ => False

/-- What the GETs of F1 among the effects were answered with. -/
def signatureAnswers (es : List Effect) : List (Option (List UInt8)) :=
  es.filterMap fun e =>
    match e with
    | .answered id report => if id = idSignature then some report else none
    | _ => none

/-- What the `j`-th GET F1 from now on is given: the page that many after the next one. -/
def State.given (s : State) (j : ℕ) : Option (List UInt8) :=
  if h : s.ready = true ∧ s.nextPage + j < signaturePages then
    some (s.signature ⟨s.nextPage + j, h.2⟩).toList
  else none

/-- The cache after `n` GETs of F1. -/
def State.after (s : State) (n : ℕ) : State :=
  { s with
    nextPage := if s.ready = true then min signaturePages (s.nextPage + n) else s.nextPage }

/-- The GETs of F1 were given the pages in order, and nothing else was done to the cache
but that `try_signer` may have read another F3. -/
def Gives (s : State) (es : List Effect) (t : State) : Prop :=
  signatureAnswers es = (List.range (signatureAnswers es).length).map s.given ∧
    { t with reset := s.reset } = s.after (signatureAnswers es).length

/-- However a run goes on, as long as nothing renews the cache its pages are given out. -/
def Delivers (role : Role) (s : System) : Prop :=
  ∀ as t es, (machine role).run s as = some (t, es) → (∀ e ∈ es, ¬ e.Renews) →
    Gives s.statics.state es t.statics.state

/-- An F2 that is answered and an F1 that is not leave the cache as it was. -/
def AnswersKeep (s : System) (_ : List UInt8) (es : List Effect) (t : System) : Prop :=
  ∀ id report, .answered id report ∈ es → id = idState ∨ id = idSignature ∧ report = none →
    t.statics.state = s.statics.state

/-- A signer has believed a "ready" F2, and the pages it has read are numbered. -/
def Task.ReadWell : Task → Prop
  | .sign _ (.getSignature poll pages i) =>
    poll.state.byte 2 = stateReady ∧ ∀ j < i, (pages j).byte 2 = UInt8.ofNat j
  | _ => True

theorem readWell_of_not_reading {t : Task}
    (h : ∀ attempt poll pages i, t ≠ .sign attempt (.getSignature poll pages i)) : t.ReadWell := by
  unfold Task.ReadWell
  split
  · exact absurd rfl (h _ _ _ _)
  · trivial

/-- What is published is a "ready" F2 and numbered pages. -/
def PublishesWell (st : Statics) (r : Resumed) : Prop :=
  .publish ∈ r.2.2 ∧ ∃ state pages, r.1.state = publish state pages st.state ∧
    state.byte 2 = stateReady ∧ ∀ i, (pages i).byte 2 = UInt8.ofNat i

/-- The page just read comes after the ones before. -/
theorem read_page {pages : Fin signaturePages → Bytes signatureLen} {i : Fin signaturePages}
    (hpages : ∀ j < i, (pages j).byte 2 = UInt8.ofNat j) {page : Bytes signatureLen}
    (hpage : page.byte 2 = UInt8.ofNat i) (j : Fin signaturePages) (hj : (j : ℕ) < i + 1) :
    (Function.update pages i page j).byte 2 = UInt8.ofNat j := by
  by_cases hji : j = i
  · rw [hji, Function.update_self, hpage]
  · rw [Function.update_of_ne hji]
    apply hpages
    have hne : (j : ℕ) ≠ i := fun heq => hji (Fin.ext heq)
    change (j : ℕ) < i
    omega

theorem SignStepped.readWell {now : ℕ} {st : Statics} {attempt : ℕ} {step : SignStep} {e : Event}
    {r : Resumed} (h : SignStepped now st attempt step e r)
    (ht : (Task.sign attempt step).ReadWell) :
    r.2.1.ReadWell ∧ (.publish ∉ r.2.2 ∧ r.1 = st ∨ PublishesWell st r) := by
  cases h with
  | ready poll bytes hready =>
    refine ⟨⟨hready.1, ?_⟩, Or.inl ⟨by simp, rfl⟩⟩
    intro j hj
    exact absurd hj (Nat.not_lt_zero j)
  | pageRead poll pages i bytes hpage hi =>
    exact ⟨⟨ht.1, read_page ht.2 hpage⟩, Or.inl ⟨by simp, rfl⟩⟩
  | published poll pages i bytes hpage hi =>
    refine ⟨trivial, Or.inr ⟨by simp, _, _, rfl, ht.1, ?_⟩⟩
    intro j
    have hj := j.isLt
    exact read_page ht.2 hpage j (by omega)
  | paused | signerReset | copied | pageRefused | pageTaken | nextPage | resent | polled
  | stateLost | timedOut | pollAgain | signAgain | usedUp | gaveUp =>
    exact ⟨trivial, Or.inl ⟨by simp, rfl⟩⟩

/-- What a task does to the cache in one await: nothing but a new F3, or a publication. -/
theorem resume_readWell {role : Role} {now : ℕ} {st : Statics} {t : Task} {e : Event} {r : Resumed}
    (h : resume role now st t e = some r) (ht : t.ReadWell) :
    r.2.1.ReadWell ∧ (.publish ∉ r.2.2 ∧
      { r.1.state with reset := st.state.reset } = st.state ∨ PublishesWell st r) := by
  cases resume_outcome h with
  | probed attempt e reset es hes =>
    refine ⟨trivial, Or.inl ⟨?_, rfl⟩⟩
    rcases hes with rfl | rfl <;> simp
  | probing t e t' ht ht' =>
    refine ⟨readWell_of_not_reading ?_, Or.inl ⟨(plain_goOn st t').2.1, rfl⟩⟩
    rintro attempt poll pages i rfl
    exact ht' trivial
  | reset => exact ⟨trivial, Or.inl ⟨(plain_goOn st .reset).2.1, rfl⟩⟩
  | nonce page =>
    refine ⟨trivial, Or.inl ⟨(plain_goOn _ (.setNonce page)).2.1, ?_⟩⟩
    simp only [goOn, storePage_state]
  | resetDone => exact ⟨trivial, Or.inl ⟨by simp, rfl⟩⟩
  | pageDone page r st' hf =>
    refine ⟨trivial, Or.inl ⟨by simp, ?_⟩⟩
    simp only [(finishPage_spec hf).1]
  | signs page r st' resend hf =>
    refine ⟨?_, Or.inl ⟨?_, ?_⟩⟩
    · cases resend <;> trivial
    · cases hx : (sign resend now).transfer <;> simp [goOn, hx]
    · simp only [goOn, (finishPage_spec hf).1]
  | signing attempt step e r hstep hr =>
    obtain ⟨hwell, hdone⟩ := (resumeSign_stepped hstep).readWell ht
    refine ⟨hwell, ?_⟩
    rcases hdone with ⟨hnot, hkeep⟩ | hdone
    · exact Or.inl ⟨hnot, by rw [hkeep]⟩
    · exact Or.inr hdone

namespace Cached

variable {nonce : List UInt8} {s t : State}

/-- A cache that is not ready offers nothing. -/
theorem of_not_ready (hnext : s.nextPage ≤ signaturePages) (hid : s.nonceId = nonce[1]?.getD 0)
    (hready : s.ready = false) : Cached nonce s := by
  have hnot : s.ready ≠ true := by simp [hready]
  exact ⟨hnext, hid, fun h => absurd h hnot, fun h => absurd h hnot⟩

theorem init : Cached [] State.init := of_not_ready (Nat.zero_le _) rfl rfl

/-- Nothing is said about the F3. -/
theorem newReset (h : Cached nonce s) (ht : { t with reset := s.reset } = s) : Cached nonce t := by
  rw [← ht] at h
  exact ⟨h.nextPage_le, h.nonceId, h.page, h.state⟩

theorem setReport (s : State) (data : List UInt8) : Cached data (setReport data s) :=
  of_not_ready (Nat.zero_le _) rfl rfl

/-- The pages given out are still there. -/
theorem after (h : Cached nonce s) (n : ℕ) : Cached nonce (s.after n) := by
  refine ⟨?_, h.nonceId, h.page, h.state⟩
  have hle := h.nextPage_le
  unfold State.after
  dsimp only
  split <;> omega

theorem publish (h : Cached nonce s) {state : Bytes stateLen}
    {pages : Fin signaturePages → Bytes signatureLen} (hstate : state.byte 2 = stateReady)
    (hpages : ∀ i, (pages i).byte 2 = UInt8.ofNat i) : Cached nonce (publish state pages s) := by
  constructor
  · exact Nat.zero_le _
  · exact h.nonceId
  · intro _ i
    change ((pages i).set 1 s.nonceId).byte 2 = _ ∧ ((pages i).set 1 s.nonceId).byte 1 = _
    rw [Bytes.byte_set, Bytes.byte_set, if_neg (by omega), if_pos ⟨rfl, by decide⟩]
    exact ⟨hpages i, rfl⟩
  · intro _
    change (state.set 1 s.nonceId).byte 2 = _ ∧ (state.set 1 s.nonceId).byte 1 = _
    rw [Bytes.byte_set, Bytes.byte_set, if_neg (by omega), if_pos ⟨rfl, by decide⟩]
    exact ⟨hstate, rfl⟩

end Cached

/-- A GET F1 is given the next page, if there is one, and the cache goes on after it. -/
theorem getReport_signature {s : State} (hle : s.nextPage ≤ signaturePages) :
    getReport idSignature s = (s.after 1, none, s.given 0) := by
  have hreset : idSignature ≠ idReset := by decide
  have hstate : idSignature ≠ idState := by decide
  unfold getReport State.given State.after
  rw [if_neg hreset, if_neg hstate, if_pos rfl]
  simp only [Nat.add_zero]
  by_cases hgives : s.ready = true ∧ s.nextPage < signaturePages
  · have hmin : min signaturePages (s.nextPage + 1) = s.nextPage + 1 := by omega
    rw [dif_pos hgives, dif_pos hgives, if_pos hgives.1, hmin]
  · rw [dif_neg hgives, dif_neg hgives]
    by_cases hready : s.ready = true
    · have hmin : min signaturePages (s.nextPage + 1) = s.nextPage := by
        have hlast : ¬ s.nextPage < signaturePages := fun hlt => hgives ⟨hready, hlt⟩
        omega
      rw [if_pos hready, hmin]
    · rw [if_neg hready]

/-- Any other GET_REPORT but a GET F3 leaves the cache. -/
theorem getReport_keeps {id : UInt8} (s : State) (hreset : id ≠ idReset)
    (hsignature : id ≠ idSignature) : (getReport id s).1 = s := by
  unfold getReport
  rw [if_neg hreset, if_neg hsignature]
  split <;> rfl

/-- After a page has been given the next ones are counted from it. -/
theorem given_after (s : State) (n j : ℕ) :
    (s.after n).given j = s.given (n + j) := by
  unfold State.given State.after
  dsimp only
  by_cases hready : s.ready = true
  · rw [if_pos hready]
    by_cases hlt : s.nextPage + (n + j) < signaturePages
    · have hmin : min signaturePages (s.nextPage + n) = s.nextPage + n := by omega
      have hsum : s.nextPage + n + j = s.nextPage + (n + j) := by omega
      simp only [hmin, hsum]
    · have hpast : ¬ min signaturePages (s.nextPage + n) + j < signaturePages := by omega
      rw [dif_neg fun h => hpast h.2, dif_neg fun h => hlt h.2]
  · rw [dif_neg fun h => hready h.1, dif_neg fun h => hready h.1]

/-- Where no page is left the cache does not go on. -/
theorem after_of_given_none {s : State} (hle : s.nextPage ≤ signaturePages)
    (h : s.given 0 = none) : s.after 1 = s := by
  unfold State.given at h
  split at h
  · cases h
  · next hnot =>
    unfold State.after
    by_cases hready : s.ready = true
    · have hlast : ¬ s.nextPage + 0 < signaturePages := fun hlt => hnot ⟨hready, hlt⟩
      have hmin : min signaturePages (s.nextPage + 1) = s.nextPage := by omega
      rw [if_pos hready, hmin]
    · rw [if_neg hready]

theorem after_after (s : State) (n j : ℕ) :
    (s.after n).after j = s.after (n + j) := by
  unfold State.after
  dsimp only
  by_cases hready : s.ready = true
  · have hmin : min signaturePages (min signaturePages (s.nextPage + n) + j) =
        min signaturePages (s.nextPage + (n + j)) := by omega
    simp only [if_pos hready, hmin]
  · simp only [if_neg hready]

theorem Gives.trans {s t u : State} {es fs : List Effect} (h : Gives s es t) (h' : Gives t fs u) :
    Gives s (es ++ fs) u := by
  obtain ⟨hgiven, hafter⟩ := h
  obtain ⟨hgiven', hafter'⟩ := h'
  have hnext : ∀ j, t.given j = s.given ((signatureAnswers es).length + j) := by
    intro j
    rw [← given_after, ← hafter]
    rfl
  have happend : signatureAnswers (es ++ fs) = signatureAnswers es ++ signatureAnswers fs :=
    List.filterMap_append
  constructor
  · rw [happend, List.length_append, List.range_add, List.map_append, List.map_map, ← hgiven]
    congr 1
    calc signatureAnswers fs
        = (List.range (signatureAnswers fs).length).map t.given := hgiven'
      _ = _ := List.map_congr_left fun j _ => hnext j
  · rw [happend, List.length_append, ← after_after, ← hafter]
    calc ({ u with reset := s.reset } : State)
        = { ({ u with reset := t.reset } : State) with reset := s.reset } := rfl
      _ = { t.after (signatureAnswers fs).length with reset := s.reset } := by rw [hafter']
      _ = _ := rfl

/-- Nothing is given, and at most the F3 is another one. -/
theorem Gives.none {s t : State} {es : List Effect} (hes : signatureAnswers es = [])
    (hle : s.nextPage ≤ signaturePages) (ht : { t with reset := s.reset } = s) : Gives s es t := by
  refine ⟨by rw [hes]; rfl, ?_⟩
  have hmin : min signaturePages s.nextPage = s.nextPage := by omega
  rw [hes, ht]
  simp only [List.length_nil, State.after, Nat.add_zero, hmin, ite_self]

/-- The cache is in order, and every signer has read well so far. -/
structure Kept (s : System) (nonce : List UInt8) : Prop where
  cached : Cached nonce s.statics.state
  tasks : ∀ i t, s.signers i = some t → t.ReadWell

theorem Kept.init : Kept System.init [] := ⟨.init, fun i t h => by cases h⟩

/-- Neither an answer to the console nor a nonce of it. -/
def Effect.Silent : Effect → Prop
  | .answered _ _ | .nonceSet _ => False
  | _ => True

theorem silent_unheard {es : List Effect} (hes : ∀ e ∈ es, e.Silent) :
    signatureAnswers es = [] ∧ (∀ nonce, es.foldl lastNonce nonce = nonce) ∧
      ∀ id report, .answered id report ∉ es := by
  refine ⟨?_, ?_, ?_⟩
  · apply List.filterMap_eq_nil_iff.mpr
    intro e he
    have hsilent := hes e he
    cases e <;> first | rfl | exact absurd hsilent id
  · intro nonce
    apply foldl_unheeded
    intro e he
    have hsilent := hes e he
    cases e <;> first | rfl | exact absurd hsilent id
  · intro id report hmem
    exact hes _ hmem

theorem settle_silent (i : ℕ) (s : System) (r : Resumed) : ∀ e ∈ (settle i s r).2, e.Silent := by
  intro e he
  unfold settle at he
  dsimp only at he
  split at he
  · rcases List.mem_cons.mp he with rfl | he
    · trivial
    · obtain ⟨f, -, rfl⟩ := List.mem_map.mp he
      trivial
  · obtain ⟨f, -, rfl⟩ := List.mem_map.mp he
    trivial

/-- What a step says of the cache: it stays in order, is left as it was by what does not
give a page, and gives pages in order unless it is renewed. -/
structure Serves (s : System) (nonce : List UInt8) (es : List Effect) (t : System) : Prop where
  kept : Kept t (es.foldl lastNonce nonce)
  keeps : AnswersKeep s nonce es t
  gives : (∀ e ∈ es, ¬ e.Renews) → Gives s.statics.state es t.statics.state

namespace Kept

variable {role : Role} {s t : System} {nonce : List UInt8} {es : List Effect}

/-- A step that is silent to the console and reads at most another F3. -/
theorem silent (h : Kept s nonce) (hes : ∀ e ∈ es, e.Silent)
    (hstate : { t.statics.state with reset := s.statics.state.reset } = s.statics.state)
    (htasks : ∀ i u, t.signers i = some u → u.ReadWell) : Serves s nonce es t := by
  obtain ⟨hanswers, hnonce, hnot⟩ := silent_unheard hes
  constructor
  · rw [hnonce]
    exact ⟨h.cached.newReset hstate, htasks⟩
  · intro id report hmem
    exact absurd hmem (hnot id report)
  · exact fun _ => .none hanswers h.cached.nextPage_le hstate

theorem putTask (h : Kept s nonce) {i : ℕ} {task : Task} (htask : task.ReadWell) (j : ℕ) (u : Task)
    (hj : Function.update s.signers i (some task) j = some u) : u.ReadWell := by
  rcases update_some_eq_some.mp hj with ⟨-, rfl⟩ | ⟨-, hj⟩
  · exact htask
  · exact h.tasks j u hj

/-- The await of a signer ends. -/
theorem woke (h : Kept s nonce) {i : ℕ} {task : Task} {e : Event} {r : Resumed}
    (hi : s.signers i = some task) (hr : resume role s.now s.statics task e = some r) :
    Serves s nonce (settle i s r).2 (settle i s r).1 := by
  obtain ⟨-, hstatics, hsigners⟩ := settle_system i s r
  obtain ⟨htask, hwrites⟩ := resume_readWell hr (h.tasks i task hi)
  have htasks : ∀ j u, (settle i s r).1.signers j = some u → u.ReadWell := by
    rw [hsigners]
    exact h.putTask htask
  obtain ⟨hanswers, hnonce, hnot⟩ := silent_unheard (settle_silent i s r)
  rcases hwrites with ⟨-, hkeep⟩ | ⟨hpublish, state, pages, hstate, hready, hpages⟩
  · exact h.silent (settle_silent i s r) (by rw [hstatics]; exact hkeep) htasks
  · constructor
    · rw [hnonce]
      refine ⟨?_, htasks⟩
      rw [hstatics, hstate]
      exact h.cached.publish hready hpages
    · intro id report hmem
      exact absurd hmem (hnot id report)
    · intro hrenews
      exact absurd trivial (hrenews _ (publish_mem_settle.mpr ⟨rfl, hpublish⟩))

/-- A GET_REPORT that does not reset. -/
theorem read (h : Kept s nonce) (id : UInt8) (hid : id ≠ idReset) :
    Serves s nonce [.answered id (getReport id s.statics.state).2.2]
      { s with statics := { s.statics with state := (getReport id s.statics.state).1 } } := by
  have hle := h.cached.nextPage_le
  by_cases hsig : id = idSignature
  · subst hsig
    have hget := getReport_signature hle
    rw [hget]
    refine ⟨⟨h.cached.after 1, h.tasks⟩, ?_, fun _ => ⟨rfl, rfl⟩⟩
    intro id report hmem hid
    cases List.mem_singleton.mp hmem
    rcases hid with hid | ⟨-, hnone⟩
    · exact absurd hid (by decide)
    · exact after_of_given_none hle hnone
  · rw [getReport_keeps s.statics.state hid hsig]
    have hanswers : signatureAnswers [.answered id (getReport id s.statics.state).2.2] = [] := by
      simp [signatureAnswers, hsig]
    exact ⟨⟨h.cached, h.tasks⟩, fun _ _ _ _ => rfl, fun _ => .none hanswers hle rfl⟩

end Kept

theorem kept_step {role : Role} {s t : System} {nonce : List UInt8} {es : List Effect}
    (h : Kept s nonce) (hstep : Stepped role s t es) : Serves s nonce es t := by
  cases hstep with
  | elapse ms => exact h.silent (fun _ he => by cases he) rfl h.tasks
  | ignored => exact h.silent (fun _ he => by cases he) rfl h.tasks
  | read id hid => exact h.read id hid
  | resetRead hidle t es hsend =>
    obtain ⟨hstatics, hsigners, hes⟩ := send_eq hsend
    have hkept : Kept t nonce := by
      refine ⟨?_, by rw [hsigners]; exact h.tasks⟩
      rw [hstatics]
      exact .of_not_ready (Nat.zero_le _) h.cached.nonceId rfl
    constructor
    · rcases hes with rfl | rfl <;> exact hkept
    · intro id report hmem hid
      have hreset : id = idReset := by
        rcases hes with rfl | rfl <;> simp at hmem <;> exact hmem.1
      rw [hreset] at hid
      rcases hid with hid | ⟨hid, -⟩ <;> exact absurd hid (by decide)
    · intro hrenews
      exact absurd trivial (hrenews _ (List.mem_cons_self ..))
  | nonceSet data hidle =>
    refine ⟨⟨Cached.setReport _ data, h.tasks⟩, ?_, ?_⟩
    · intro id report hmem
      cases List.mem_singleton.mp hmem
    · intro hrenews
      exact absurd trivial (hrenews _ (List.mem_singleton.mpr rfl))
  | send data hcon t es hsend =>
    obtain ⟨hstatics, hsigners, hes⟩ := send_eq hsend
    refine h.silent ?_ (by rw [hstatics]) (by rw [hsigners]; exact h.tasks)
    intro e he
    rcases hes with hes | hes <;> rw [hes] at he <;> cases List.mem_singleton.mp he <;> trivial
  | attach i hi =>
    refine h.silent ?_ rfl (h.putTask trivial)
    intro e he
    rcases List.mem_cons.mp he with rfl | he
    · trivial
    · cases List.mem_singleton.mp he
      trivial
  | detach i task hi =>
    refine h.silent ?_ rfl ?_
    · intro e he
      cases List.mem_singleton.mp he
      trivial
    · intro j u hj
      exact h.tasks j u (update_none_eq_some.mp hj).2
  | receive i cmd q hi hq =>
    refine h.silent ?_ ?_ (h.putTask ?_)
    · intro e he
      rcases List.mem_cons.mp he with rfl | he
      · trivial
      · simp only [Option.mem_toList, Option.map_eq_some_iff] at he
        obtain ⟨x, -, rfl⟩ := he
        trivial
    · simp only [begin_state]
    · cases cmd <;> trivial
  | woke i task e r hi he hr => exact h.woke hi hr

/-- From where the cache is in order its pages are given out over any run. -/
theorem Kept.delivers {role : Role} {nonce : List UInt8} {s : System} (h : Kept s nonce) :
    Delivers role s := by
  intro as
  induction as generalizing s nonce with
  | nil =>
    intro t es hrun _
    cases hrun
    exact .none rfl h.cached.nextPage_le rfl
  | cons a as ih =>
    intro t es hrun hrenews
    simp only [Machine.run] at hrun
    cases hstep : (machine role).step s a with
    | none => simp [hstep] at hrun
    | some r =>
      obtain ⟨u, fs⟩ := r
      simp only [hstep, Option.map_eq_some_iff] at hrun
      obtain ⟨⟨v, gs⟩, hrest, heq⟩ := hrun
      obtain ⟨rfl, rfl⟩ := Prod.mk.inj heq
      have hserves := kept_step h (stepped hstep)
      have hfirst := hserves.gives fun e he => hrenews e (List.mem_append_left _ he)
      have hlater := ih hserves.kept v gs hrest fun e he => hrenews e (List.mem_append_right _ he)
      exact hfirst.trans hlater

/-- In every reachable state the cache is in order and its pages are given out one by one,
and an F2 or a refused F1 never changes it. -/
theorem pages_delivered (role : Role) (as : List Act) :
    (machine role).Throughout lastNonce
        (fun s nonce => Cached nonce s.statics.state ∧ Delivers role s) System.init [] as ∧
      (machine role).Along lastNonce AnswersKeep System.init [] as := by
  constructor
  · refine Machine.throughout_of_invariant Kept ?_ ?_ as _ _ .init
    · intro s nonce a es t h hstep
      exact (kept_step h (stepped hstep)).kept
    · intro s nonce h
      exact ⟨h.cached, h.delivers⟩
  · refine Machine.along_always (fun s nonce => Kept s nonce) ?_ as _ _ .init
    intro s nonce a es t h hstep
    have hserves := kept_step h (stepped hstep)
    exact ⟨hserves.kept, hserves.keeps⟩

/-- A pad takes the last page of nonce 7 and signs under its own counter. -/
def publishedRun : List Act :=
  [.attach 0, .reply 0 (some [idReset]), .setReport idNonce [idNonce, 0x07, 0x04], .send,
    .receive 0, .reply 0 (some []), .reply 0 (some [idState, 0x01, stateSigning]), .elapse 20,
    .timer 0, .reply 0 (some [idState, 0x01, stateReady])] ++
  (List.range signaturePages).map fun i => .reply 0 (some [idSignature, 0x01, UInt8.ofNat i])

/-- Its publication makes the cache ready, and two GET F1 take the first pages, under ID 7. -/
example :
    ((machine .wheel).run System.init
      (publishedRun ++ [.getReport idSignature, .getReport idSignature])).map (fun r =>
        (r.1.statics.state.ready, r.1.statics.state.nextPage,
          (signatureAnswers r.2).map fun page => page.map (List.take 3))) =
      some (true, 2, [some [idSignature, 0x07, 0x00], some [idSignature, 0x07, 0x01]]) := by
  decide +kernel

end WheelBridge.Auth
