import WheelBridge.Refinement
import WheelBridge.SignSteps

/-!
One signer serving a sequence of commands, and what becomes of the pages it refuses.
The refused flag is set by a refusal, cleared after page 0 and taken at page 4, so
what a signing run is told depends on which of the five pages were refused.
-/
namespace WheelBridge.Auth

/-- A signer's task with the statics it works on. -/
structure Serving where
  now : ℕ
  statics : Statics
  task : Task

inductive ServeAct
  | elapse (ms : ℕ)
  | event (e : Event)

inductive ServeEffect
  | command (cmd : Cmd)
  /-- A transfer ends; the signer took it, or refused it. -/
  | ended (accepted : Bool)
  | signer (e : SignerEffect)

/-- What is seen of an event itself. -/
def Event.seen : Event → List ServeEffect
  | .command cmd => [.command cmd]
  | .reply r => [.ended r.isSome]
  | .timer => []

def serveStep (s : Serving) : ServeAct → Option (Serving × List ServeEffect)
  | .elapse ms => some ({ s with now := s.now + ms }, [])
  | .event e =>
    match resume .wheel s.now s.statics s.task e with
    | none => none
    | some (st, t, es) => some (⟨s.now, st, t⟩, e.seen ++ es.map .signer)

def serving : Machine Serving ServeAct ServeEffect := ⟨serveStep⟩

/-- What a round of nonce pages has brought so far. -/
structure Round where
  /-- The last pages, if they came in order from page 0. -/
  pages : List (List UInt8)
  refusedFirst : Bool
  refusedLater : Bool
  /-- The pages that the signer has taken: from `handle`, or, once `sign` has begun with its F3,
  those that were resent. -/
  accepted : List ℕ
  /-- `sign` was called, and is in its first attempt until it asks for the signature. -/
  called : Bool
  /-- In that attempt: the page that is being resent, and the number of those before it. -/
  resending : Option (List UInt8)
  resent : ℕ

namespace Round

def init : Round := ⟨[], false, false, [], false, none, 0⟩

def page (m : Round) (data : List UInt8) : Round :=
  match data[2]? with
  | none => init
  | some p =>
    if p = 0 then { init with pages := [data] }
    else if p.toNat = m.pages.length ∧ m.pages.length < noncePages then
      { m with pages := m.pages ++ [data], called := false, resending := none }
    else init

/-- `data` is page `k` of the round as the console sent it, or that page has not the
length of one, so that `handle` does not keep it. -/
def Carries (m : Round) (k : ℕ) (data : List UInt8) : Prop :=
  ∀ page ∈ m.pages[k]?, page.length = nonceLen → data = page

instance (m : Round) (k : ℕ) (data : List UInt8) : Decidable (m.Carries k data) :=
  inferInstanceAs (Decidable (∀ page ∈ m.pages[k]?, _))

def watch (m : Round) : ServeEffect → Round
  | .command .reset => { m with called := false, resending := none }
  | .command (.nonce page) => m.page page.bytes
  | .ended ok =>
    match m.resending with
    | none => m
    | some data =>
      { m with
        resending := none
        resent := m.resent + 1
        accepted :=
          if ok = true ∧ m.Carries m.resent data then m.resent :: m.accepted else m.accepted }
  | .signer (.pageSent accepted) =>
    if accepted then { m with accepted := (m.pages.length - 1) :: m.accepted }
    else if m.pages.length = 1 then { m with refusedFirst := true }
    else { m with refusedLater := true }
  | .signer (.sign _) => { m with called := true, resent := 0 }
  | .signer (.transfer (.get id _)) =>
    if id = idSignature then { m with called := false }
    else if id = idReset ∧ m.called = true then { m with accepted := [] }
    else m
  | .signer (.transfer (.setNonce data)) =>
    if m.called then { m with resending := some data } else m
  | .signer _ => m

/-- A page of the round was refused. -/
def refused (m : Round) : Bool := m.refusedFirst || m.refusedLater

def Whole (m : Round) : Prop := m.pages.length = noncePages

instance (m : Round) : Decidable m.Whole := inferInstanceAs (Decidable (_ = _))

end Round

/-- After a whole round in order `sign` is told to resend exactly if a page was refused,
and in its first attempt polls the signer only once that has taken every page, and since it
was reset if `sign` resets it. -/
def ResendsRefused (m : Round) : ServeEffect → Prop
  | .signer (.sign resend) => m.Whole → resend = m.refused
  | .signer (.transfer (.get id _)) =>
    m.Whole → m.called = true → id = idState → ∀ k < noncePages, k ∈ m.accepted
  | _ => True

/-- Where page 0 of a whole round was refused, another page was refused too. -/
def NotFirstAlone (m : Round) : ServeEffect → Prop
  | .signer (.sign _) => m.Whole → m.refusedFirst = true → m.refusedLater = true
  | _ => True

instance (m : Round) (e : ServeEffect) : Decidable (ResendsRefused m e) :=
  match e with
  | .signer (.sign _) | .signer (.transfer (.get _ _)) => inferInstanceAs (Decidable (_ → _))
  | .signer (.transfer (.setNonce _)) | .signer .serve | .signer (.pageSent _)
  | .signer .copyNonce | .signer .publish | .command _ | .ended _ => isTrue trivial

/-- Where the first attempt of a `sign` that was called is, and what the signer has taken by
then: in the resend the pages before, while it is polled all of them. -/
def FirstAttempt (m : Round) : Task → Prop
  | .sign _ (.resignPause _) | .sign _ .resetSigner | .sign _ (.resetSettle _) => m.resent = 0
  | .sign _ (.setNonce pages i) =>
    m.resending = some (pages i).toList ∧ m.resent = i ∧
      (∀ k : Fin noncePages, m.Carries k (pages k).toList) ∧ ∀ k < i.val, k ∈ m.accepted
  | .sign _ (.noncePageGap pages i _) =>
    m.resent = i + 1 ∧ (∀ k : Fin noncePages, m.Carries k (pages k).toList) ∧
      ∀ k < i.val + 1, k ∈ m.accepted
  | .sign _ (.getState _) | .sign _ (.pollPause _ _) =>
    m.Whole → ∀ k < noncePages, k ∈ m.accepted
  | .sign _ (.getSignature _ _ _) => False
  | _ => True

/-- The refused flag between the pages of a round (a refusal of page 0 is forgotten), the
pages that are kept, and those the signer has taken. Once `sign` is called the round is over. -/
structure Tracks (s : Serving) (m : Round) : Prop where
  waiting : (∀ page, s.task ≠ .setNonce page) → 0 < m.pages.length →
    m.pages.length < noncePages → s.statics.nonceRefused = m.refusedLater
  handling : ∀ page, s.task = .setNonce page → 0 < m.pages.length →
    (∃ p, pageOf page = some p ∧ p.toNat + 1 = m.pages.length) ∧
      (m.pages.length = 1 → m.refusedLater = false) ∧
      (1 < m.pages.length → s.statics.nonceRefused = m.refusedLater)
  kept : ∀ k : Fin noncePages, m.Carries k (s.statics.nonce k).toList
  taken : m.refused = false → m.pages.length < noncePages ∨ (∃ page, s.task = .setNonce page) →
    ∀ k < m.pages.length, (∀ page, s.task = .setNonce page → k + 1 < m.pages.length) →
      k ∈ m.accepted
  closed : m.called = true → (∀ page, s.task ≠ .setNonce page) ∧ (m.pages = [] ∨ m.Whole)
  resending : m.resending ≠ none →
    m.called = true ∧ ∃ attempt pages i, s.task = .sign attempt (.setNonce pages i)
  first : m.called = true → FirstAttempt m s.task

/-- The refused flag after `set_nonce`, page by page. -/
theorem finishPage_refused (page : Packet) (ok : Bool) (st : Statics) :
    (pageOf page = some lastNoncePage → finishPage page ok st =
      ({ st with nonceRefused := false }, some (st.nonceRefused || !ok))) ∧
    (pageOf page = some 0 → finishPage page ok st = ({ st with nonceRefused := false }, none)) ∧
    (pageOf page ≠ some lastNoncePage → pageOf page ≠ some 0 → finishPage page ok st =
      ({ st with nonceRefused := st.nonceRefused || !ok }, none)) := by
  refine ⟨fun h => ?_, fun h => ?_, fun hlast hfirst => ?_⟩
  · cases ok <;> simp [finishPage, h]
  · simp [finishPage, h, lastNoncePage]
  · cases ok <;> simp [finishPage, hlast, hfirst]

namespace Round

/-- What the next page of a round keeps of it. -/
theorem page_cases (m : Round) (data : List UInt8) :
    m.page data = init ∨
      (data[2]? = some 0 ∧ m.page data = { init with pages := [data] }) ∨
      ∃ p, data[2]? = some p ∧ p ≠ 0 ∧ p.toNat = m.pages.length ∧ m.pages.length < noncePages ∧
        m.page data =
          { m with pages := m.pages ++ [data], called := false, resending := none } := by
  unfold page
  cases hp : data[2]? with
  | none => exact Or.inl rfl
  | some p =>
    dsimp only
    split
    · next h0 => exact Or.inr (Or.inl ⟨by rw [h0], rfl⟩)
    · next h0 =>
      split
      · next hnext => exact Or.inr (Or.inr ⟨p, rfl, h0, hnext.1, hnext.2, rfl⟩)
      · exact Or.inl rfl

theorem carries_nil {m : Round} (h : m.pages = []) (k : ℕ) (data : List UInt8) :
    m.Carries k data := by
  intro page hpage
  rw [h] at hpage
  cases hpage

/-- A page that is kept is the one the round brought; the others are those of before. -/
theorem carries_page {m : Round} {page : Packet} {st : Statics}
    (h : ∀ k : Fin noncePages, m.Carries k (st.nonce k).toList) (k : Fin noncePages) :
    (m.page page.bytes).Carries k ((storePage page st).nonce k).toList := by
  have hstored : ∀ p, page.bytes[2]? = some p → p.toNat = k.val → page.bytes.length = nonceLen →
      ((storePage page st).nonce k).toList = page.bytes := by
    intro p hp hpk hlen
    have hlt : p.toNat < noncePages ∧ page.bytes.length = nonceLen := ⟨hpk ▸ k.isLt, hlen⟩
    have hk : (⟨p.toNat, hlt.1⟩ : Fin noncePages) = k := Fin.ext hpk
    simp only [storePage, pageOf, hp, dif_pos hlt, hk, Function.update_self]
  have hother : ∀ p, page.bytes[2]? = some p → p.toNat ≠ k.val →
      (storePage page st).nonce k = st.nonce k := by
    intro p hp hpk
    simp only [storePage, pageOf, hp]
    split
    · exact Function.update_of_ne (fun heq => hpk (congrArg Fin.val heq).symm) _ _
    · rfl
  rcases m.page_cases page.bytes with hinit | ⟨hp, hnew⟩ | ⟨p, hp, -, hlen, -, hnew⟩
  · rw [hinit]
    exact carries_nil rfl k _
  · rw [hnew]
    intro data hdata hlen
    have hk : k.val = 0 := by
      by_contra hk
      rw [List.getElem?_eq_none (by simp; omega)] at hdata
      cases hdata
    simp only [hk, List.getElem?_cons_zero, Option.mem_def, Option.some.injEq] at hdata
    subst hdata
    exact hstored 0 hp hk.symm hlen
  · rw [hnew]
    intro data hdata hfull
    rcases Nat.lt_trichotomy k.val m.pages.length with hk | hk | hk
    · have hold : data ∈ m.pages[k.val]? := by
        rw [← List.getElem?_append_left hk]
        exact hdata
      rw [hother p hp (by omega)]
      exact h k data hold hfull
    · simp only [hk, List.getElem?_concat_length, Option.mem_def, Option.some.injEq] at hdata
      subst hdata
      exact hstored p hp (by omega) hfull
    · rw [List.getElem?_eq_none (by simp; omega)] at hdata
      cases hdata

end Round

section Steps

variable {now : ℕ} {st st' : Statics} {m : Round}

/-- A command is taken. -/
theorem tracks_command (h : Tracks ⟨now, st, .receive⟩ m) (cmd : Cmd) :
    Tracks ⟨now, (begin cmd st).1, (begin cmd st).2⟩ (m.watch (.command cmd)) := by
  have hno : ∀ page, (Task.receive : Task) ≠ .setNonce page := fun _ hp => by cases hp
  have hall : m.refused = false → m.pages.length < noncePages →
      ∀ k < m.pages.length, k ∈ m.accepted :=
    fun hr hlt k hk => h.taken hr (Or.inl hlt) k hk fun _ hp => by cases hp
  cases cmd with
  | reset =>
    exact
      { waiting := fun _ => h.waiting hno
        handling := fun _ hp => by cases hp
        kept := h.kept
        taken := fun hr hopen k hk _ =>
          hall hr (hopen.resolve_right fun ⟨_, hp⟩ => by cases hp) k hk
        closed := fun hc => by cases hc
        resending := fun hne => absurd rfl hne
        first := fun hc => by cases hc }
  | nonce page =>
    have hcalled : (m.page page.bytes).called ≠ true := by
      rcases m.page_cases page.bytes with hnew | ⟨-, hnew⟩ | ⟨p, -, -, -, -, hnew⟩ <;>
        · rw [hnew]
          exact Bool.false_ne_true
    refine ⟨fun hne => absurd rfl (hne page), fun page' heq hpos => ?_, fun k => ?_, ?_,
      fun hc => absurd hc hcalled, ?_, fun hc => absurd hc hcalled⟩
    · obtain rfl : page = page' := by
        injection heq
      change 0 < (m.page page.bytes).pages.length at hpos
      change (∃ p, pageOf page = some p ∧ p.toNat + 1 = (m.page page.bytes).pages.length) ∧
        ((m.page page.bytes).pages.length = 1 → (m.page page.bytes).refusedLater = false) ∧
        (1 < (m.page page.bytes).pages.length →
          (storePage page st).nonceRefused = (m.page page.bytes).refusedLater)
      rcases m.page_cases page.bytes with hnew | ⟨hp, hnew⟩ | ⟨p, hp, h0, hlen, hlt, hnew⟩
      · rw [hnew] at hpos
        exact absurd hpos (Nat.lt_irrefl 0)
      · rw [hnew]
        exact ⟨⟨0, hp, rfl⟩, fun _ => rfl, fun hlt => absurd hlt (Nat.lt_irrefl 1)⟩
      · have hpos' : 0 < m.pages.length := by
          rw [← hlen]
          exact Nat.pos_of_ne_zero fun hz => h0 (UInt8.toNat_inj.mp hz)
        rw [hnew]
        refine ⟨⟨p, hp, by simp [hlen]⟩, fun hone => ?_, fun _ => ?_⟩
        · rw [List.length_append, List.length_singleton] at hone
          omega
        · rw [storePage_nonceRefused]
          exact h.waiting hno hpos' hlt
    · exact Round.carries_page h.kept k
    · intro hr _ k hk hbefore
      have hlast := hbefore page rfl
      change k + 1 < (m.page page.bytes).pages.length at hlast
      change (m.page page.bytes).refused = false at hr
      change k ∈ (m.page page.bytes).accepted
      rcases m.page_cases page.bytes with hnew | ⟨hp, hnew⟩ | ⟨p, hp, h0, hlen, hlt, hnew⟩
      · rw [hnew] at hlast
        simp [Round.init] at hlast
      · rw [hnew] at hlast
        simp at hlast
      · rw [hnew] at hr hlast ⊢
        refine hall hr hlt k ?_
        simp at hlast
        omega
    · intro hne
      change (m.page page.bytes).resending ≠ none at hne
      rcases m.page_cases page.bytes with hnew | ⟨-, hnew⟩ | ⟨p, -, -, -, -, hnew⟩ <;>
        · rw [hnew] at hne
          exact absurd rfl hne

/-- Nothing is resent while a page comes from `handle`. -/
theorem Tracks.not_resending {t : Task} (h : Tracks ⟨now, st, t⟩ m)
    (ht : ∀ attempt pages i, t ≠ .sign attempt (.setNonce pages i)) : m.resending = none := by
  by_contra hne
  obtain ⟨-, attempt, pages, i, heq⟩ := h.resending hne
  exact ht attempt pages i heq

theorem Round.watch_ended {m : Round} (h : m.resending = none) (ok : Bool) :
    m.watch (.ended ok) = m := by
  simp only [Round.watch, h]

/-- How a page was taken says nothing about the order of the pages. -/
theorem Round.watch_pageSent (m : Round) (ok : Bool) :
    (m.watch (.signer (.pageSent ok))).pages = m.pages ∧
      (m.watch (.signer (.pageSent ok))).called = m.called ∧
      (m.watch (.signer (.pageSent ok))).resending = m.resending := by
  simp only [watch]
  split
  · exact ⟨rfl, rfl, rfl⟩
  · split <;> exact ⟨rfl, rfl, rfl⟩

/-- A page is noted, refused or taken. -/
theorem Round.watch_pageSent_taken {m : Round} {ok : Bool} (hpos : 0 < m.pages.length)
    (hm : m.refused = false → ∀ k, k + 1 < m.pages.length → k ∈ m.accepted)
    (hr : (m.watch (.signer (.pageSent ok))).refused = false) {k : ℕ} (hk : k < m.pages.length) :
    k ∈ (m.watch (.signer (.pageSent ok))).accepted := by
  cases ok with
  | true =>
    change k ∈ (m.pages.length - 1) :: m.accepted
    by_cases hlast : k + 1 < m.pages.length
    · exact List.mem_cons_of_mem _ (hm hr k hlast)
    · obtain rfl : k = m.pages.length - 1 := by omega
      exact List.mem_cons_self
  | false =>
    simp only [watch, Bool.false_eq_true, if_false] at hr
    split at hr <;> simp [refused] at hr

/-- A page before the last was sent. -/
theorem tracks_page {page : Packet} {ok : Bool} (h : Tracks ⟨now, st, .setNonce page⟩ m)
    (hf : finishPage page ok st = (st', none)) :
    Tracks ⟨now, st', .receive⟩ (m.watch (.signer (.pageSent ok))) := by
  obtain ⟨hpages, hcalled, hresending⟩ := m.watch_pageSent ok
  have hnone : m.resending = none := h.not_resending fun _ _ _ heq => by cases heq
  refine ⟨fun _ hpos hlt => ?_, fun _ hp => (by cases hp), fun k => ?_, fun hr _ k hk _ => ?_,
    fun hc => absurd rfl ((h.closed (hcalled ▸ hc)).1 page), fun hne => ?_, fun _ => trivial⟩
  · rw [hpages] at hpos hlt
    obtain ⟨⟨p, hp, hpn⟩, hfirst, hlater⟩ := h.handling page rfl hpos
    obtain ⟨hlast, hzero, hother⟩ := finishPage_refused page ok st
    have hnl : pageOf page ≠ some lastNoncePage := by
      intro hl
      rw [hlast hl] at hf
      cases hf
    by_cases hz : pageOf page = some 0
    · rw [hzero hz] at hf
      obtain ⟨rfl, -⟩ := Prod.mk.inj hf
      have hone : m.pages.length = 1 := by
        rw [hp] at hz
        obtain rfl := Option.some.inj hz
        exact hpn.symm
      have hclear := hfirst hone
      simp only [Round.watch, hone]
      split <;> exact hclear.symm
    · rw [hother hnl hz] at hf
      obtain ⟨rfl, -⟩ := Prod.mk.inj hf
      have hgt : 1 < m.pages.length := by
        rcases Nat.lt_or_ge 1 m.pages.length with hlt | hle
        · exact hlt
        · exfalso
          apply hz
          rw [hp]
          congr 1
          exact UInt8.toNat_inj.mp (by simp only [UInt8.toNat_zero]; omega)
      have hne : m.pages.length ≠ 1 := by omega
      have hflag := hlater hgt
      simp only [Round.watch, if_neg hne] at hflag ⊢
      cases ok <;> simp [hflag]
  · have hkept := h.kept k
    rw [← (finishPage_spec hf).2.1] at hkept
    unfold Round.Carries at hkept ⊢
    rw [hpages]
    exact hkept
  · rw [hpages] at hk
    exact Round.watch_pageSent_taken (by omega) (fun hm j hj =>
      h.taken hm (Or.inr ⟨page, rfl⟩) j (by omega) fun _ _ => hj) hr hk
  · rw [hresending] at hne
    exact absurd hnone hne

/-- The last page was sent, and `sign` is called: what it is told, and what it goes on to. -/
theorem sign_call_iff {page : Packet} {ok resend : Bool} {es : List ServeEffect}
    (h : Tracks ⟨now, st, .setNonce page⟩ m) (hf : finishPage page ok st = (st', some resend))
    (hes : es = (goOn st' (sign resend now) [.pageSent ok, .sign resend]).2.2.map .signer) :
    (Each Round.watch ResendsRefused m es ↔ Each Round.watch NotFirstAlone m es) ∧
      (Each Round.watch ResendsRefused m es →
        Tracks ⟨now, st', sign resend now⟩ (es.foldl Round.watch m)) := by
  have hl : pageOf page = some lastNoncePage := (finishPage_spec hf).2.2 (by simp)
  have hnonce : st'.nonce = st.nonce := (finishPage_spec hf).2.1
  rw [(finishPage_refused page ok st).1 hl] at hf
  obtain ⟨-, hr⟩ := Prod.mk.inj hf
  obtain rfl := Option.some.inj hr
  obtain ⟨hpages, -, hresending⟩ := m.watch_pageSent ok
  have hnone : m.resending = none := h.not_resending fun _ _ _ heq => by cases heq
  have hfive : 0 < m.pages.length → m.Whole ∧ st.nonceRefused = m.refusedLater := by
    intro hpos
    obtain ⟨⟨p, hp, hpn⟩, -, hlater⟩ := h.handling page rfl hpos
    rw [hp] at hl
    obtain rfl := Option.some.inj hl
    have hn : m.pages.length = noncePages := hpn.symm
    exact ⟨hn, hlater (by rw [hn]; decide)⟩
  have htaken : (m.watch (.signer (.pageSent ok))).refused = false →
      ∀ k < m.pages.length, k ∈ (m.watch (.signer (.pageSent ok))).accepted := by
    intro hrefused k hk
    exact Round.watch_pageSent_taken (by omega) (fun hm j hj =>
      h.taken hm (Or.inr ⟨page, rfl⟩) j (by omega) fun _ _ => hj) hrefused hk
  -- Whatever `sign` was told, it is called with the round as the last page left it.
  have htracks : ∀ resend, FirstAttempt
        { m.watch (.signer (.pageSent ok)) with called := true, resent := 0 } (sign resend now) →
      Tracks ⟨now, st', sign resend now⟩
        { m.watch (.signer (.pageSent ok)) with called := true, resent := 0 } := by
    intro resend hfirst
    obtain ⟨step, hstep⟩ := sign_eq resend now
    have hno : ∀ page, sign resend now ≠ .setNonce page := by
      intro page hpage
      rw [hstep] at hpage
      cases hpage
    refine ⟨fun _ hpos hlt => ?_, fun page hp => absurd hp (hno page), fun k => ?_,
      fun hrefused _ k hk _ => ?_, fun _ => ⟨hno, ?_⟩, fun hne => ?_, fun _ => hfirst⟩
    · change 0 < (m.watch (.signer (.pageSent ok))).pages.length at hpos
      change (m.watch (.signer (.pageSent ok))).pages.length < noncePages at hlt
      rw [hpages] at hpos hlt
      have hwhole : m.pages.length = noncePages := (hfive hpos).1
      omega
    · have hkept := h.kept k
      unfold Round.Carries at hkept ⊢
      rw [hnonce]
      change ∀ page ∈ (m.watch (.signer (.pageSent ok))).pages[k]?, _
      rw [hpages]
      exact hkept
    · change k < (m.watch (.signer (.pageSent ok))).pages.length at hk
      rw [hpages] at hk
      exact htaken hrefused k hk
    · change (m.watch (.signer (.pageSent ok))).pages = [] ∨
        (m.watch (.signer (.pageSent ok))).pages.length = noncePages
      rw [hpages]
      exact (Nat.eq_zero_or_pos m.pages.length).imp List.length_eq_zero_iff.mp
        fun hpos => (hfive hpos).1
    · change (m.watch (.signer (.pageSent ok))).resending ≠ none at hne
      rw [hresending] at hne
      exact absurd hnone hne
  have hwhole : (m.watch (.signer (.pageSent ok))).Whole ↔ m.Whole := by
    unfold Round.Whole
    rw [hpages]
  subst hes
  cases hresend : st.nonceRefused || !ok with
  | false =>
    obtain ⟨hno, rfl⟩ : st.nonceRefused = false ∧ ok = true := by simpa using hresend
    have hclause : m.Whole → m.refusedFirst = false →
        ∀ k < noncePages, k ∈ (m.watch (.signer (.pageSent true))).accepted := by
      intro hw hfirst k hk
      have hlater := (hfive (by rw [show m.pages.length = noncePages from hw]; decide)).2
      rw [hno] at hlater
      refine htaken ?_ k (by rw [show m.pages.length = noncePages from hw]; exact hk)
      change (m.refusedFirst || m.refusedLater) = false
      rw [hfirst, ← hlater]
      rfl
    have heach : Each Round.watch ResendsRefused m
        ((goOn st' (sign false now) [.pageSent true, .sign false]).2.2.map .signer) ↔
        (m.Whole → false = m.refused) ∧
          (m.Whole → ∀ k < noncePages, k ∈ (m.watch (.signer (.pageSent true))).accepted) := by
      change (True ∧ (m.Whole → false = m.refused) ∧
        (m.Whole → true = true → idState = idState →
          ∀ k < noncePages, k ∈ (m.watch (.signer (.pageSent true))).accepted) ∧ True) ↔ _
      simp
    have hcond : Each Round.watch NotFirstAlone m
        ((goOn st' (sign false now) [.pageSent true, .sign false]).2.2.map .signer) ↔
        (m.Whole → m.refusedFirst = true → m.refusedLater = true) := by
      change (True ∧ (m.Whole → m.refusedFirst = true → m.refusedLater = true) ∧
        True ∧ True) ↔ _
      simp
    refine ⟨?_, fun hq => htracks false fun hw => (heach.mp hq).2 (hwhole.mp hw)⟩
    rw [heach, hcond]
    constructor
    · intro hq hw hfirst
      have hrefused := hq.1 hw
      simp [Round.refused, hfirst] at hrefused
    · intro hc
      have hfirst : m.Whole → m.refusedFirst = false ∧ m.refusedLater = false := by
        intro hw
        have hlater := (hfive (by rw [show m.pages.length = noncePages from hw]; decide)).2
        rw [hno] at hlater
        cases hfirst : m.refusedFirst with
        | false => exact ⟨rfl, hlater.symm⟩
        | true => exact absurd (hc hw hfirst) (by simp [← hlater])
      refine ⟨fun hw => ?_, fun hw => hclause hw (hfirst hw).1⟩
      simp [Round.refused, (hfirst hw).1, (hfirst hw).2]
  | true =>
    have hlater : m.Whole → (m.watch (.signer (.pageSent ok))).refusedLater = true := by
      intro hw
      have hn : m.pages.length = noncePages := hw
      cases ok with
      | true => simpa [Round.watch, ← (hfive (by rw [hn]; decide)).2] using hresend
      | false =>
        have hne : m.pages.length ≠ 1 := by
          rw [hn]
          decide
        simp [Round.watch, hne]
    refine ⟨?_, fun _ => htracks true rfl⟩
    change (True ∧ ((m.watch (.signer (.pageSent ok))).Whole →
          true = (m.watch (.signer (.pageSent ok))).refused) ∧ True) ↔
      (True ∧ ((m.watch (.signer (.pageSent ok))).Whole →
        (m.watch (.signer (.pageSent ok))).refusedFirst = true →
          (m.watch (.signer (.pageSent ok))).refusedLater = true) ∧ True)
    rw [hwhole]
    by_cases hw : m.Whole
    · simp [hw, Round.refused, hlater hw]
    · simp [hw]

end Steps

namespace Round

/-- The same round. What the signer has taken of it is only forgotten while it signs. -/
structure Same (m m' : Round) : Prop where
  pages : m'.pages = m.pages
  refusedFirst : m'.refusedFirst = m.refusedFirst
  refusedLater : m'.refusedLater = m.refusedLater
  called : m'.called = true → m.called = true
  accepted : m.called = false → ∀ k ∈ m.accepted, k ∈ m'.accepted

theorem Same.refl (m : Round) : m.Same m := ⟨rfl, rfl, rfl, id, fun _ _ hk => hk⟩

theorem Same.trans {m m' m'' : Round} (h : m.Same m') (h' : m'.Same m'') : m.Same m'' where
  pages := h'.pages.trans h.pages
  refusedFirst := h'.refusedFirst.trans h.refusedFirst
  refusedLater := h'.refusedLater.trans h.refusedLater
  called hc := h.called (h'.called hc)
  accepted hc k hk := by
    have hc' : m'.called = false := by
      by_contra hne
      rw [h.called (by simpa using hne)] at hc
      cases hc
    exact h'.accepted hc' k (h.accepted hc k hk)

/-- An F3 leaves all but what the signer has taken. -/
theorem watch_reset (m : Round) (len : ℕ) :
    m.watch (.signer (.transfer (.get idReset len))) =
      { m with accepted := if m.called = true then [] else m.accepted } := by
  have hid : idReset ≠ idSignature := by decide
  simp only [watch, if_neg hid, true_and]
  split <;> rfl

end Round

/-- Effects of no page from `handle` and of no call of `sign`. -/
def ServeEffect.Quiet : ServeEffect → Prop
  | .command _ | .signer (.pageSent _) | .signer (.sign _) => False
  | _ => True

theorem ServeEffect.Quiet.same {e : ServeEffect} (h : e.Quiet) (m : Round) :
    m.Same (m.watch e) := by
  cases e with
  | command cmd => exact absurd h id
  | ended ok =>
    simp only [Round.watch]
    split
    · exact .refl m
    · refine ⟨rfl, rfl, rfl, id, fun _ k hk => ?_⟩
      dsimp only
      split
      · exact List.mem_cons_of_mem _ hk
      · exact hk
  | signer e =>
    cases e with
    | pageSent | sign => exact absurd h id
    | serve | copyNonce | publish => exact .refl m
    | transfer x =>
      cases x with
      | get id len =>
        simp only [Round.watch]
        split
        · exact ⟨rfl, rfl, rfl, fun hc => (by cases hc), fun _ _ hk => hk⟩
        · split
          · next hreset =>
            exact ⟨rfl, rfl, rfl, fun hc => hc, fun hc => by simp [hreset.2] at hc⟩
          · exact .refl m
      | setNonce data =>
        simp only [Round.watch]
        split <;> exact ⟨rfl, rfl, rfl, fun hc => hc, fun _ _ hk => hk⟩

theorem same_foldl {es : List ServeEffect} (hes : ∀ e ∈ es, e.Quiet) (m : Round) :
    m.Same (es.foldl Round.watch m) := by
  induction es generalizing m with
  | nil => exact .refl m
  | cons e es ih =>
    exact ((hes e List.mem_cons_self).same m).trans
      (ih (fun e' he' => hes e' (List.mem_cons_of_mem e he')) _)

theorem quiet_notFirstAlone {es : List ServeEffect} (hes : ∀ e ∈ es, e.Quiet) (m : Round) :
    Each Round.watch NotFirstAlone m es := by
  apply Each.of_forall
  intro e he m
  have hquiet := hes e he
  cases e with
  | command | ended => trivial
  | signer e =>
    cases e with
    | sign => exact absurd hquiet id
    | transfer | serve | pageSent | copyNonce | publish => trivial

theorem Event.seen_quiet {e : Event} (he : ∀ cmd, e ≠ .command cmd) : ∀ x ∈ e.seen, x.Quiet := by
  intro x hx
  cases e with
  | command cmd => exact absurd rfl (he cmd)
  | reply r =>
    rw [List.mem_singleton.mp hx]
    trivial
  | timer => cases hx

/-- Where no page is resent the end of a transfer says nothing about the round. -/
theorem Event.seen_watch {e : Event} (he : ∀ cmd, e ≠ .command cmd) {m : Round}
    (hidle : m.resending = none) :
    Each Round.watch ResendsRefused m e.seen ∧ e.seen.foldl Round.watch m = m := by
  cases e with
  | command cmd => exact absurd rfl (he cmd)
  | reply r => exact ⟨⟨trivial, trivial⟩, Round.watch_ended hidle r.isSome⟩
  | timer => exact ⟨trivial, rfl⟩

section Steps

variable {now : ℕ} {st st' : Statics} {m m' : Round} {t t' : Task}

/-- A task that neither sends a page nor begins to leaves the flag and the pages alone. -/
theorem Tracks.goesOn (h : Tracks ⟨now, st, t⟩ m) (ht : ∀ page, t ≠ .setNonce page)
    (ht' : ∀ page, t' ≠ .setNonce page) (hnonce : st'.nonce = st.nonce)
    (hflag : st'.nonceRefused = st.nonceRefused) (hm : m.Same m')
    (hresending : m'.resending ≠ none →
      m'.called = true ∧ ∃ attempt pages i, t' = .sign attempt (.setNonce pages i))
    (hfirst : m'.called = true → FirstAttempt m' t') : Tracks ⟨now, st', t'⟩ m' where
  waiting _ hpos hlt := by
    rw [hm.pages] at hpos hlt
    rw [hm.refusedLater, ← h.waiting ht hpos hlt]
    exact hflag
  handling page hp := absurd hp (ht' page)
  kept k := by
    have hkept := h.kept k
    unfold Round.Carries at hkept ⊢
    rw [hm.pages, hnonce]
    exact hkept
  taken hrefused hopen k hk _ := by
    have hlt := hopen.resolve_right fun ⟨page, hp⟩ => ht' page hp
    rw [hm.pages] at hk hlt
    have hnot : m.called = false := by
      by_contra hne
      rcases (h.closed (by simpa using hne)).2 with hnil | hwhole
      · rw [hnil] at hk
        cases hk
      · exact absurd hwhole (Nat.ne_of_lt hlt)
    refine hm.accepted hnot k (h.taken ?_ (Or.inl hlt) k hk fun page hp => absurd hp (ht page))
    unfold Round.refused at hrefused ⊢
    rw [← hm.refusedFirst, ← hm.refusedLater]
    exact hrefused
  closed hc := by
    refine ⟨ht', ?_⟩
    unfold Round.Whole
    rw [hm.pages]
    exact (h.closed (hm.called hc)).2
  resending := hresending
  first := hfirst

/-- The end of a transfer that resends no page. -/
theorem Tracks.ended (h : Tracks ⟨now, st, t⟩ m)
    (ht : ∀ attempt pages i, t ≠ .sign attempt (.setNonce pages i)) (ok : Bool) :
    m.watch (.ended ok) = m := Round.watch_ended (h.not_resending ht) ok

/-- Nothing is seen of the step, or nothing that the round heeds. -/
theorem Tracks.same (h : Tracks ⟨now, st, t⟩ m) (ht : ∀ page, t ≠ .setNonce page)
    (hidle : m.resending = none) (ht' : ∀ page, t' ≠ .setNonce page)
    (hnonce : st'.nonce = st.nonce) (hflag : st'.nonceRefused = st.nonceRefused)
    (hfirst : m.called = true → FirstAttempt m t') : Tracks ⟨now, st', t'⟩ m :=
  h.goesOn ht ht' hnonce hflag (.refl m) (fun hne => absurd hidle hne) hfirst

/-- A page of the signature is asked for: the first attempt no longer polls. -/
theorem Tracks.reads (h : Tracks ⟨now, st, t⟩ m) (ht : ∀ page, t ≠ .setNonce page)
    (hidle : m.resending = none) (ht' : ∀ page, t' ≠ .setNonce page) :
    Tracks ⟨now, st, t'⟩ { m with called := false } :=
  h.goesOn ht ht' rfl rfl ⟨rfl, rfl, rfl, fun hc => (by cases hc), fun _ _ hk => hk⟩
    (fun hne => absurd hidle hne) fun hc => by cases hc

/-- The signer is reset: it starts over with the pages. -/
theorem Tracks.resets (h : Tracks ⟨now, st, t⟩ m) (ht : ∀ page, t ≠ .setNonce page)
    (hidle : m.resending = none) (ht' : ∀ page, t' ≠ .setNonce page) (len : ℕ)
    (hfirst : ∀ accepted, m.called = true → FirstAttempt { m with accepted := accepted } t') :
    Tracks ⟨now, st, t'⟩ (m.watch (.signer (.transfer (.get idReset len)))) := by
  have hsame : m.Same (m.watch (.signer (.transfer (.get idReset len)))) :=
    ServeEffect.Quiet.same (e := .signer (.transfer _)) trivial m
  refine h.goesOn ht ht' rfl rfl hsame (fun hne => ?_) fun hc => ?_
  · rw [Round.watch_reset] at hne
    exact absurd hidle hne
  · rw [Round.watch_reset]
    exact hfirst _ (hsame.called hc)

/-- Page `i` is resent. -/
theorem Tracks.resends (h : Tracks ⟨now, st, t⟩ m) (ht : ∀ page, t ≠ .setNonce page)
    (hidle : m.resending = none) (attempt : ℕ) (pages : Fin noncePages → Bytes nonceLen)
    (i : Fin noncePages) (hfirst : m.called = true → m.resent = i ∧
      (∀ k : Fin noncePages, m.Carries k (pages k).toList) ∧ ∀ k < i.val, k ∈ m.accepted) :
    Tracks ⟨now, st, .sign attempt (.setNonce pages i)⟩
      (m.watch (.signer (.transfer (.setNonce (pages i).toList)))) := by
  have hsame : m.Same (m.watch (.signer (.transfer (.setNonce (pages i).toList)))) :=
    ServeEffect.Quiet.same (e := .signer (.transfer _)) trivial m
  refine h.goesOn ht (fun _ hp => by cases hp) rfl rfl hsame (fun hne => ?_) fun hc => ?_
  · refine ⟨?_, attempt, pages, i, rfl⟩
    by_contra hc
    have hc' : m.called = false := by
      cases hcalled : m.called with
      | false => rfl
      | true =>
        simp only [Round.watch, hcalled, if_true] at hc
        exact absurd trivial hc
    simp only [Round.watch, hc', Bool.false_eq_true, if_false] at hne
    exact hne hidle
  · cases hcalled : m.called with
    | false =>
      simp only [Round.watch, hcalled, Bool.false_eq_true, if_false] at hc
    | true =>
      obtain ⟨hresent, hcarries, htaken⟩ := hfirst hcalled
      simp only [Round.watch, hcalled, if_true]
      exact ⟨rfl, hresent, hcarries, htaken⟩

end Steps

section Signing

variable {now : ℕ} {st : Statics} {m : Round} {attempt : ℕ}
  {pages : Fin noncePages → Bytes nonceLen} {i : Fin noncePages}

/-- The end of the transfer of a page that is resent. -/
theorem Tracks.resent (h : Tracks ⟨now, st, .sign attempt (.setNonce pages i)⟩ m) (ok : Bool) :
    (m.watch (.ended ok)).resending = none ∧ (m.watch (.ended ok)).called = m.called ∧
      (m.called = true → ok = true → (m.watch (.ended ok)).resent = i + 1 ∧
        (∀ k : Fin noncePages, (m.watch (.ended ok)).Carries k (pages k).toList) ∧
        ∀ k < i.val + 1, k ∈ (m.watch (.ended ok)).accepted) := by
  cases hdata : m.resending with
  | none =>
    rw [Round.watch_ended hdata]
    refine ⟨hdata, rfl, fun hc => ?_⟩
    obtain ⟨hsome, -⟩ := h.first hc
    rw [hdata] at hsome
    cases hsome
  | some data =>
    simp only [Round.watch, hdata]
    refine ⟨trivial, trivial, fun hc hok => ?_⟩
    obtain ⟨hsome, hresent, hcarries, htaken⟩ := h.first hc
    rw [hdata] at hsome
    obtain rfl := Option.some.inj hsome
    refine ⟨by rw [hresent], hcarries, fun k hk => ?_⟩
    rw [hresent, if_pos ⟨hok, hcarries i⟩]
    rcases Nat.lt_succ_iff_lt_or_eq.mp hk with hlt | rfl
    · exact List.mem_cons_of_mem _ (htaken k hlt)
    · exact List.mem_cons_self

/-- A page that is resent is refused, or taken. -/
theorem tracks_resent {e : Event} {r : Resumed} {es : List ServeEffect}
    (h : Tracks ⟨now, st, .sign attempt (.setNonce pages i)⟩ m)
    (hs : SignStepped now st attempt (.setNonce pages i) e r)
    (hes : es = e.seen ++ r.2.2.map .signer) :
    (∀ x ∈ es, x.Quiet) ∧ Each Round.watch ResendsRefused m es ∧
      Tracks ⟨now, r.1, r.2.1⟩ (es.foldl Round.watch m) := by
  have hno : ∀ page, Task.sign attempt (.setNonce pages i) ≠ .setNonce page :=
    fun _ hp => by cases hp
  have hquiet : ∀ x ∈ es, x.Quiet := by
    subst hes
    cases hs <;> simp [Event.seen, ServeEffect.Quiet]
  have hsame := same_foldl hquiet m
  refine ⟨hquiet, ?_⟩
  subst hes
  cases hs with
  | pageRefused =>
    obtain ⟨hidle, -, -⟩ := h.resent false
    exact ⟨⟨trivial, trivial⟩, h.goesOn hno (fun _ hp => by cases hp) rfl rfl hsame
      (fun hne => absurd hidle hne) fun _ => trivial⟩
  | pageTaken _ _ bytes =>
    obtain ⟨hidle, hcalled, htaken⟩ := h.resent true
    exact ⟨⟨trivial, trivial⟩, h.goesOn hno (fun _ hp => by cases hp) rfl rfl hsame
      (fun hne => absurd hidle hne) fun hc => htaken (hcalled ▸ hc) rfl⟩

/-- One await of `sign`: in its first attempt the signer is polled only once it has taken
every page. -/
theorem tracks_sign {step : SignStep} {e : Event} {r : Resumed} {es : List ServeEffect}
    (h : Tracks ⟨now, st, .sign attempt step⟩ m) (hs : SignStepped now st attempt step e r)
    (hes : es = e.seen ++ r.2.2.map .signer) :
    (∀ x ∈ es, x.Quiet) ∧ Each Round.watch ResendsRefused m es ∧
      Tracks ⟨now, r.1, r.2.1⟩ (es.foldl Round.watch m) := by
  by_cases hset : ∃ pages i, step = .setNonce pages i
  · obtain ⟨pages, i, rfl⟩ := hset
    exact tracks_resent h hs hes
  have hidle : m.resending = none :=
    h.not_resending fun _ pages i heq => hset ⟨pages, i, (Task.sign.inj heq).2⟩
  have hno : ∀ page, Task.sign attempt step ≠ .setNonce page := fun _ hp => by cases hp
  have he : ∀ cmd, e ≠ .command cmd := by
    rintro cmd rfl
    cases hs
  have hquiet : ∀ x ∈ r.2.2.map ServeEffect.signer, x.Quiet := by
    cases hs <;> simp [ServeEffect.Quiet]
  have hother : ∀ m id len, id ≠ idState →
      ResendsRefused m (.signer (.transfer (.get id len))) :=
    fun _ _ _ hne _ _ hid => absurd hid hne
  have hfirst := h.first
  -- Only the effects of the task itself are left.
  suffices hfx : Each Round.watch ResendsRefused m (r.2.2.map .signer) ∧
      Tracks ⟨now, r.1, r.2.1⟩ ((r.2.2.map .signer).foldl Round.watch m) by
    obtain ⟨hseen, hsame⟩ := Event.seen_watch he hidle
    rw [hes, List.foldl_append, hsame]
    refine ⟨fun x hx => ?_, Each.append hseen (hsame.symm ▸ hfx.1), hfx.2⟩
    exact (List.mem_append.mp hx).elim (Event.seen_quiet he x) (hquiet x)
  cases hs with
  | paused wake hwake =>
    exact ⟨⟨hother _ _ _ (by decide), trivial⟩,
      h.resets hno hidle (fun _ hp => by cases hp) resetLen fun _ => hfirst⟩
  | timedOut poll wake hwake hlate =>
    exact ⟨⟨hother _ _ _ (by decide), trivial⟩,
      h.resets hno hidle (fun _ hp => by cases hp) resetLen fun _ _ => trivial⟩
  | signerReset r =>
    exact ⟨trivial, h.same hno hidle (fun _ hp => by cases hp) rfl rfl hfirst⟩
  | copied wake hwake =>
    refine ⟨⟨trivial, trivial, trivial⟩, h.resends hno hidle attempt _ _ fun hc => ?_⟩
    exact ⟨hfirst hc, h.kept, fun k hk => absurd hk (Nat.not_lt_zero k)⟩
  | pageRefused pages i | pageTaken pages i bytes => exact absurd ⟨pages, i, rfl⟩ hset
  | nextPage pages i wake hwake hi =>
    exact ⟨⟨trivial, trivial⟩, h.resends hno hidle attempt _ _ fun hc => hfirst hc⟩
  | resent pages i wake hwake hi =>
    have hall : m.called = true → m.Whole → ∀ k < noncePages, k ∈ m.accepted := by
      intro hc _ k hk
      exact (hfirst hc).2.2 k (by omega)
    exact ⟨⟨fun hw hc _ => hall hc hw, trivial⟩,
      h.same hno hidle (fun _ hp => by cases hp) rfl rfl hall⟩
  | polled poll bytes hready =>
    exact ⟨trivial, h.same hno hidle (fun _ hp => by cases hp) rfl rfl hfirst⟩
  | stateLost poll =>
    exact ⟨trivial, h.same hno hidle (fun _ hp => by cases hp) rfl rfl hfirst⟩
  | pollAgain poll wake hwake hlate =>
    exact ⟨⟨fun hw hc _ => hfirst hc hw, trivial⟩,
      h.same hno hidle (fun _ hp => by cases hp) rfl rfl hfirst⟩
  | ready poll bytes hready =>
    exact ⟨⟨hother _ _ _ (by decide), trivial⟩, h.reads hno hidle fun _ hp => by cases hp⟩
  | pageRead poll pages i bytes hpage hi =>
    exact ⟨⟨hother _ _ _ (by decide), trivial⟩, h.reads hno hidle fun _ hp => by cases hp⟩
  | signAgain poll pages i r hlost hleft =>
    exact ⟨trivial, h.same hno hidle (fun _ hp => by cases hp) rfl rfl
      fun hc => absurd (hfirst hc) id⟩
  | usedUp poll pages i r hlost hleft =>
    exact ⟨⟨hother _ _ _ (by decide), trivial⟩,
      h.resets hno hidle (fun _ hp => by cases hp) resetLen fun _ _ => trivial⟩
  | published poll pages i bytes hpage hi =>
    exact ⟨⟨trivial, trivial⟩,
      h.same hno hidle (fun _ hp => by cases hp) rfl rfl fun _ => trivial⟩
  | gaveUp r =>
    exact ⟨trivial, h.same hno hidle (fun _ hp => by cases hp) rfl rfl fun _ => trivial⟩

end Signing

section Steps
variable {now : ℕ} {st : Statics} {m : Round} {t : Task}

/-- A task that handles no command polls no signer. -/
theorem tracks_idle {e : Event} {r : Resumed} {es : List ServeEffect}
    (h : Tracks ⟨now, st, t⟩ m) (ht : ∀ page, t ≠ .setNonce page)
    (hsign : ∀ attempt step, t ≠ .sign attempt step) (he : ∀ cmd, e ≠ .command cmd)
    (hr : Outcome now st t e r) (hes : es = e.seen ++ r.2.2.map .signer) :
    (∀ x ∈ es, x.Quiet) ∧ Each Round.watch ResendsRefused m es ∧
      Tracks ⟨now, r.1, r.2.1⟩ (es.foldl Round.watch m) := by
  have hidle := h.not_resending fun attempt pages i heq => hsign attempt (.setNonce pages i) heq
  have hseen := Event.seen_watch he hidle
  have hquiet := Event.seen_quiet he
  have hplain : ∀ fx : List SignerEffect, (∀ x ∈ fx, x = .serve ∨
        ∃ len, x = .transfer (.get idReset len)) → es = e.seen ++ fx.map ServeEffect.signer →
      (∀ x ∈ es, x.Quiet) ∧ Each Round.watch ResendsRefused m es ∧
        (es.foldl Round.watch m).resending = none := by
    rintro fx hfx rfl
    have hx : ∀ x ∈ fx.map ServeEffect.signer, x.Quiet ∧ ∀ m, ResendsRefused m x ∧
        (m.watch x).resending = m.resending := by
      intro x hx
      obtain ⟨y, hy, rfl⟩ := List.mem_map.mp hx
      rcases hfx y hy with rfl | ⟨len, rfl⟩
      · exact ⟨trivial, fun m => ⟨trivial, rfl⟩⟩
      · exact ⟨trivial, fun m => ⟨fun _ _ hid => absurd hid (by decide), by
          rw [Round.watch_reset]⟩⟩
    refine ⟨fun x hmem => ?_, ?_, ?_⟩
    · rcases List.mem_append.mp hmem with hmem | hmem
      · exact hquiet x hmem
      · exact (hx x hmem).1
    · refine Each.append hseen.1 ?_
      exact Each.of_forall (fun x hmem m => ((hx x hmem).2 m).1) _
    · rw [List.foldl_append, hseen.2]
      refine List.foldlRecOn (motive := fun m : Round => m.resending = none) _ _ hidle ?_
      exact fun m hm x hmem => ((hx x hmem).2 m).2.trans hm
  -- Where the task goes it is not yet, or no longer, in a first attempt.
  have hgoes : ∀ {st' : Statics} {t' : Task}, (∀ page, t' ≠ .setNonce page) →
      (∀ attempt step, t' ≠ .sign attempt step) → st'.nonce = st.nonce →
      st'.nonceRefused = st.nonceRefused → (∀ x ∈ es, x.Quiet) →
      (es.foldl Round.watch m).resending = none →
      Tracks ⟨now, st', t'⟩ (es.foldl Round.watch m) := by
    intro st' t' hno hnot hnonce hflag hq hres
    refine h.goesOn ht hno hnonce hflag (same_foldl hq m) (fun hne => absurd hres hne) fun _ => ?_
    cases t' with
    | sign attempt step => exact absurd rfl (hnot attempt step)
    | probe | probePause | notSigner | receive | reset | setNonce => trivial
  cases hr with
  | probed attempt e reset fx hfx =>
    obtain ⟨hq, heach, hres⟩ := hplain fx (by rcases hfx with rfl | rfl <;> simp) hes
    exact ⟨hq, heach, hgoes (fun _ hp => by cases hp) (fun _ _ hp => by cases hp) rfl rfl hq hres⟩
  | probing t e t' hbusy hbusy' =>
    have hfx : ∀ x ∈ (goOn st t' []).2.2, x = .serve ∨
        ∃ len, x = .transfer (.get idReset len) := by
      intro x hx
      cases t' <;> simp_all [goOn, Task.transfer, Task.Busy]
    obtain ⟨hq, heach, hres⟩ := hplain _ hfx hes
    refine ⟨hq, heach, hgoes (fun _ hp => ?_) (fun _ _ hp => ?_) rfl rfl hq hres⟩ <;>
      · change t' = _ at hp
        subst hp
        exact hbusy' trivial
  | resetDone e =>
    obtain ⟨hq, heach, hres⟩ := hplain [] (by simp) hes
    exact ⟨hq, heach, hgoes (fun _ hp => by cases hp) (fun _ _ hp => by cases hp) rfl rfl hq hres⟩
  | reset | nonce => exact absurd rfl (he _)
  | pageDone page | signs page => exact absurd rfl (ht page)
  | signing attempt step => exact absurd rfl (hsign attempt step)

end Steps

/-- One step keeps the flag in step with the round if it is in order with the property, and
is so exactly when it is with the condition. -/
theorem serving_step {s t : Serving} {m : Round} {a : ServeAct} {es : List ServeEffect}
    (h : Tracks s m) (hstep : serving.step s a = some (t, es)) :
    (Each Round.watch ResendsRefused m es → Tracks t (es.foldl Round.watch m)) ∧
      (Each Round.watch ResendsRefused m es ↔ Each Round.watch NotFirstAlone m es) := by
  obtain ⟨now, st, task⟩ := s
  change serveStep ⟨now, st, task⟩ a = some (t, es) at hstep
  cases a with
  | elapse ms =>
    cases hstep
    exact ⟨fun _ => ⟨h.waiting, h.handling, h.kept, h.taken, h.closed, h.resending, h.first⟩,
      Iff.rfl⟩
  | event e =>
    simp only [serveStep] at hstep
    cases hr : resume .wheel now st task e with
    | none => simp [hr] at hstep
    | some r =>
      obtain ⟨st', t', fx⟩ := r
      simp only [hr, Option.some.injEq, Prod.mk.injEq] at hstep
      obtain ⟨rfl, rfl⟩ := hstep
      -- Every step but the last page's has the property and the condition.
      have hboth : (∀ x ∈ e.seen ++ fx.map ServeEffect.signer, x.Quiet) ∧
            Each Round.watch ResendsRefused m (e.seen ++ fx.map ServeEffect.signer) ∧
            Tracks ⟨now, st', t'⟩ ((e.seen ++ fx.map ServeEffect.signer).foldl Round.watch m) →
          (Each Round.watch ResendsRefused m (e.seen ++ fx.map ServeEffect.signer) →
            Tracks ⟨now, st', t'⟩ ((e.seen ++ fx.map ServeEffect.signer).foldl Round.watch m)) ∧
          (Each Round.watch ResendsRefused m (e.seen ++ fx.map ServeEffect.signer) ↔
            Each Round.watch NotFirstAlone m (e.seen ++ fx.map ServeEffect.signer)) :=
        fun ⟨hquiet, heach, htracks⟩ =>
          ⟨fun _ => htracks, iff_of_true heach (quiet_notFirstAlone hquiet m)⟩
      by_cases hcmd : ∃ cmd, e = .command cmd
      · obtain ⟨cmd, rfl⟩ := hcmd
        obtain ⟨rfl, heq⟩ := resume_command hr
        obtain ⟨rfl, rfl, rfl⟩ : st' = _ ∧ t' = _ ∧ fx = _ := by
          simpa only [goOn, Prod.mk.injEq] using heq
        have htracks := tracks_command h cmd
        cases cmd with
        | reset =>
          exact ⟨fun _ => htracks, iff_of_true
            ⟨trivial, fun _ hc _ => (by cases hc), trivial⟩ ⟨trivial, trivial, trivial⟩⟩
        | nonce page =>
          have hc : (m.page page.bytes).called = false := by
            rcases m.page_cases page.bytes with hnew | ⟨-, hnew⟩ | ⟨p, -, -, -, -, hnew⟩ <;>
              rw [hnew] <;> rfl
          have hkeep : (m.page page.bytes).watch (.signer (.transfer (.setNonce page.bytes))) =
              m.page page.bytes := by
            simp only [Round.watch, hc, Bool.false_eq_true, if_false]
          refine ⟨fun _ => ?_, iff_of_true ⟨trivial, trivial, trivial⟩ ⟨trivial, trivial, trivial⟩⟩
          change Tracks _ ((m.page page.bytes).watch (.signer (.transfer (.setNonce page.bytes))))
          rw [hkeep]
          exact htracks
      · have he : ∀ cmd, e ≠ .command cmd := not_exists.mp hcmd
        by_cases hpage : ∃ page, task = .setNonce page
        · obtain ⟨page, rfl⟩ := hpage
          generalize hout : (st', t', fx) = r at hr
          cases resume_outcome hr with
          | pageDone page r st₁ hf =>
            cases hout
            have hended := h.ended (fun _ _ _ heq => by cases heq) r.isSome
            refine ⟨fun _ => ?_,
              iff_of_true ⟨trivial, trivial, trivial⟩ ⟨trivial, trivial, trivial⟩⟩
            change Tracks _ ((m.watch (.ended r.isSome)).watch (.signer (.pageSent r.isSome)))
            rw [hended]
            exact tracks_page h hf
          | signs page r st₁ resend hf =>
            cases hout
            have hended := h.ended (fun _ _ _ heq => by cases heq) r.isSome
            obtain ⟨hiff, htracks⟩ := sign_call_iff h hf rfl
            simp only [Event.seen, List.singleton_append, Each.cons_iff, List.foldl_cons, hended,
              ResendsRefused, NotFirstAlone, true_and]
            exact ⟨htracks, hiff⟩
          | probing t e t' hidle => exact absurd trivial hidle
        · have ht : ∀ page, task ≠ .setNonce page := not_exists.mp hpage
          by_cases hsign : ∃ attempt step, task = .sign attempt step
          · obtain ⟨attempt, step, rfl⟩ := hsign
            have hs := resumeSign_stepped (show resumeSign now st attempt step e = _ from hr)
            exact hboth (tracks_sign h hs rfl)
          · refine hboth (tracks_idle h ht ?_ he (resume_outcome hr) rfl)
            exact fun attempt step heq => hsign ⟨attempt, step, heq⟩

/-- Page `page` of a nonce: taken or refused by the signer. -/
def page (n : UInt8) (ok : Bool) : List ServeAct :=
  [.event (.command (.nonce (Packet.new ([idNonce, 1, n, 0] ++ List.replicate 60 n)))),
    .event (.reply (if ok then some [] else none))]

/-- The signer refuses page 0 and takes the rest. -/
def firstRefused : List ServeAct :=
  page 0 false ++ page 1 true ++ page 2 true ++ page 3 true ++ page 4 true

end WheelBridge.Auth
