import WheelBridge.Machine

/-!
Refinement between machines: every step of the one is a run of the other between the
states that belong to it, with the effects the other knows of. Whole runs then are as
well, and what holds in every state the other reaches holds in every state of the one.
-/
namespace WheelBridge

theorem Each.append {ε μ : Type*} {watch : μ → ε → μ} {Q : μ → ε → Prop} {m : μ}
    {es fs : List ε} (h : Each watch Q m es) (h' : Each watch Q (es.foldl watch m) fs) :
    Each watch Q m (es ++ fs) := by
  induction es generalizing m with
  | nil => exact h'
  | cons e es ih => exact ⟨h.1, ih h.2 h'⟩

section Seen

variable {γ ε δ : Type*}

/-- Effects of a kind that is seen as it is. -/
theorem filterMap_seen (f : γ → ε) (see : ε → Option γ) (h : ∀ x, see (f x) = some x)
    (es : List γ) : (es.map f).filterMap see = es := by
  have hall : see ∘ f = some := funext h
  rw [List.filterMap_map, hall, List.filterMap_some]

/-- Effects of a kind that is not seen. -/
theorem filterMap_unseen (f : γ → ε) (see : ε → Option δ) (h : ∀ x, see (f x) = none)
    (es : List γ) : (es.map f).filterMap see = [] := by
  rw [List.filterMap_map]
  exact List.filterMap_eq_nil_iff.mpr fun x _ => h x

end Seen

namespace Machine

variable {σ α ε τ β δ : Type*}

section Runs

variable {M : Machine σ α ε}

theorem run_cons_eq_some {s u : σ} {a : α} {as : List α} {es : List ε} :
    M.run s (a :: as) = some (u, es) ↔
      ∃ t fs gs, M.step s a = some (t, fs) ∧ M.run t as = some (u, gs) ∧ fs ++ gs = es := by
  rw [run]
  cases h : M.step s a with
  | none => simp
  | some r =>
    obtain ⟨t, fs⟩ := r
    simp only [Option.map_eq_some_iff, Option.some.injEq, Prod.mk.injEq, Prod.exists]
    constructor
    · rintro ⟨u', gs, hrun, rfl, rfl⟩
      exact ⟨t, fs, gs, ⟨rfl, rfl⟩, hrun, rfl⟩
    · rintro ⟨t', fs', gs, ⟨rfl, rfl⟩, hrun, rfl⟩
      exact ⟨u, gs, hrun, rfl, rfl⟩

theorem run_single {s t : σ} {a : α} {es : List ε} (h : M.step s a = some (t, es)) :
    M.run s [a] = some (t, es) :=
  run_cons_eq_some.mpr ⟨t, es, [], h, rfl, List.append_nil es⟩

theorem run_append {s t u : σ} {as bs : List α} {es fs : List ε} (h : M.run s as = some (t, es))
    (h' : M.run t bs = some (u, fs)) : M.run s (as ++ bs) = some (u, es ++ fs) := by
  induction as generalizing s es with
  | nil =>
    cases h
    exact h'
  | cons a as ih =>
    obtain ⟨s', gs, hs, hstep, hrun, rfl⟩ := run_cons_eq_some.mp h
    exact run_cons_eq_some.mpr ⟨s', gs, hs ++ fs, hstep, ih hrun, (List.append_assoc ..).symm⟩

/-- In the runs of actions that meet `C`: what a step keeps is there at the end, and all
effects are as one step's. -/
theorem run_always_of (C : α → Prop) (Inv : σ → Prop) (Q : ε → Prop)
    (hstep : ∀ s a t es, Inv s → C a → M.step s a = some (t, es) → Inv t ∧ ∀ e ∈ es, Q e)
    {s t : σ} {as : List α} {es : List ε} (hc : ∀ a ∈ as, C a) (hi : Inv s)
    (h : M.run s as = some (t, es)) : Inv t ∧ ∀ e ∈ es, Q e := by
  induction as generalizing s es with
  | nil =>
    cases h
    exact ⟨hi, fun e he => by cases he⟩
  | cons a as ih =>
    obtain ⟨s', fs, gs, hone, hrun, rfl⟩ := run_cons_eq_some.mp h
    obtain ⟨hi', hfirst⟩ := hstep s a s' fs hi (hc a (List.mem_cons_self ..)) hone
    obtain ⟨hend, hlater⟩ := ih (fun b hb => hc b (List.mem_cons_of_mem a hb)) hi' hrun
    exact ⟨hend, fun e he => (List.mem_append.mp he).elim (hfirst e) (hlater e)⟩

theorem run_always (Inv : σ → Prop) (Q : ε → Prop)
    (hstep : ∀ s a t es, Inv s → M.step s a = some (t, es) → Inv t ∧ ∀ e ∈ es, Q e) {s t : σ}
    {as : List α} {es : List ε} (hi : Inv s) (h : M.run s as = some (t, es)) :
    Inv t ∧ ∀ e ∈ es, Q e :=
  run_always_of (fun _ => True) Inv Q (fun s a t es hi _ hstep' => hstep s a t es hi hstep')
    (fun _ _ => trivial) hi h

/-- What the effects of each step have, those of a run have if it can be put together. -/
theorem run_effects (P : List ε → Prop) (hnil : P [])
    (happend : ∀ es fs, P es → P fs → P (es ++ fs))
    (hstep : ∀ s a t es, M.step s a = some (t, es) → P es) {s t : σ} {as : List α}
    {es : List ε} (h : M.run s as = some (t, es)) : P es := by
  induction as generalizing s es with
  | nil =>
    cases h
    exact hnil
  | cons a as ih =>
    obtain ⟨s', fs, gs, hone, hrun, rfl⟩ := run_cons_eq_some.mp h
    exact happend fs gs (hstep s a s' fs hone) (ih hrun)

/-- What a watcher has seen at the end of a run, if each step keeps it. -/
theorem run_watched {μ : Type*} {watch : μ → ε → μ} (Inv : σ → μ → Prop)
    (hstep : ∀ s m a t es, Inv s m → M.step s a = some (t, es) → Inv t (es.foldl watch m))
    {s t : σ} {m : μ} {as : List α} {es : List ε} (hi : Inv s m)
    (h : M.run s as = some (t, es)) : Inv t (es.foldl watch m) := by
  induction as generalizing s m es with
  | nil =>
    cases h
    exact hi
  | cons a as ih =>
    obtain ⟨s', fs, gs, hone, hrun, rfl⟩ := run_cons_eq_some.mp h
    rw [List.foldl_append]
    exact ih (hstep s m a s' fs hi hone) hrun

end Runs

/-- `M` does what `N` can do: `abs` is the state of `N` behind one of `M`, and `see` is what
an effect of `M` is to `N`, if anything. -/
structure Refines (M : Machine σ α ε) (N : Machine τ β δ) (abs : σ → τ) (see : ε → Option δ) :
    Prop where
  step : ∀ s a t es, M.step s a = some (t, es) →
    ∃ bs, N.run (abs s) bs = some (abs t, es.filterMap see)

namespace Refines

variable {M : Machine σ α ε} {N : Machine τ β δ} {abs : σ → τ} {see : ε → Option δ}

theorem run (h : M.Refines N abs see) {s t : σ} {as : List α} {es : List ε}
    (hrun : M.run s as = some (t, es)) :
    ∃ bs, N.run (abs s) bs = some (abs t, es.filterMap see) := by
  induction as generalizing s es with
  | nil =>
    cases hrun
    exact ⟨[], rfl⟩
  | cons a as ih =>
    obtain ⟨u, fs, gs, hone, hrest, rfl⟩ := run_cons_eq_some.mp hrun
    obtain ⟨bs, hbs⟩ := h.step s a u fs hone
    obtain ⟨cs, hcs⟩ := ih hrest
    rw [List.filterMap_append]
    exact ⟨bs ++ cs, run_append hbs hcs⟩

/-- What every run of `N` ends in, so does every run of `M`. -/
theorem reaches (h : M.Refines N abs see) (P : τ → Prop) {s t : σ} {as : List α} {es : List ε}
    (hP : ∀ bs u fs, N.run (abs s) bs = some (u, fs) → P u) (hrun : M.run s as = some (t, es)) :
    P (abs t) := by
  obtain ⟨bs, hbs⟩ := h.run hrun
  exact hP bs _ _ hbs

end Refines

end Machine

end WheelBridge
