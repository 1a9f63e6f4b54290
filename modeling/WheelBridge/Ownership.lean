import Mathlib.Data.Finset.Basic

/-!
Resources and their holders. Each resource that has been given out is held by exactly one
holder, a holder holds at most one; acquiring, releasing and moving keep it so.
-/
namespace WheelBridge

variable {χ ρ : Type*}

structure Owned (given : Finset ρ) (holds : χ → Option ρ) : Prop where
  given_iff : ∀ a, a ∈ given ↔ ∃ x, holds x = some a
  distinct : ∀ x y a, holds x = some a → holds y = some a → x = y

theorem Owned.empty : Owned (∅ : Finset ρ) (fun _ : χ => none) where
  given_iff a := by simp
  distinct x y a hx := by cases hx

theorem Owned.mem {given : Finset ρ} {holds : χ → Option ρ} {x : χ} {a : ρ}
    (h : Owned given holds) (hx : holds x = some a) : a ∈ given :=
  (h.given_iff a).mpr ⟨x, hx⟩

theorem Owned.of_eq {given : Finset ρ} {holds holds' : χ → Option ρ} (h : Owned given holds)
    (heq : holds' = holds) : Owned given holds' := by
  rw [heq]
  exact h

variable [DecidableEq χ]

/-- An entry of a table that is cleared, and of one that is filled. -/
theorem update_none_eq_some {f : χ → Option ρ} {x y : χ} {a : ρ} :
    Function.update f x none y = some a ↔ y ≠ x ∧ f y = some a := by
  by_cases hxy : y = x
  · subst hxy
    simp
  · simp [hxy]

theorem update_some_eq_some {f : χ → Option ρ} {x y : χ} {a b : ρ} :
    Function.update f x (some b) y = some a ↔ y = x ∧ b = a ∨ y ≠ x ∧ f y = some a := by
  by_cases hxy : y = x
  · subst hxy
    simp
  · simp [hxy]

namespace Owned

variable [DecidableEq ρ] {given : Finset ρ} {holds : χ → Option ρ} {x y : χ} {a : ρ}

theorem acquire (h : Owned given holds) (ha : a ∉ given) (hx : holds x = none) :
    Owned (insert a given) (Function.update holds x (some a)) where
  given_iff b := by
    rw [Finset.mem_insert, h.given_iff b]
    constructor
    · intro hb
      rcases hb with rfl | ⟨y, hy⟩
      · exact ⟨x, update_some_eq_some.mpr (Or.inl ⟨rfl, rfl⟩)⟩
      · refine ⟨y, update_some_eq_some.mpr (Or.inr ⟨?_, hy⟩)⟩
        intro heq
        rw [heq, hx] at hy
        cases hy
    · intro hb
      obtain ⟨y, hy⟩ := hb
      rcases update_some_eq_some.mp hy with ⟨-, rfl⟩ | ⟨-, hy⟩
      · exact Or.inl rfl
      · exact Or.inr ⟨y, hy⟩
  distinct y z b hy hz := by
    have hnew : ∀ w, holds w ≠ some a := fun w hw => ha (h.mem hw)
    rcases update_some_eq_some.mp hy with ⟨rfl, rfl⟩ | ⟨-, hy⟩
    · rcases update_some_eq_some.mp hz with ⟨rfl, -⟩ | ⟨-, hz⟩
      · rfl
      · exact absurd hz (hnew z)
    · rcases update_some_eq_some.mp hz with ⟨-, rfl⟩ | ⟨-, hz⟩
      · exact absurd hy (hnew y)
      · exact h.distinct y z b hy hz

theorem release (h : Owned given holds) (hx : holds x = some a) :
    Owned (given.erase a) (Function.update holds x none) where
  given_iff b := by
    rw [Finset.mem_erase, h.given_iff b]
    constructor
    · intro hb
      obtain ⟨hne, y, hy⟩ := hb
      refine ⟨y, update_none_eq_some.mpr ⟨?_, hy⟩⟩
      intro heq
      rw [heq, hx] at hy
      exact hne (Option.some.inj hy).symm
    · intro hb
      obtain ⟨y, hy⟩ := hb
      obtain ⟨hne, hy⟩ := update_none_eq_some.mp hy
      refine ⟨?_, y, hy⟩
      intro heq
      rw [heq] at hy
      exact hne (h.distinct y x a hy hx)
  distinct y z b hy hz :=
    h.distinct y z b (update_none_eq_some.mp hy).2 (update_none_eq_some.mp hz).2

theorem move (h : Owned given holds) (hx : holds x = some a) (hy : holds y = none) :
    Owned given (Function.update (Function.update holds x none) y (some a)) := by
  have hmem := h.mem hx
  have hempty : Function.update holds x none y = none := by
    rw [Function.update_apply, hy, ite_self]
  have hback := (h.release hx).acquire (Finset.notMem_erase a given) hempty
  rwa [Finset.insert_erase hmem] at hback

/-- Nothing but what `x` holds has been given out exactly when nobody else holds anything. -/
theorem erase_eq_empty_iff (h : Owned given holds) (hx : holds x = some a) :
    given.erase a = ∅ ↔ ∀ y, y ≠ x → holds y = none := by
  constructor
  · intro hempty y hne
    by_contra hy
    obtain ⟨b, hb⟩ := Option.ne_none_iff_exists'.mp hy
    have hmem : b ∈ given.erase a := by
      apply Finset.mem_erase.mpr
      refine ⟨?_, h.mem hb⟩
      intro heq
      rw [heq] at hb
      exact hne (h.distinct y x a hb hx)
    rw [hempty] at hmem
    exact Finset.notMem_empty b hmem
  · intro hnone
    apply Finset.eq_empty_of_forall_notMem
    intro b hb
    obtain ⟨y, hy⟩ := ((h.release hx).given_iff b).mp hb
    obtain ⟨hne, hy⟩ := update_none_eq_some.mp hy
    rw [hnone y hne] at hy
    cases hy

end Owned

end WheelBridge
