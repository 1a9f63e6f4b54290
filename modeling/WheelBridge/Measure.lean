import WheelBridge.Refinement

/-!
Machines that come to an end: where a number that never grows falls with every action that
does some work, a run has no more such actions than the number it starts with.
-/
namespace WheelBridge

namespace Machine

variable {σ α ε : Type*} {M : Machine σ α ε}

/-- The actions that `works` says do some work. -/
def effort (works : α → Bool) (as : List α) : ℕ := (as.filter works).length

theorem effort_cons (works : α → Bool) (a : α) (as : List α) :
    effort works (a :: as) = effort works as + if works a then 1 else 0 := by
  unfold effort
  by_cases h : works a
  · rw [List.filter_cons_of_pos h, List.length_cons, if_pos h]
  · rw [List.filter_cons_of_neg h, if_neg h, Nat.add_zero]

/-- `left` is the work that is left, in the states that `Inv` allows. -/
theorem effort_le {works : α → Bool} {left : σ → ℕ} (Inv : σ → Prop)
    (hstep : ∀ s a t es, Inv s → M.step s a = some (t, es) →
      Inv t ∧ left t + (if works a then 1 else 0) ≤ left s) {s t : σ} {as : List α} {es : List ε}
    (hi : Inv s) (h : M.run s as = some (t, es)) : effort works as + left t ≤ left s := by
  induction as generalizing s es with
  | nil =>
    cases h
    exact Nat.le_of_eq (Nat.zero_add _)
  | cons a as ih =>
    obtain ⟨u, fs, gs, hone, hrest, rfl⟩ := run_cons_eq_some.mp h
    obtain ⟨hi', hfirst⟩ := hstep s a u fs hi hone
    have hlater := ih hi' hrest
    rw [effort_cons]
    omega

end Machine

end WheelBridge
