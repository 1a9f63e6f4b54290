import Mathlib.Data.List.Destutter

/-!
Equal neighbours of a sequence merged, as it grows at its end. The sequence starts from
a value that is in force before its first element.
-/
namespace WheelBridge

variable {α : Type*} [DecidableEq α]

/-- The values a sequence switches to, from `a` on. -/
abbrev merged (a : α) (l : List α) : List α := l.destutter' (· ≠ ·) a

theorem merged_cons (a b : α) (l : List α) :
    merged a (b :: l) = if b = a then merged a l else a :: merged b l := by
  rw [merged, List.destutter'_cons]
  by_cases h : b = a
  · subst h
    simp
  · rw [if_neg h, if_pos (Ne.symm h)]

/-- The last value switched to is the last value. -/
theorem getLast?_merged (a : α) (l : List α) :
    (merged a l).getLast? = some (l.getLastD a) := by
  induction l generalizing a with
  | nil => rfl
  | cons b l ih =>
    rw [merged_cons]
    by_cases h : b = a
    · subst h
      rw [if_pos rfl, ih]
      cases l <;> rfl
    · rw [if_neg h, List.getLast?_cons, ih b]
      cases l <;> rfl

theorem merged_concat (a : α) (l : List α) (b : α) :
    merged a (l ++ [b]) =
      if (merged a l).getLast? = some b then merged a l else merged a l ++ [b] := by
  induction l generalizing a with
  | nil =>
    rw [List.nil_append, merged_cons]
    by_cases h : b = a
    · subst h
      simp
    · simp [h, Ne.symm h]
  | cons c l ih =>
    rw [List.cons_append, merged_cons, merged_cons]
    by_cases h : c = a
    · rw [if_pos h, if_pos h, ih]
    · rw [if_neg h, if_neg h, ih, List.getLast?_cons]
      have hlast := getLast?_merged c l
      rw [hlast]
      simp only [Option.getD_some, List.cons_append]
      split <;> rfl

/-- Sequences that are merged into the same one still are with a value added to both. -/
theorem merged_concat_congr {a : α} {l l' : List α} (h : merged a l = merged a l') (b : α) :
    merged a (l ++ [b]) = merged a (l' ++ [b]) := by
  rw [merged_concat, merged_concat, h]

/-- A value added at the end leaves the merged sequence as it was if it is the last one
already. -/
theorem merged_concat_eq_iff (a : α) (l : List α) (b : α) :
    merged a (l ++ [b]) = merged a l ↔ l.getLastD a = b := by
  rw [merged_concat, getLast?_merged]
  by_cases h : l.getLastD a = b <;> simp

/-- A repetition inside the sequence is merged away. -/
theorem merged_append_cons (a : α) (l r : List α) {b : α} (h : l.getLastD a = b) :
    merged a (l ++ b :: r) = merged a (l ++ r) := by
  induction l generalizing a with
  | nil =>
    obtain rfl : a = b := h
    rw [List.nil_append, merged_cons, if_pos rfl, List.nil_append]
  | cons c l ih =>
    have hc : l.getLastD c = b := by
      cases l <;> exact h
    rw [List.cons_append, List.cons_append, merged_cons, merged_cons]
    by_cases hca : c = a
    · subst hca
      rw [if_pos rfl, if_pos rfl, ih c hc]
    · rw [if_neg hca, if_neg hca, ih c hc]

end WheelBridge
