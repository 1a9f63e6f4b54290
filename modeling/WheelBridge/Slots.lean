import Mathlib.Data.List.Induction
import Mathlib.Tactic.Common

/-!
Arrays of optional entries that are filled from the front: a table in `cap` slots is its
entries, then free slots.
-/
namespace WheelBridge

variable {α : Type*}

def slots (cap : ℕ) (table : List α) : List (Option α) :=
  table.map some ++ List.replicate (cap - table.length) none

variable {cap : ℕ} {table : List α}

theorem length_slots (hle : table.length ≤ cap) : (slots cap table).length = cap := by
  unfold slots
  rw [List.length_append, List.length_map, List.length_replicate]
  omega

theorem getElem?_slots (i : ℕ) (hi : i < table.length) :
    (slots cap table)[i]? = some (some table[i]) := by
  unfold slots
  rw [List.getElem?_append_left (by rw [List.length_map]; exact hi), List.getElem?_map,
    List.getElem?_eq_getElem hi]
  rfl

/-- Past the table the slots are free. -/
theorem getElem?_slots_of_lt (i : ℕ) (hi : i < cap) :
    (slots cap table)[i]? = some table[i]? := by
  by_cases hlt : i < table.length
  · rw [getElem?_slots i hlt, List.getElem?_eq_getElem hlt]
  · unfold slots
    rw [List.getElem?_append_right (by rw [List.length_map]; omega),
      List.getElem?_replicate_of_lt (by rw [List.length_map]; omega),
      List.getElem?_eq_none (by omega)]

/-- The entries in slot order. -/
theorem filterMap_slots : (slots cap table).filterMap id = table := by
  unfold slots
  rw [List.filterMap_append, List.filterMap_map, List.filterMap_replicate_of_none rfl]
  simp

theorem findIdx?_slots (q : α → Bool) :
    ((slots cap table).findIdx? fun slot => slot.any q) = table.findIdx? q := by
  have hmap : (fun slot : Option α => slot.any q) ∘ some = q := rfl
  unfold slots
  rw [List.findIdx?_append, List.findIdx?_map, hmap, List.findIdx?_replicate]
  simp

/-- The first free slot is the one after the table. -/
theorem findIdx?_slots_free (hle : table.length ≤ cap) :
    (slots cap table).findIdx? Option.isNone =
      if table.length < cap then some table.length else none := by
  have hnone : (table.map some).findIdx? Option.isNone = none := by
    rw [List.findIdx?_eq_none_iff]
    intro slot hslot
    obtain ⟨r, -, rfl⟩ := List.mem_map.mp hslot
    rfl
  unfold slots
  rw [List.findIdx?_append, hnone, List.findIdx?_replicate]
  by_cases hlt : table.length < cap
  · have hpos : 0 < cap - table.length := Nat.sub_pos_of_lt hlt
    rw [if_pos ⟨hpos, rfl⟩, if_pos hlt, Option.map_some, List.length_map, Nat.zero_add]
    rfl
  · have hnot : ¬ (0 < cap - table.length ∧ (none : Option α).isNone = true) := by omega
    rw [if_neg hnot, if_neg hlt]
    rfl

theorem slots_set (i : ℕ) (hi : i < table.length) (a : α) :
    (slots cap table).set i (some a) = slots cap (table.set i a) := by
  unfold slots
  rw [List.set_append_left _ _ (by rw [List.length_map]; exact hi), List.map_set, List.length_set]

theorem slots_append (hlt : table.length < cap) (a : α) :
    (slots cap table).set table.length (some a) = slots cap (table ++ [a]) := by
  have hfree : cap - table.length = cap - (table ++ [a]).length + 1 := by
    rw [List.length_append, List.length_singleton]
    omega
  unfold slots
  rw [List.set_append_right _ _ (by simp), List.length_map, Nat.sub_self, hfree,
    List.replicate_succ, List.set_cons_zero, List.map_append, List.append_assoc]
  rfl

end WheelBridge
