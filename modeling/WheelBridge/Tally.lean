import Mathlib.Data.List.Nodup
import Mathlib.Data.List.Induction
import Mathlib.Data.List.Infix
import Mathlib.Tactic.Common

/-!
Bounded tables of counters. An item is added to the entry of its key; the first item of a
key takes the next free entry, and is left out, with all that follow it under that key,
once the table is full. The table is therefore the first keys in order, each with all of
its items.
-/
namespace WheelBridge

/-- Entries that count items by key: an entry is started by an item and goes on with the
items of the same key. -/
structure Counter (ι κ α : Type*) where
  key : ι → κ
  keyOf : α → κ
  start : ι → α
  add : α → ι → α
  keyOf_start : ∀ x, keyOf (start x) = key x
  keyOf_add : ∀ a x, keyOf (add a x) = keyOf a

namespace Counter

variable {ι κ α : Type*} [DecidableEq κ] (c : Counter ι κ α) (cap : ℕ)

def record (t : List α) (x : ι) : List α :=
  if c.key x ∈ t.map c.keyOf then t.map fun a => if c.keyOf a = c.key x then c.add a x else a
  else if t.length < cap then t ++ [c.start x] else t

def tally (xs : List ι) : List α := xs.foldl (c.record cap) []

/-- The first item of each key, in order. -/
def firsts : List ι → List ι
  | [] => []
  | x :: xs => x :: (firsts xs).filter fun y => c.key y ≠ c.key x

/-- The entry that was started by `x`. -/
def total (xs : List ι) (x : ι) : α :=
  ((xs.filter fun y => c.key y = c.key x).tail).foldl c.add (c.start x)

theorem length_record_le {t : List α} (h : t.length ≤ cap) (x : ι) :
    (c.record cap t x).length ≤ cap := by
  unfold record
  split
  · rwa [List.length_map]
  · split
    · rw [List.length_append, List.length_singleton]
      omega
    · exact h

theorem record_nodup {t : List α} (h : (t.map c.keyOf).Nodup) (x : ι) :
    ((c.record cap t x).map c.keyOf).Nodup := by
  unfold record
  split
  · have hsame : (t.map fun a => if c.keyOf a = c.key x then c.add a x else a).map c.keyOf =
        t.map c.keyOf := by
      rw [List.map_map]
      refine List.map_congr_left fun a _ => ?_
      rw [Function.comp_apply]
      split
      · exact c.keyOf_add a x
      · rfl
    rwa [hsame]
  · next hnew =>
    split
    · rw [List.map_append, List.map_singleton, c.keyOf_start]
      exact List.nodup_append.mpr ⟨h, List.nodup_singleton _, by
        intro k hk l hl
        obtain rfl := List.mem_singleton.mp hl
        intro heq
        exact hnew (heq ▸ hk)⟩
    · exact h

theorem mem_of_mem_firsts {xs : List ι} {x : ι} (h : x ∈ c.firsts xs) : x ∈ xs := by
  induction xs with
  | nil => exact h
  | cons y ys ih =>
    rcases List.mem_cons.mp h with rfl | hy
    · exact List.mem_cons_self ..
    · exact List.mem_cons_of_mem y (ih (List.mem_filter.mp hy).1)

theorem key_mem_firsts {xs : List ι} {k : κ} :
    k ∈ (c.firsts xs).map c.key ↔ k ∈ xs.map c.key := by
  induction xs with
  | nil => exact Iff.rfl
  | cons x xs ih =>
    rw [firsts, List.map_cons, List.map_cons, List.mem_cons, List.mem_cons, ← ih]
    by_cases hk : k = c.key x
    · simp [hk]
    · simp only [hk, false_or, List.mem_map, List.mem_filter, decide_eq_true_eq]
      constructor
      · intro h
        obtain ⟨y, ⟨hy, -⟩, hyk⟩ := h
        exact ⟨y, hy, hyk⟩
      · intro h
        obtain ⟨y, hy, rfl⟩ := h
        exact ⟨y, ⟨hy, hk⟩, rfl⟩

theorem firsts_nodup (xs : List ι) : ((c.firsts xs).map c.key).Nodup := by
  induction xs with
  | nil => exact List.nodup_nil
  | cons x xs ih =>
    rw [firsts, List.map_cons, List.nodup_cons]
    constructor
    · simp
    · exact ih.sublist (List.filter_sublist.map c.key)

/-- An item is the first of its key exactly when the key is new. -/
theorem firsts_concat (xs : List ι) (x : ι) :
    c.firsts (xs ++ [x]) =
      if c.key x ∈ xs.map c.key then c.firsts xs else c.firsts xs ++ [x] := by
  induction xs with
  | nil => rfl
  | cons y ys ih =>
    rw [List.cons_append, firsts, ih, firsts, List.map_cons]
    by_cases hmem : c.key x ∈ ys.map c.key
    · rw [if_pos hmem, if_pos (List.mem_cons_of_mem _ hmem)]
    · rw [if_neg hmem, List.filter_append]
      by_cases hxy : c.key x = c.key y
      · rw [hxy, if_pos (List.mem_cons_self ..)]
        simp [hxy]
      · have hnot : c.key x ∉ c.key y :: ys.map c.key := by
          intro h
          rcases List.mem_cons.mp h with h | h
          · exact hxy h
          · exact hmem h
        rw [if_neg hnot]
        simp [hxy]

theorem firsts_prefix (xs ys : List ι) : c.firsts xs <+: c.firsts (xs ++ ys) := by
  induction ys generalizing xs with
  | nil =>
    rw [List.append_nil]
  | cons y ys ih =>
    have hsplit : xs ++ y :: ys = (xs ++ [y]) ++ ys := by simp
    rw [hsplit]
    refine List.IsPrefix.trans ?_ (ih (xs ++ [y]))
    rw [firsts_concat]
    split
    · exact List.prefix_rfl
    · exact List.prefix_append ..

/-- A first item is the first of the items with its key. -/
theorem filter_of_mem_firsts {xs : List ι} {x : ι} (hx : x ∈ c.firsts xs) :
    ∃ later, xs.filter (fun y => c.key y = c.key x) = x :: later := by
  induction xs with
  | nil => cases hx
  | cons y ys ih =>
    rcases List.mem_cons.mp hx with rfl | hy
    · exact ⟨_, List.filter_cons_of_pos (decide_eq_true rfl)⟩
    · obtain ⟨hmem, hkey⟩ := List.mem_filter.mp hy
      obtain ⟨later, hlater⟩ := ih hmem
      have hne : c.key y ≠ c.key x := fun h => of_decide_eq_true hkey h.symm
      exact ⟨later, by rwa [List.filter_cons_of_neg (by simpa using hne)]⟩

omit [DecidableEq κ] in
theorem keyOf_foldl (xs : List ι) (a : α) : c.keyOf (xs.foldl c.add a) = c.keyOf a := by
  induction xs generalizing a with
  | nil => rfl
  | cons x xs ih => rw [List.foldl_cons, ih, c.keyOf_add]

@[simp]
theorem keyOf_total (xs : List ι) (x : ι) : c.keyOf (c.total xs x) = c.key x := by
  rw [total, keyOf_foldl, c.keyOf_start]

/-- One more item goes to the entry of its key. -/
theorem total_concat {xs : List ι} {y : ι} (hy : y ∈ xs) (x : ι) :
    c.total (xs ++ [x]) y =
      if c.key y = c.key x then c.add (c.total xs y) x else c.total xs y := by
  have hne : xs.filter (fun z => c.key z = c.key y) ≠ [] :=
    List.ne_nil_of_mem (List.mem_filter.mpr ⟨hy, decide_eq_true rfl⟩)
  unfold total
  rw [List.filter_append]
  by_cases hk : c.key y = c.key x
  · have hone : [x].filter (fun z => c.key z = c.key y) = [x] := by simp [hk]
    rw [hone, if_pos hk, List.tail_append_of_ne_nil hne, List.foldl_append]
    rfl
  · have hnone : [x].filter (fun z => c.key z = c.key y) = [] := by simp [Ne.symm hk]
    rw [hnone, if_neg hk, List.append_nil]

theorem total_new {xs : List ι} {x : ι} (hx : c.key x ∉ xs.map c.key) :
    c.total (xs ++ [x]) x = c.start x := by
  have hnil : xs.filter (fun z => c.key z = c.key x) = [] := by
    rw [List.filter_eq_nil_iff]
    intro z hz
    simp only [decide_eq_true_eq]
    intro hzx
    exact hx (List.mem_map.mpr ⟨z, hz, hzx⟩)
  unfold total
  rw [List.filter_append, hnil]
  simp

/-- The table is the first keys in order, each with all of its items. -/
theorem tally_eq (xs : List ι) :
    c.tally cap xs = ((c.firsts xs).take cap).map (c.total xs) := by
  induction xs using List.reverseRecOn with
  | nil => simp [tally, firsts]
  | append_singleton xs x ih =>
    have hstep : c.tally cap (xs ++ [x]) = c.record cap (c.tally cap xs) x := by
      rw [tally, List.foldl_append]
      rfl
    have hkeys : (c.tally cap xs).map c.keyOf = ((c.firsts xs).take cap).map c.key := by
      rw [ih, List.map_map]
      exact List.map_congr_left fun y _ => c.keyOf_total xs y
    have hmem : ∀ y ∈ (c.firsts xs).take cap, y ∈ xs := fun y hy =>
      c.mem_of_mem_firsts (List.mem_of_mem_take hy)
    have hold : ∀ y ∈ (c.firsts xs).take cap, c.total (xs ++ [x]) y =
        if c.key y = c.key x then c.add (c.total xs y) x else c.total xs y :=
      fun y hy => c.total_concat (hmem y hy) x
    rw [hstep, record, hkeys, firsts_concat]
    by_cases hin : c.key x ∈ ((c.firsts xs).take cap).map c.key
    · -- the key has an entry
      have hx : c.key x ∈ xs.map c.key :=
        c.key_mem_firsts.mp (List.map_subset c.key (List.take_subset ..) hin)
      rw [if_pos hin, if_pos hx, ih, List.map_map]
      refine List.map_congr_left fun y hy => ?_
      rw [hold y hy, Function.comp_apply, keyOf_total]
    · have hsame : ((c.firsts xs).take cap).map (c.total (xs ++ [x])) = c.tally cap xs := by
        rw [ih]
        refine List.map_congr_left fun y hy => ?_
        rw [hold y hy, if_neg fun hk => hin (List.mem_map.mpr ⟨y, hy, hk⟩)]
      have hlen : (c.tally cap xs).length = min cap (c.firsts xs).length := by
        rw [ih, List.length_map, List.length_take]
      rw [if_neg hin]
      by_cases hx : c.key x ∈ xs.map c.key
      · -- it was left out before, so the table is full
        have hfull : ¬ (c.tally cap xs).length < cap := by
          intro hlt
          have hall : (c.firsts xs).take cap = c.firsts xs := List.take_of_length_le (by omega)
          rw [hall] at hin
          exact hin (c.key_mem_firsts.mpr hx)
        rw [if_neg hfull, if_pos hx, hsame]
      · rw [if_neg hx]
        by_cases hlt : (c.tally cap xs).length < cap
        · have hall : (c.firsts xs).take cap = c.firsts xs := List.take_of_length_le (by omega)
          have hall' : (c.firsts xs ++ [x]).take cap = c.firsts xs ++ [x] :=
            List.take_of_length_le (by rw [List.length_append, List.length_singleton]; omega)
          rw [if_pos hlt, hall', List.map_append, ← hsame, hall, List.map_singleton,
            c.total_new hx]
        · have hcut : (c.firsts xs ++ [x]).take cap = (c.firsts xs).take cap :=
            List.take_append_of_le_length (by omega)
          rw [if_neg hlt, hcut, hsame]

theorem keys_tally (xs : List ι) :
    (c.tally cap xs).map c.keyOf = ((c.firsts xs).take cap).map c.key := by
  rw [tally_eq, List.map_map]
  exact List.map_congr_left fun y _ => c.keyOf_total xs y

theorem keys_tally_nodup (xs : List ι) : ((c.tally cap xs).map c.keyOf).Nodup := by
  rw [keys_tally]
  exact (c.firsts_nodup xs).sublist ((List.take_sublist ..).map c.key)

/-- An item is left out only when other keys fill the table already. -/
theorem full_of_left_out {xs ys : List ι} {x : ι}
    (h : c.key x ∉ (c.tally cap (xs ++ x :: ys)).map c.keyOf) :
    (c.tally cap xs).length = cap ∧ c.key x ∉ (c.tally cap xs).map c.keyOf := by
  have hsplit : xs ++ x :: ys = (xs ++ [x]) ++ ys := by simp
  rw [keys_tally, hsplit] at h
  have hextends := c.firsts_prefix (xs ++ [x]) ys
  have hfirst : c.key x ∉ ((c.firsts (xs ++ [x])).take cap).map c.key := by
    intro hin
    exact h (List.map_subset c.key ((hextends.take cap).subset) hin)
  have hmem : c.key x ∈ (c.firsts (xs ++ [x])).map c.key :=
    c.key_mem_firsts.mpr (by simp)
  have hlen : cap < (c.firsts (xs ++ [x])).length := by
    by_contra hle
    rw [List.take_of_length_le (by omega)] at hfirst
    exact hfirst hmem
  have hle : cap ≤ (c.firsts xs).length := by
    rw [firsts_concat] at hlen
    split at hlen
    · omega
    · rw [List.length_append, List.length_singleton] at hlen
      omega
  refine ⟨?_, ?_⟩
  · rw [tally_eq, List.length_map, List.length_take]
    omega
  · rw [keys_tally]
    intro hin
    exact hfirst (List.map_subset c.key (((c.firsts_prefix xs [x]).take cap).subset) hin)

end Counter

end WheelBridge
