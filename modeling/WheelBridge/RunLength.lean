import Mathlib.Data.List.Basic
import Mathlib.Tactic.Common

/-!
A stream told by its changes: a line for each item that differs from the one before it, with
the number of repeats since the last line, counted in 32 bits. The lines give back the
stream, up to the repeats of its last item.
-/
namespace WheelBridge

structure Changes (α : Type*) where
  last : α
  repeats : UInt32

namespace Changes

variable {α τ : Type*} [DecidableEq α]

/-- One item: a repeat, or a line with the repeats before it. -/
def note (a : α) (s : Changes α) : Changes α × Option UInt32 :=
  if a = s.last then ({ s with repeats := s.repeats + 1 }, none) else (⟨a, 0⟩, some s.repeats)

/-- The lines for a stream whose items come with a time. -/
def lines (s : Changes α) : List (τ × α) → Changes α × List (τ × α × UInt32)
  | [] => (s, [])
  | (time, a) :: items =>
    let (t, line) := s.note a
    let (u, rest) := t.lines items
    (u, (line.map fun n => (time, a, n)).toList ++ rest)

omit [DecidableEq α] in
/-- The stream of some lines. -/
def expand (last : α) : List (α × UInt32) → List α
  | [] => []
  | (a, n) :: rest => List.replicate n.toNat last ++ a :: expand a rest

/-- Each line is of an item of the stream. -/
theorem mem_of_mem_lines {s : Changes α} {items : List (τ × α)} {x : τ × α × UInt32}
    (h : x ∈ (s.lines items).2) : (x.1, x.2.1) ∈ items := by
  induction items generalizing s with
  | nil => cases h
  | cons item items ih =>
    rcases List.mem_append.mp h with hfirst | hrest
    · obtain ⟨n, -, rfl⟩ := Option.map_eq_some_iff.mp (Option.mem_toList.mp hfirst)
      exact List.mem_cons_self ..
    · exact List.mem_cons_of_mem item (ih hrest)

/-- The lines and the repeats since the last of them are the stream. -/
theorem expand_lines (s : Changes α) (items : List (τ × α))
    (h : s.repeats.toNat + items.length < UInt32.size) :
    expand s.last ((s.lines items).2.map Prod.snd) ++
        List.replicate (s.lines items).1.repeats.toNat (s.lines items).1.last =
      List.replicate s.repeats.toNat s.last ++ items.map Prod.snd := by
  induction items generalizing s with
  | nil => rw [List.map_nil, List.append_nil]; rfl
  | cons item items ih =>
    obtain ⟨time, a⟩ := item
    rw [List.length_cons] at h
    by_cases hsame : a = s.last
    · subst hsame
      have hnext : (s.repeats + 1).toNat = s.repeats.toNat + 1 := by
        rw [UInt32.toNat_add]
        exact Nat.mod_eq_of_lt (by change s.repeats.toNat + 1 < UInt32.size; omega)
      have hrest := ih { s with repeats := s.repeats + 1 } (by rw [hnext]; omega)
      rw [hnext, List.replicate_succ', List.append_assoc] at hrest
      simp only [lines, note, if_true]
      exact hrest
    · have hrest := ih ⟨a, 0⟩ (by change 0 + items.length < UInt32.size; omega)
      simp only [lines, note, if_neg hsame, Option.map_some, Option.toList_some, List.map_cons,
        List.singleton_append, expand, List.append_assoc]
      rw [List.cons_append, hrest]
      rfl

end Changes

end WheelBridge
