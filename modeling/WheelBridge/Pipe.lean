import Mathlib.Tactic.Common

/-!
A bounded pipe, known by what it promises: first in, first out, and unless it is full it
takes a nonempty part of what it is given, from the front. A ring that writes no further
than its end at once is one.
-/
namespace WheelBridge

structure Pipe (α : Type) (cap : ℕ) where
  State : Type
  empty : State
  /-- What is in the pipe, the oldest first; those who use it do not see it. -/
  held : State → List α
  freeCapacity : State → ℕ
  tryWrite : State → List α → Option (ℕ × State)
  tryRead : State → ℕ → Option (List α × State)
  held_empty : held empty = []
  held_free : ∀ s, (held s).length + freeCapacity s = cap
  tryWrite_free : ∀ s data, 0 < freeCapacity s → data ≠ [] →
    ∃ n t, tryWrite s data = some (n, t) ∧ 0 < n
  tryWrite_held : ∀ s data n t, tryWrite s data = some (n, t) →
    n ≤ data.length ∧ held t = held s ++ data.take n
  tryRead_held : ∀ s k data t, tryRead s k = some (data, t) → held s = data ++ held t

/-- A ring of `cap` places, with the place of its first element. -/
structure Ring (α : Type) (cap : ℕ) where
  start : ℕ
  items : List α
  length_le : items.length ≤ cap

namespace Ring

variable {α : Type} {cap : ℕ}

/-- The free places from the first of them on, up to the end or to the elements. -/
def room (r : Ring α cap) : ℕ :=
  if r.start + r.items.length < cap then cap - (r.start + r.items.length)
  else cap - r.items.length

theorem room_le (r : Ring α cap) : r.items.length + r.room ≤ cap := by
  have hle := r.length_le
  unfold room
  split <;> omega

theorem room_pos (r : Ring α cap) (h : r.items.length < cap) : 0 < r.room := by
  unfold room
  split <;> omega

def tryWrite (r : Ring α cap) (data : List α) : Option (ℕ × Ring α cap) :=
  if r.items.length < cap then
    let n := min data.length r.room
    some (n, {
      start := r.start
      items := r.items ++ data.take n
      length_le := by
        have hle := r.room_le
        rw [List.length_append, List.length_take]
        omega })
  else none

def tryRead (r : Ring α cap) (k : ℕ) : Option (List α × Ring α cap) :=
  if r.items = [] then none
  else
    let n := min k (min r.items.length (cap - r.start))
    some (r.items.take n, {
      start := (r.start + n) % cap
      items := r.items.drop n
      length_le := by
        have hle := r.length_le
        rw [List.length_drop]
        omega })

end Ring

/-- The ring keeps the promises of a pipe. -/
def Pipe.ring (α : Type) (cap : ℕ) : Pipe α cap where
  State := Ring α cap
  empty := ⟨0, [], Nat.zero_le cap⟩
  held := Ring.items
  freeCapacity r := cap - r.items.length
  tryWrite := Ring.tryWrite
  tryRead := Ring.tryRead
  held_empty := rfl
  held_free r := Nat.add_sub_cancel' r.length_le
  tryWrite_free r data hfree hdata := by
    have hlt : r.items.length < cap := by omega
    refine ⟨_, _, if_pos hlt, ?_⟩
    have hpos := List.length_pos_iff.mpr hdata
    have hroom := r.room_pos hlt
    omega
  tryWrite_held r data n t h := by
    unfold Ring.tryWrite at h
    split at h <;> cases h
    exact ⟨Nat.min_le_left .., rfl⟩
  tryRead_held r k data t h := by
    unfold Ring.tryRead at h
    split at h <;> cases h
    exact (List.take_append_drop ..).symm

end WheelBridge
