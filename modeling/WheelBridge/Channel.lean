import Mathlib.Tactic.Common

/-!
A bounded first-in first-out channel between tasks and a one-place signal that holds
the latest value. Sending into a full channel fails and leaves it as it is; signalling
overwrites a value nobody has taken.
-/
namespace WheelBridge

@[ext]
structure Channel (α : Type*) (cap : ℕ) where
  items : List α
  length_le : items.length ≤ cap

namespace Channel

variable {α : Type*} {cap : ℕ}

def empty : Channel α cap := ⟨[], Nat.zero_le cap⟩

def trySend (c : Channel α cap) (a : α) : Option (Channel α cap) :=
  if h : c.items.length < cap then
    some ⟨c.items ++ [a], by simp only [List.length_append, List.length_singleton]; omega⟩
  else none

def receive (c : Channel α cap) : Option (α × Channel α cap) :=
  match c with
  | ⟨[], _⟩ => none
  | ⟨a :: rest, h⟩ => some (a, ⟨rest, by simp only [List.length_cons] at h; omega⟩)

theorem trySend_eq_some {c d : Channel α cap} {a : α} :
    c.trySend a = some d ↔ c.items.length < cap ∧ d.items = c.items ++ [a] := by
  unfold trySend
  split
  · next h =>
    simp only [Option.some.injEq, h, true_and]
    constructor
    · rintro rfl
      rfl
    · intro hd
      ext1
      exact hd.symm
  · next h => simp [h]

theorem length_trySend {c d : Channel α cap} {a : α} (h : c.trySend a = some d) :
    d.items.length = c.items.length + 1 := by
  rw [(trySend_eq_some.mp h).2, List.length_append, List.length_singleton]

theorem trySend_eq_none {c : Channel α cap} {a : α} :
    c.trySend a = none ↔ c.items.length = cap := by
  have := c.length_le
  unfold trySend
  split
  · simp only [reduceCtorEq, false_iff]
    omega
  · simp only [true_iff]
    omega

theorem receive_eq_some {c d : Channel α cap} {a : α} :
    c.receive = some (a, d) ↔ c.items = a :: d.items := by
  obtain ⟨items, h⟩ := c
  cases items with
  | nil => simp [receive]
  | cons b rest =>
    simp only [receive, Option.some.injEq, Prod.mk.injEq, List.cons.injEq]
    constructor
    · rintro ⟨rfl, rfl⟩
      exact ⟨rfl, rfl⟩
    · rintro ⟨rfl, hd⟩
      exact ⟨rfl, Channel.ext hd⟩

theorem length_receive {c d : Channel α cap} {a : α} (h : c.receive = some (a, d)) :
    c.items.length = d.items.length + 1 := by
  rw [receive_eq_some.mp h, List.length_cons]

end Channel

/-- The latest value signalled and not yet taken. -/
abbrev Signal (α : Type*) := Option α

namespace Signal

def signal {α : Type*} (_ : Signal α) (a : α) : Signal α := some a

def reset {α : Type*} (_ : Signal α) : Signal α := none

end Signal

end WheelBridge
