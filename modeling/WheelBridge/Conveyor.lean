import Mathlib.Data.List.Basic
import Mathlib.Logic.Function.Basic
import Mathlib.Tactic.Common

/-!
Lines that carry items in order and may lose them: by what arrived on each, with whether it
was taken in, and what left it, with whether it was delivered. The books are balanced if
what was taken in is what left, followed by what is still held.
-/
namespace WheelBridge

structure Conveyor (ι α : Type*) where
  arrived : ι → List (α × Bool)
  left : ι → List (α × Bool)

/-- The items of a verdict. -/
def judged {α : Type*} (verdict : Bool) (l : List (α × Bool)) : List α :=
  (l.filter fun x => x.2 = verdict).map Prod.fst

section judged

variable {α : Type*}

theorem judged_append (verdict : Bool) (l r : List (α × Bool)) :
    judged verdict (l ++ r) = judged verdict l ++ judged verdict r := by
  rw [judged, List.filter_append, List.map_append]
  rfl

theorem judged_singleton (verdict : Bool) (a : α) (b : Bool) :
    judged verdict [(a, b)] = if b = verdict then [a] else [] := by
  by_cases h : b = verdict <;> simp [judged, h]

/-- Where nothing was judged false, everything was judged true. -/
theorem judged_true {l : List (α × Bool)} (h : judged false l = []) :
    judged true l = l.map Prod.fst := by
  have hall : ∀ x ∈ l, x.2 = true := by
    simpa [judged] using h
  rw [judged, List.filter_eq_self.mpr]
  intro x hx
  exact decide_eq_true (hall x hx)

theorem judged_sublist (verdict : Bool) (l : List (α × Bool)) :
    (judged verdict l).Sublist (l.map Prod.fst) :=
  List.filter_sublist.map Prod.fst

/-- Every item has one of the two verdicts. -/
theorem length_judged (l : List (α × Bool)) :
    (judged true l).length + (judged false l).length = l.length := by
  induction l with
  | nil => rfl
  | cons x l ih =>
    obtain ⟨a, b⟩ := x
    rw [← List.singleton_append, judged_append, judged_append, List.length_append,
      List.length_append, List.length_append, ← ih, judged_singleton, judged_singleton]
    cases b
    · simp only [Bool.false_eq_true, if_false, if_true, List.length_nil, List.length_singleton]
      omega
    · simp only [Bool.true_eq_false, if_false, if_true, List.length_nil, List.length_singleton]
      omega

end judged

namespace Conveyor

variable {ι α : Type*}

def empty : Conveyor ι α := ⟨fun _ => [], fun _ => []⟩

/-- What was delivered on a line, in order. -/
def delivered (m : Conveyor ι α) (i : ι) : List α := judged true (m.left i)

def lost (m : Conveyor ι α) (i : ι) : List α := judged false (m.left i)

def refused (m : Conveyor ι α) (i : ι) : List α := judged false (m.arrived i)

def Balanced (m : Conveyor ι α) (held : ι → List α) : Prop :=
  ∀ i, judged true (m.arrived i) = (m.left i).map Prod.fst ++ held i

theorem balanced_empty : (empty : Conveyor ι α).Balanced fun _ => [] := fun _ => rfl

namespace Balanced

variable {m : Conveyor ι α} {held : ι → List α}

/-- What was delivered and what is still held are among what arrived, in that order. -/
theorem delivered_sublist (h : m.Balanced held) (i : ι) :
    (m.delivered i ++ held i).Sublist ((m.arrived i).map Prod.fst) := by
  have hleft : (m.delivered i ++ held i).Sublist ((m.left i).map Prod.fst ++ held i) :=
    (judged_sublist true (m.left i)).append (List.Sublist.refl _)
  rw [← h i] at hleft
  exact hleft.trans (judged_sublist true (m.arrived i))

/-- Each item that arrived has been refused, delivered or lost, or is held. -/
theorem count (h : m.Balanced held) (i : ι) :
    (m.arrived i).length =
      (m.refused i).length + (m.delivered i).length + (m.lost i).length + (held i).length := by
  have harrived := length_judged (m.arrived i)
  have hleft := length_judged (m.left i)
  have htaken := congrArg List.length (h i)
  rw [List.length_append, List.length_map] at htaken
  unfold refused delivered lost
  omega

end Balanced

variable [DecidableEq ι]

def arrive (m : Conveyor ι α) (i : ι) (a : α) (taken : Bool) : Conveyor ι α :=
  { m with arrived := Function.update m.arrived i (m.arrived i ++ [(a, taken)]) }

def leave (m : Conveyor ι α) (i : ι) (a : α) (ok : Bool) : Conveyor ι α :=
  { m with left := Function.update m.left i (m.left i ++ [(a, ok)]) }

section Verdicts

variable (m : Conveyor ι α) (i j : ι) (a : α) (verdict : Bool)

theorem length_arrived_arrive : ((m.arrive i a verdict).arrived j).length =
    (m.arrived j).length + if i = j then 1 else 0 := by
  by_cases h : i = j
  · subst h
    simp [arrive]
  · simp [arrive, h, Function.update_of_ne (Ne.symm h)]

theorem length_refused_arrive : ((m.arrive i a verdict).refused j).length =
    (m.refused j).length + if i = j ∧ verdict = false then 1 else 0 := by
  by_cases h : i = j
  · subst h
    cases verdict <;> simp [arrive, refused, judged_append, judged_singleton]
  · simp [arrive, refused, h, Function.update_of_ne (Ne.symm h)]

theorem length_delivered_leave : ((m.leave i a verdict).delivered j).length =
    (m.delivered j).length + if i = j ∧ verdict = true then 1 else 0 := by
  by_cases h : i = j
  · subst h
    cases verdict <;> simp [leave, delivered, judged_append, judged_singleton]
  · simp [leave, delivered, h, Function.update_of_ne (Ne.symm h)]

/-- What is delivered, or leaves another line, is not lost. -/
theorem lost_leave (h : ¬ (i = j ∧ verdict = false)) :
    (m.leave i a verdict).lost j = m.lost j := by
  by_cases hij : i = j
  · subst hij
    have hgiven : verdict = true := by simpa using h
    simp [leave, lost, judged_append, judged_singleton, hgiven]
  · simp [leave, lost, Function.update_of_ne (Ne.symm hij)]

end Verdicts

namespace Balanced

variable {m : Conveyor ι α} {held : ι → List α}

theorem take (h : m.Balanced held) (i : ι) (a : α) :
    (m.arrive i a true).Balanced (Function.update held i (held i ++ [a])) := by
  intro j
  by_cases hj : j = i
  · subst hj
    simp only [arrive, Function.update_self]
    rw [judged_append, judged_singleton, if_pos rfl, h j, List.append_assoc]
  · simp only [arrive, Function.update_of_ne hj]
    exact h j

theorem refuse (h : m.Balanced held) (i : ι) (a : α) : (m.arrive i a false).Balanced held := by
  intro j
  by_cases hj : j = i
  · subst hj
    simp only [arrive, Function.update_self]
    rw [judged_append, judged_singleton, if_neg Bool.false_ne_true, List.append_nil]
    exact h j
  · simp only [arrive, Function.update_of_ne hj]
    exact h j

/-- The oldest item held leaves, whatever becomes of it. -/
theorem leave (h : m.Balanced held) {i : ι} {a : α} {rest : List α} (hi : held i = a :: rest)
    (ok : Bool) : (m.leave i a ok).Balanced (Function.update held i rest) := by
  intro j
  by_cases hj : j = i
  · subst hj
    simp only [Conveyor.leave, Function.update_self]
    rw [h j, hi, List.map_append, List.append_assoc]
    rfl
  · simp only [Conveyor.leave, Function.update_of_ne hj]
    exact h j

end Balanced

/-- All items of `items` leave the line, one after the other. -/
def leaveAll (m : Conveyor ι α) (i : ι) (items : List α) (ok : Bool) : Conveyor ι α :=
  items.foldl (fun m a => m.leave i a ok) m

theorem arrived_leaveAll (m : Conveyor ι α) (i : ι) (items : List α) (ok : Bool) :
    (m.leaveAll i items ok).arrived = m.arrived := by
  induction items generalizing m with
  | nil => rfl
  | cons a items ih => exact ih (m.leave i a ok)

theorem Balanced.leaveAll {m : Conveyor ι α} {held : ι → List α} (h : m.Balanced held) (i : ι)
    (ok : Bool) : (m.leaveAll i (held i) ok).Balanced (Function.update held i []) := by
  generalize hitems : held i = items
  induction items generalizing m held with
  | nil =>
    have hsame : Function.update held i [] = held := by
      rw [← hitems, Function.update_eq_self]
    rw [hsame]
    exact h
  | cons a rest ih =>
    have hrest := ih (h.leave hitems ok) (Function.update_self ..)
    rw [Function.update_idem] at hrest
    exact hrest

end Conveyor

end WheelBridge
