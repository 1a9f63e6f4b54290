import Mathlib.Logic.Function.Basic
import Mathlib.Tactic.Common

/-!
Lanes that carry items in order, by what was taken in on each and what was delivered:
they carry if what was delivered, followed by what is still held, is what was taken in.
-/
namespace WheelBridge

structure Lanes (ι α : Type*) where
  taken : ι → List α
  delivered : ι → List α

namespace Lanes

variable {ι α : Type*}

def empty : Lanes ι α := ⟨fun _ => [], fun _ => []⟩

def Carries (m : Lanes ι α) (held : ι → List α) : Prop :=
  ∀ i, m.taken i = m.delivered i ++ held i

/-- What was taken in and what was delivered tell what is held. -/
theorem Carries.unique {m : Lanes ι α} {held held' : ι → List α} (h : m.Carries held)
    (h' : m.Carries held') : held = held' := by
  funext i
  have heq : m.delivered i ++ held i = m.delivered i ++ held' i := (h i).symm.trans (h' i)
  exact List.append_cancel_left heq

variable [DecidableEq ι]

def take (m : Lanes ι α) (i : ι) (a : α) : Lanes ι α :=
  { m with taken := Function.update m.taken i (m.taken i ++ [a]) }

def deliver (m : Lanes ι α) (i : ι) (a : α) : Lanes ι α :=
  { m with delivered := Function.update m.delivered i (m.delivered i ++ [a]) }

variable {m : Lanes ι α} {held : ι → List α}

theorem Carries.take (h : m.Carries held) (i : ι) (a : α) :
    (m.take i a).Carries (Function.update held i (held i ++ [a])) := by
  intro j
  by_cases hj : j = i
  · subst hj
    simp only [Lanes.take, Function.update_self]
    rw [h j, List.append_assoc]
  · simp only [Lanes.take, Function.update_of_ne hj]
    exact h j

/-- An item that is taken in has to be held. -/
theorem Carries.not_withheld (h : m.Carries held) (i : ι) (a : α) :
    ¬ (m.take i a).Carries held := by
  intro hsame
  have heq := congrFun ((h.take i a).unique hsame) i
  rw [Function.update_self] at heq
  exact absurd heq (by simp)

/-- What goes out has to be the oldest item held. -/
theorem Carries.deliver_iff (h : m.Carries held) {i : ι} {b : α} {rest : List α}
    (hi : held i = b :: rest) (a : α) :
    (m.deliver i a).Carries (Function.update held i rest) ↔ a = b := by
  constructor
  · intro hout
    have heq := hout i
    simp only [Lanes.deliver, Function.update_self] at heq
    rw [h i, hi, List.append_assoc] at heq
    have hcons := List.append_cancel_left heq
    exact (List.cons.inj hcons).1.symm
  · rintro rfl j
    by_cases hj : j = i
    · subst hj
      simp only [Lanes.deliver, Function.update_self]
      rw [h j, hi, List.append_assoc]
      rfl
    · simp only [Lanes.deliver, Function.update_of_ne hj]
      exact h j

/-- An item that is held is not given up. -/
theorem Carries.not_lost (h : m.Carries held) {i : ι} {b : α} {rest : List α}
    (hi : held i = b :: rest) : ¬ m.Carries (Function.update held i rest) := by
  intro hlost
  have heq := congrFun (h.unique hlost) i
  rw [Function.update_self, hi] at heq
  exact absurd heq (by simp)

end Lanes

end WheelBridge
