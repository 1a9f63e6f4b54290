import Mathlib.Data.List.Count
import Mathlib.Logic.Function.Basic
import Mathlib.Tactic.Common

/-!
Event counters of 32 bits that are now and then swapped for zero and logged. A meter keeps
how often each counter's event happened and the sum of what was logged of it; the counter
holds the rest, modulo the wrap-around.
-/
namespace WheelBridge

structure Meter (κ : Type*) where
  events : κ → ℕ
  logged : κ → UInt32

/-- The counters after `fetch_add(1)` on each of `cs`. -/
def bumped {κ : Type*} [DecidableEq κ] (cs : List κ) (counts : κ → UInt32) : κ → UInt32 :=
  fun c => counts c + UInt32.ofNat (cs.count c)

section bumped

variable {κ : Type*} [DecidableEq κ] (counts : κ → UInt32)

theorem bumped_nil : bumped [] counts = counts := by
  funext c
  exact UInt32.add_zero (counts c)

theorem bumped_append (cs ds : List κ) :
    bumped (cs ++ ds) counts = bumped ds (bumped cs counts) := by
  funext c
  unfold bumped
  rw [List.count_append, UInt32.ofNat_add, UInt32.add_assoc]

end bumped

namespace Meter

variable {κ : Type*}

def zero : Meter κ := ⟨fun _ => 0, fun _ => 0⟩

def Reads (m : Meter κ) (counts : κ → UInt32) : Prop :=
  ∀ c, m.logged c + counts c = UInt32.ofNat (m.events c)

theorem reads_zero : (zero : Meter κ).Reads fun _ => 0 := fun _ => rfl

variable [DecidableEq κ]

/-- An event that the counters `cs` count. -/
def note (m : Meter κ) (cs : List κ) : Meter κ :=
  { m with events := fun c => m.events c + cs.count c }

/-- A counter is swapped for zero and logged. -/
def log (m : Meter κ) (c : κ) (n : UInt32) : Meter κ :=
  { m with logged := Function.update m.logged c (m.logged c + n) }

variable {m : Meter κ} {counts : κ → UInt32}

theorem Reads.note (h : m.Reads counts) (cs : List κ) : (m.note cs).Reads (bumped cs counts) := by
  intro c
  change m.logged c + (counts c + UInt32.ofNat (cs.count c)) =
    UInt32.ofNat (m.events c + cs.count c)
  rw [← UInt32.add_assoc, h c, UInt32.ofNat_add]

theorem Reads.log (h : m.Reads counts) (c : κ) :
    (m.log c (counts c)).Reads (Function.update counts c 0) := by
  intro d
  by_cases hd : d = c
  · subst hd
    simp only [Meter.log, Function.update_self]
    rw [UInt32.add_zero]
    exact h d
  · simp only [Meter.log, Function.update_of_ne hd]
    exact h d

end Meter

end WheelBridge
