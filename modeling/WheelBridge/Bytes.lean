import Mathlib.Tactic.Common

/-!
Fixed-size byte buffers, the `[u8; N]` of the firmware. A write past the end is
dropped, so a transfer longer than its buffer fills just the buffer.
-/
namespace WheelBridge

@[ext]
structure Bytes (n : ℕ) where
  toList : List UInt8
  length_eq : toList.length = n
deriving DecidableEq

namespace Bytes

variable {n : ℕ}

def fill (v : UInt8) : Bytes n := ⟨List.replicate n v, List.length_replicate ..⟩

def zero : Bytes n := fill 0

def byte (b : Bytes n) (i : ℕ) : UInt8 := b.toList.getD i 0

def set (b : Bytes n) (i : ℕ) (v : UInt8) : Bytes n :=
  ⟨b.toList.set i v, by rw [List.length_set, b.length_eq]⟩

/-- Copy `data` into the buffer from offset `i` on. -/
def writeAt (b : Bytes n) (i : ℕ) : List UInt8 → Bytes n
  | [] => b
  | x :: xs => (b.set i x).writeAt (i + 1) xs

/-- What a transfer of `data` leaves in the buffer it is read into. -/
def write (b : Bytes n) (data : List UInt8) : Bytes n := b.writeAt 0 data

theorem byte_set (b : Bytes n) (i j : ℕ) (v : UInt8) :
    (b.set i v).byte j = if i = j ∧ j < n then v else b.byte j := by
  unfold byte set
  rw [List.getD_eq_getElem?_getD, List.getD_eq_getElem?_getD, List.getElem?_set]
  by_cases hij : i = j
  · subst j
    by_cases hi : i < n
    · simp [hi, b.length_eq]
    · simp [hi, b.length_eq]
  · simp [hij]

theorem byte_writeAt (data : List UInt8) (b : Bytes n) (i j : ℕ) :
    (b.writeAt i data).byte j =
      if i ≤ j ∧ j < i + data.length ∧ j < n then data.getD (j - i) 0 else b.byte j := by
  induction data generalizing b i with
  | nil =>
    have hnot : ¬ (i ≤ j ∧ j < i + ([] : List UInt8).length ∧ j < n) := by
      simp only [List.length_nil]
      omega
    rw [writeAt, if_neg hnot]
  | cons x xs ih =>
    rw [writeAt, ih, byte_set]
    simp only [List.length_cons]
    by_cases hij : i = j
    · subst j
      have hnot : ¬ (i + 1 ≤ i ∧ i < i + 1 + xs.length ∧ i < n) := by omega
      rw [if_neg hnot]
      by_cases hn : i < n <;> simp [hn]
    · by_cases hlt : i ≤ j
      · have hsub : j - i = (j - (i + 1)) + 1 := by omega
        have hiff : (i + 1 ≤ j ∧ j < i + 1 + xs.length ∧ j < n) ↔
            (i ≤ j ∧ j < i + (xs.length + 1) ∧ j < n) := by omega
        simp only [hij, false_and, if_false, hiff, hsub, List.getD_cons_succ]
      · have h1 : ¬ (i + 1 ≤ j ∧ j < i + 1 + xs.length ∧ j < n) := by omega
        have h2 : ¬ (i ≤ j ∧ j < i + (xs.length + 1) ∧ j < n) := by omega
        rw [if_neg h1, if_neg h2, if_neg fun h => hij h.1]

theorem byte_write (b : Bytes n) (data : List UInt8) (k : ℕ) (hk : k < n) :
    (b.write data).byte k = data.getD k (b.byte k) := by
  unfold write
  rw [byte_writeAt, List.getD_eq_getElem?_getD, List.getD_eq_getElem?_getD]
  by_cases hlt : k < data.length
  · rw [if_pos ⟨Nat.zero_le k, by omega, hk⟩, Nat.sub_zero, List.getElem?_eq_getElem hlt]
    rfl
  · rw [if_neg (by omega), List.getElem?_eq_none (by omega)]
    rfl

theorem getElem?_toList (b : Bytes n) (k : ℕ) (hk : k < n) : b.toList[k]? = some (b.byte k) := by
  have hlt : k < b.toList.length := by rw [b.length_eq]; exact hk
  unfold byte
  rw [List.getD_eq_getElem?_getD, List.getElem?_eq_getElem hlt]
  rfl

theorem ext_byte {a b : Bytes n} (h : ∀ k < n, a.byte k = b.byte k) : a = b := by
  apply Bytes.ext
  apply List.ext_getElem?
  intro k
  by_cases hk : k < n
  · rw [getElem?_toList a k hk, getElem?_toList b k hk, h k hk]
  · rw [List.getElem?_eq_none (by rw [a.length_eq]; omega),
      List.getElem?_eq_none (by rw [b.length_eq]; omega)]

/-- A transfer that fills the buffer leaves nothing of what was in it. -/
theorem getElem?_write (b : Bytes n) (data : List UInt8) (hlen : n ≤ data.length) (k : ℕ)
    (hk : k < n) : (b.write data).toList[k]? = data[k]? := by
  rw [getElem?_toList _ k hk, byte_write b data k hk, List.getD_eq_getElem?_getD,
    List.getElem?_eq_getElem (by omega)]
  rfl

/-- What is copied in comes right behind what is there before it. -/
theorem take_writeAt (b : Bytes n) (i : ℕ) (data : List UInt8) (h : i + data.length ≤ n) :
    (b.writeAt i data).toList.take (i + data.length) = b.toList.take i ++ data := by
  have hlen : (b.toList.take i).length = i := by
    rw [List.length_take, b.length_eq]
    omega
  apply List.ext_getElem?
  intro k
  by_cases hk : k < i + data.length
  · rw [List.getElem?_take_of_lt hk, getElem?_toList _ k (by omega), byte_writeAt]
    by_cases hki : k < i
    · rw [if_neg (by omega), List.getElem?_append_left (by omega), List.getElem?_take_of_lt hki,
        getElem?_toList b k (by omega)]
    · rw [if_pos (by omega), List.getElem?_append_right (by omega), hlen,
        List.getD_eq_getElem?_getD, List.getElem?_eq_getElem (by omega)]
      rfl
  · rw [List.getElem?_eq_none (by rw [List.length_take]; omega),
      List.getElem?_eq_none (by rw [List.length_append]; omega)]

end Bytes

end WheelBridge
