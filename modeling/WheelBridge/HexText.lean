import Mathlib.Data.List.Induction
import Mathlib.Tactic.Common

/-!
Bytes as text: two hexadecimal digits a byte, separated by blanks, and the bytes up to
the last that is not zero. Both are read back: the text by its digits, and the bytes
that were left off by the length.
-/
namespace WheelBridge.HexText

/-- The digit of a number below 16. -/
def digit (n : ℕ) : UInt8 := UInt8.ofNat (if n < 10 then 0x30 + n else 0x57 + n)

def value (c : UInt8) : Option ℕ :=
  if 0x30 ≤ c ∧ c ≤ 0x39 then some (c.toNat - 0x30)
  else if 0x61 ≤ c ∧ c ≤ 0x66 then some (c.toNat - 0x57)
  else none

theorem value_digit {n : ℕ} (h : n < 16) : value (digit n) = some n := by
  have hall : ∀ i : Fin 16, value (digit i) = some i.val := by decide
  exact hall ⟨n, h⟩

/-- Digits are neither line ends nor separators. -/
theorem separated_digit {n : ℕ} (h : n < 16) : 0x30 ≤ digit n ∧ digit n ≠ 0x3a := by
  have hall : ∀ i : Fin 16, 0x30 ≤ digit i ∧ digit i ≠ 0x3a := by decide
  exact hall ⟨n, h⟩

def twoDigits (b : UInt8) : List UInt8 := [digit (b.toNat / 16), digit (b.toNat % 16)]

def readByte (hi lo : UInt8) : Option UInt8 :=
  (value hi).bind fun h => (value lo).map fun l => UInt8.ofNat (16 * h + l)

theorem high_lt (b : UInt8) : b.toNat / 16 < 16 := by
  have := b.toNat_lt
  omega

theorem low_lt (b : UInt8) : b.toNat % 16 < 16 := Nat.mod_lt _ (by omega)

theorem readByte_digits (b : UInt8) :
    readByte (digit (b.toNat / 16)) (digit (b.toNat % 16)) = some b := by
  have hsplit : 16 * (b.toNat / 16) + b.toNat % 16 = b.toNat := Nat.div_add_mod ..
  rw [readByte, value_digit (high_lt b), value_digit (low_lt b), Option.bind_some,
    Option.map_some, hsplit, UInt8.ofNat_toNat]

def blank : UInt8 := 0x20

def spaced : List UInt8 → List UInt8
  | [] => []
  | b :: bs => twoDigits b ++ bs.flatMap fun c => blank :: twoDigits c

theorem spaced_cons_cons (b c : UInt8) (bs : List UInt8) :
    spaced (b :: c :: bs) = twoDigits b ++ blank :: spaced (c :: bs) := rfl

theorem mem_spaced {bytes : List UInt8} {c : UInt8} (h : c ∈ spaced bytes) :
    c = blank ∨ ∃ n < 16, c = digit n := by
  have htwo {b : UInt8} (hb : c ∈ twoDigits b) : ∃ n < 16, c = digit n := by
    simp only [twoDigits, List.mem_cons, List.not_mem_nil, or_false] at hb
    rcases hb with rfl | rfl
    · exact ⟨_, high_lt b, rfl⟩
    · exact ⟨_, low_lt b, rfl⟩
  cases bytes with
  | nil => cases h
  | cons b bs =>
    rcases List.mem_append.mp h with h | h
    · exact Or.inr (htwo h)
    · obtain ⟨d, -, hd⟩ := List.mem_flatMap.mp h
      rcases List.mem_cons.mp hd with rfl | hd
      · exact Or.inl rfl
      · exact Or.inr (htwo hd)

theorem length_spaced_le (bytes : List UInt8) : (spaced bytes).length ≤ 3 * bytes.length := by
  induction bytes with
  | nil => exact Nat.le_refl _
  | cons b bs ih =>
    cases bs with
    | nil => exact Nat.le_succ 2
    | cons c cs =>
      rw [spaced_cons_cons]
      simp only [List.length_append, List.length_cons, twoDigits, List.length_nil] at ih ⊢
      omega

def readSpaced : List UInt8 → Option (List UInt8)
  | [] => some []
  | [_] => none
  | [hi, lo] => (readByte hi lo).map fun b => [b]
  | hi :: lo :: separator :: rest =>
    if separator = blank then
      (readByte hi lo).bind fun b => (readSpaced rest).map fun bs => b :: bs
    else none

theorem readSpaced_spaced (bytes : List UInt8) : readSpaced (spaced bytes) = some bytes := by
  induction bytes with
  | nil => rfl
  | cons b bs ih =>
    cases bs with
    | nil =>
      change (readByte _ _).map _ = _
      rw [readByte_digits]
      rfl
    | cons c cs =>
      rw [spaced_cons_cons]
      simp only [twoDigits, List.cons_append, List.nil_append, readSpaced, if_true,
        readByte_digits, ih, Option.bind_some, Option.map_some]

/-- How many bytes there are up to the last that is not zero. -/
def used (bytes : List UInt8) : ℕ :=
  match bytes.reverse.findIdx? fun b => b ≠ 0 with
  | some behind => bytes.length - 1 - behind + 1
  | none => 0

theorem used_concat_of_ne (bytes : List UInt8) {b : UInt8} (h : b ≠ 0) :
    used (bytes ++ [b]) = bytes.length + 1 := by
  simp [used, List.findIdx?_cons, h]

theorem used_concat_zero (bytes : List UInt8) : used (bytes ++ [0]) = used bytes := by
  simp only [used, List.reverse_append, List.reverse_singleton, List.singleton_append,
    List.findIdx?_cons, List.length_append, List.length_singleton]
  cases bytes.reverse.findIdx? fun b => b ≠ 0 with
  | none => simp
  | some behind =>
    simp
    omega

theorem used_le (bytes : List UInt8) : used bytes ≤ bytes.length := by
  induction bytes using List.reverseRecOn with
  | nil => exact Nat.le_refl _
  | append_singleton bytes b ih =>
    rw [List.length_append, List.length_singleton]
    by_cases h : b = 0
    · subst h
      rw [used_concat_zero]
      omega
    · exact Nat.le_of_eq (used_concat_of_ne bytes h)

/-- The bytes that are left off are zeros. -/
theorem take_used (bytes : List UInt8) :
    bytes.take (used bytes) ++ List.replicate (bytes.length - used bytes) 0 = bytes := by
  induction bytes using List.reverseRecOn with
  | nil => rfl
  | append_singleton bytes b ih =>
    by_cases h : b = 0
    · subst h
      have hle := used_le bytes
      have hone : bytes.length + 1 - used bytes = bytes.length - used bytes + 1 := by omega
      rw [used_concat_zero, List.take_append_of_le_length hle, List.length_append,
        List.length_singleton, hone, List.replicate_succ', ← List.append_assoc, ih]
    · have hall : bytes.length + 1 = (bytes ++ [b]).length := by
        rw [List.length_append, List.length_singleton]
      rw [used_concat_of_ne bytes h, hall, List.take_length, Nat.sub_self, List.replicate_zero,
        List.append_nil]

end WheelBridge.HexText
