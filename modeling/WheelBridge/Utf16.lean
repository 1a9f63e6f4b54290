import Mathlib.Tactic.Common

/-!
Text in units of 16 bits. A character above `0xffff` is a pair of surrogates; a surrogate that
is not one of a pair is read as the replacement character. What is written is read back.
-/
namespace WheelBridge

namespace Utf16

def isHigh (u : UInt16) : Bool := 0xd800 ≤ u && u < 0xdc00

def isLow (u : UInt16) : Bool := 0xdc00 ≤ u && u < 0xe000

def replacement : Char := Char.ofNat 0xfffd

def units (c : Char) : List UInt16 :=
  if c.toNat < 0x10000 then [UInt16.ofNat c.toNat]
  else
    [UInt16.ofNat (0xd800 + (c.toNat - 0x10000) / 0x400),
      UInt16.ofNat (0xdc00 + (c.toNat - 0x10000) % 0x400)]

def encode (text : List Char) : List UInt16 := text.flatMap units

/-- A unit that is not followed by the other half of a pair. -/
def single (u : UInt16) : Char := if isHigh u || isLow u then replacement else Char.ofNat u.toNat

def paired (hi lo : UInt16) : Char :=
  Char.ofNat (0x10000 + (hi.toNat - 0xd800) * 0x400 + (lo.toNat - 0xdc00))

def decode : List UInt16 → List Char
  | [] => []
  | [u] => [single u]
  | u :: v :: rest =>
    if isHigh u && isLow v then paired u v :: decode rest else single u :: decode (v :: rest)

theorem isHigh_iff (u : UInt16) : isHigh u = true ↔ 0xd800 ≤ u.toNat ∧ u.toNat < 0xdc00 := by
  unfold isHigh
  rw [Bool.and_eq_true, decide_eq_true_iff, decide_eq_true_iff, UInt16.le_iff_toNat_le,
    UInt16.lt_iff_toNat_lt]
  exact Iff.rfl

theorem isLow_iff (u : UInt16) : isLow u = true ↔ 0xdc00 ≤ u.toNat ∧ u.toNat < 0xe000 := by
  unfold isLow
  rw [Bool.and_eq_true, decide_eq_true_iff, decide_eq_true_iff, UInt16.le_iff_toNat_le,
    UInt16.lt_iff_toNat_lt]
  exact Iff.rfl

/-- A unit that is no high surrogate stands by itself. -/
theorem decode_cons {u : UInt16} (h : isHigh u = false) (rest : List UInt16) :
    decode (u :: rest) = single u :: decode rest := by
  cases rest with
  | nil => rfl
  | cons v rest => simp only [decode, h, Bool.false_and, Bool.false_eq_true, if_false]

theorem decode_pair {u v : UInt16} (hu : isHigh u = true) (hv : isLow v = true)
    (rest : List UInt16) : decode (u :: v :: rest) = paired u v :: decode rest := by
  simp only [decode, hu, hv, Bool.and_self, if_true]

/-- No character is a surrogate. -/
theorem toNat_char (c : Char) : c.toNat < 0xd800 ∨ 0xe000 ≤ c.toNat ∧ c.toNat < 0x110000 := by
  have hvalid : c.toNat.isValidChar := c.valid
  unfold Nat.isValidChar at hvalid
  omega

theorem decode_units (c : Char) (rest : List UInt16) :
    decode (units c ++ rest) = c :: decode rest := by
  have hc := toNat_char c
  unfold units
  split
  · next hsmall =>
    have hnat : (UInt16.ofNat c.toNat).toNat = c.toNat := UInt16.toNat_ofNat_of_lt hsmall
    have hhigh : isHigh (UInt16.ofNat c.toNat) = false := by
      rw [Bool.eq_false_iff, ne_eq, isHigh_iff, hnat]
      omega
    have hlow : isLow (UInt16.ofNat c.toNat) = false := by
      rw [Bool.eq_false_iff, ne_eq, isLow_iff, hnat]
      omega
    rw [List.singleton_append, decode_cons hhigh, single, hhigh, hlow, hnat, Char.ofNat_toNat]
    rfl
  · next hlarge =>
    have hhi : (UInt16.ofNat (0xd800 + (c.toNat - 0x10000) / 0x400)).toNat =
        0xd800 + (c.toNat - 0x10000) / 0x400 :=
      UInt16.toNat_ofNat_of_lt (by change _ < 65536; omega)
    have hlo : (UInt16.ofNat (0xdc00 + (c.toNat - 0x10000) % 0x400)).toNat =
        0xdc00 + (c.toNat - 0x10000) % 0x400 :=
      UInt16.toNat_ofNat_of_lt (by change _ < 65536; omega)
    have hhigh : isHigh (UInt16.ofNat (0xd800 + (c.toNat - 0x10000) / 0x400)) = true := by
      rw [isHigh_iff, hhi]
      omega
    have hlow : isLow (UInt16.ofNat (0xdc00 + (c.toNat - 0x10000) % 0x400)) = true := by
      rw [isLow_iff, hlo]
      omega
    have hpair : paired (UInt16.ofNat (0xd800 + (c.toNat - 0x10000) / 0x400))
        (UInt16.ofNat (0xdc00 + (c.toNat - 0x10000) % 0x400)) = c := by
      unfold paired
      rw [hhi, hlo]
      have hsum : 0x10000 + (0xd800 + (c.toNat - 0x10000) / 0x400 - 0xd800) * 0x400 +
          (0xdc00 + (c.toNat - 0x10000) % 0x400 - 0xdc00) = c.toNat := by
        omega
      rw [hsum, Char.ofNat_toNat]
    rw [List.cons_append, List.singleton_append, decode_pair hhigh hlow, hpair]

/-- What is written is read back. -/
theorem decode_encode (text : List Char) : decode (encode text) = text := by
  induction text with
  | nil => rfl
  | cons c text ih =>
    unfold encode at ih ⊢
    rw [List.flatMap_cons, decode_units, ih]

end Utf16

end WheelBridge
