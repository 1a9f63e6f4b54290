import Mathlib.Algebra.Group.Nat.Even
import WheelBridge.Bytes

/-!
The string descriptors of an enumerated device, read and logged for information only.
The length a reply is cut to becomes the end of a slice that starts after the header,
and a slice that ends before it starts halts the core.
-/
namespace WheelBridge

/-- Max bytes of a string descriptor. -/
def stringBufLen : ℕ := 255

def descTypeString : UInt8 := 0x03
def langidEnUs : UInt16 := 0x0409

/-- What a device gives to one GET_DESCRIPTOR(STRING). -/
structure StringReply where
  bytes : List UInt8
  length_le : bytes.length ≤ stringBufLen
deriving DecidableEq

/-- The SETUP of a string request: its descriptor index, its LANGID and its length. -/
structure StringRequest where
  index : UInt8
  langid : UInt16
  length : ℕ
deriving DecidableEq

/-- `&buf[start..stop]`; none where the slice is out of bounds. -/
def Bytes.slice {n : ℕ} (buf : Bytes n) (start stop : ℕ) : Option (List UInt8) :=
  if start ≤ stop ∧ stop ≤ n then some ((buf.toList.take stop).drop start) else none

/-- A failed transfer leaves the buffer as it is. -/
def StringReply.read (answer : Option StringReply) (buf : Bytes stringBufLen) :
    Bytes stringBufLen :=
  match answer with
  | none => buf
  | some reply => buf.write reply.bytes

/-- `get_string`, on the buffer after its transfer. -/
def getString (answer : Option StringReply) (buf : Bytes stringBufLen) : Option ℕ :=
  match answer with
  | none => none
  | some reply =>
    let n := reply.bytes.length
    if n < 2 ∨ buf.byte 1 ≠ descTypeString then none
    -- `& !1`
    else some (min (buf.byte 0).toNat n / 2 * 2)

inductive StringName
  | manufacturer
  | product
  | serial
deriving DecidableEq

def StringName.label : StringName → String
  | .manufacturer => "Manufacturer"
  | .product => "Product"
  | .serial => "Serial"

/-- The string indices of a device descriptor. -/
structure StringIndices where
  manufacturer : UInt8
  product : UInt8
  serialNumber : UInt8
deriving DecidableEq

/-- Whether the device declares no string. -/
def StringIndices.isEmpty (d : StringIndices) : Bool :=
  d.manufacturer = 0 ∧ d.product = 0 ∧ d.serialNumber = 0

def StringIndices.of (d : StringIndices) : StringName → UInt8
  | .manufacturer => d.manufacturer
  | .product => d.product
  | .serial => d.serialNumber

inductive StringEffect
  | noStrings
  | cannotOpen
  | request (setup : StringRequest)
  | value (label : String) (payload : List UInt8)
  | unreadable (label : String) (index : UInt8)
deriving DecidableEq

/-- What the device answers to the request for the LANGID table and for each string. -/
structure StringAnswers where
  langids : Option StringReply
  of : StringName → Option StringReply

/-- One string of the loop in `log_strings`. -/
def logString (name : StringName) (index : UInt8) (langid : UInt16)
    (answer : Option StringReply) (buf : Bytes stringBufLen) :
    Option (Bytes stringBufLen × List StringEffect) :=
  if index = 0 then some (buf, [])
  else
    let setup := .request ⟨index, langid, stringBufLen⟩
    let buf := StringReply.read answer buf
    match getString answer buf with
    | some n => (buf.slice 2 n).map fun payload => (buf, [setup, .value name.label payload])
    | none => some (buf, [setup, .unreadable name.label index])

def logEach (d : StringIndices) (langid : UInt16) (answers : StringAnswers) :
    List StringName → Bytes stringBufLen → Option (List StringEffect)
  | [], _ => some []
  | name :: names, buf =>
    match logString name (d.of name) langid (answers.of name) buf with
    | none => none
    | some (buf, es) => (logEach d langid answers names buf).map (es ++ ·)

/-- `log_strings`; none where it panics. `opened` tells whether EP0 can be opened. -/
def logStrings (d : StringIndices) (opened : Bool) (answers : StringAnswers) :
    Option (List StringEffect) :=
  if d.isEmpty then some [.noStrings]
  else if opened = false then some [.cannotOpen]
  else
    let buf := StringReply.read answers.langids Bytes.zero
    let langid :=
      match getString answers.langids buf with
      | some n =>
        if 4 ≤ n then (buf.byte 2).toUInt16 ||| ((buf.byte 3).toUInt16 <<< 8) else langidEnUs
      | none => langidEnUs
    (logEach d langid answers [.manufacturer, .product, .serial] buf).map
      (.request ⟨0, 0, stringBufLen⟩ :: ·)

/-- A reply that passes for a string descriptor and says it is shorter than its header. -/
def StringReply.Headless (answer : Option StringReply) : Prop :=
  match answer with
  | none => False
  | some reply =>
    2 ≤ reply.bytes.length ∧ reply.bytes.getD 1 0 = descTypeString ∧
      (reply.bytes.getD 0 0).toNat < 2

/-- The law of a length that `get_string` returns. -/
def StringReply.InBounds (answer : Option StringReply) (m : ℕ) : Prop :=
  match answer with
  | none => False
  | some reply => Even m ∧ 2 ≤ m ∧ m ≤ reply.bytes.length

theorem StringReply.byte_read (reply : StringReply) (buf : Bytes stringBufLen) {i : ℕ}
    (hi : i < reply.bytes.length) :
    (StringReply.read (some reply) buf).byte i = reply.bytes.getD i 0 := by
  have hle := reply.length_le
  have hin : 0 ≤ i ∧ i < 0 + reply.bytes.length ∧ i < stringBufLen := by omega
  change (buf.writeAt 0 reply.bytes).byte i = reply.bytes.getD i 0
  rw [Bytes.byte_writeAt, if_pos hin, Nat.sub_zero]

/-- What is returned for a reply, in terms of the reply alone. -/
theorem getString_read (reply : StringReply) (buf : Bytes stringBufLen) :
    getString (some reply) (StringReply.read (some reply) buf) =
      if reply.bytes.length < 2 ∨ reply.bytes.getD 1 0 ≠ descTypeString then none
      else some (min (reply.bytes.getD 0 0).toNat reply.bytes.length / 2 * 2) := by
  unfold getString
  dsimp only
  by_cases hn : reply.bytes.length < 2
  · rw [if_pos (Or.inl hn), if_pos (Or.inl hn)]
  · rw [StringReply.byte_read reply buf (i := 0) (by omega),
      StringReply.byte_read reply buf (i := 1) (by omega)]

/-- A length that is returned is even and within what was received. -/
theorem getString_even_le {reply : StringReply} {buf : Bytes stringBufLen} {m : ℕ}
    (h : getString (some reply) buf = some m) : Even m ∧ m ≤ reply.bytes.length := by
  unfold getString at h
  dsimp only at h
  split at h
  · cases h
  · have hm := Option.some.inj h
    refine ⟨⟨min (buf.byte 0).toNat reply.bytes.length / 2, ?_⟩, ?_⟩
    · omega
    · omega

/-- The length is below the header's exactly on a headless reply. -/
theorem getString_short_iff (answer : Option StringReply) (buf : Bytes stringBufLen) :
    (∃ m, getString answer (StringReply.read answer buf) = some m ∧ m < 2) ↔
      StringReply.Headless answer := by
  cases answer with
  | none => simp [getString, StringReply.Headless]
  | some reply =>
    rw [getString_read]
    simp only [StringReply.Headless]
    constructor
    · intro hm
      obtain ⟨m, hm, hlt⟩ := hm
      split at hm
      · cases hm
      · next h =>
        obtain ⟨hn, ht⟩ := not_or.mp h
        have hlen := Option.some.inj hm
        refine ⟨?_, not_not.mp ht, ?_⟩
        · omega
        · omega
    · intro h
      obtain ⟨hn, ht, hlt⟩ := h
      have hnot : ¬ (reply.bytes.length < 2 ∨ reply.bytes.getD 1 0 ≠ descTypeString) :=
        not_or.mpr ⟨by omega, not_not.mpr ht⟩
      rw [if_neg hnot]
      exact ⟨_, rfl, by omega⟩

/-- One reply keeps to the law exactly when it is not headless. -/
theorem getString_inBounds_iff (answer : Option StringReply) (buf : Bytes stringBufLen) :
    (∀ m, getString answer (StringReply.read answer buf) = some m →
        StringReply.InBounds answer m) ↔ ¬ StringReply.Headless answer := by
  rw [← getString_short_iff answer buf]
  cases answer with
  | none => simp [getString]
  | some reply =>
    constructor
    · intro hall hshort
      obtain ⟨m, hm, hlt⟩ := hshort
      have hge := (hall m hm).2.1
      omega
    · intro hlong m hm
      obtain ⟨heven, hle⟩ := getString_even_le hm
      refine ⟨heven, ?_, hle⟩
      by_contra hlt
      exact hlong ⟨m, hm, by omega⟩

/-- Reading one string panics exactly on a headless reply. -/
theorem logString_eq_none_iff (name : StringName) (index : UInt8) (langid : UInt16)
    (answer : Option StringReply) (buf : Bytes stringBufLen) :
    logString name index langid answer buf = none ↔
      index ≠ 0 ∧ StringReply.Headless answer := by
  unfold logString
  by_cases hi : index = 0
  · simp [hi]
  · rw [if_neg hi, ← getString_short_iff answer buf]
    dsimp only
    cases h : getString answer (StringReply.read answer buf) with
    | none => simp
    | some n =>
      have hle : n ≤ stringBufLen := by
        cases answer with
        | none => cases h
        | some reply => exact le_trans (getString_even_le h).2 reply.length_le
      simp only [Option.map_eq_none_iff, Bytes.slice, Option.some.injEq, exists_eq_left', hi,
        ne_eq, not_false_eq_true, true_and]
      split
      · simp only [reduceCtorEq, false_iff]
        omega
      · simp only [true_iff]
        omega

theorem logEach_eq_none_iff (d : StringIndices) (langid : UInt16) (answers : StringAnswers)
    (names : List StringName) (buf : Bytes stringBufLen) :
    logEach d langid answers names buf = none ↔
      ∃ name ∈ names, d.of name ≠ 0 ∧ StringReply.Headless (answers.of name) := by
  induction names generalizing buf with
  | nil => simp [logEach]
  | cons name names ih =>
    rw [logEach]
    cases h : logString name (d.of name) langid (answers.of name) buf with
    | none => simpa using Or.inl ((logString_eq_none_iff ..).mp h)
    | some r =>
      have hnot : ¬ (d.of name ≠ 0 ∧ StringReply.Headless (answers.of name)) := by
        rw [← logString_eq_none_iff name (d.of name) langid _ buf, h]
        exact Option.some_ne_none r
      simp only [Option.map_eq_none_iff, ih, List.mem_cons, or_and_right, exists_or,
        exists_eq_left, hnot, false_or]

/-- `log_strings` panics exactly when EP0 is open and a string the device declares is
answered by a headless reply. -/
theorem logStrings_eq_none_iff (d : StringIndices) (opened : Bool) (answers : StringAnswers) :
    logStrings d opened answers = none ↔
      opened = true ∧ ∃ name, d.of name ≠ 0 ∧ StringReply.Headless (answers.of name) := by
  have hall : ∀ name : StringName, name ∈ [.manufacturer, .product, .serial] := by
    intro name
    cases name <;> decide
  unfold logStrings
  split
  · next h =>
    obtain ⟨hm, hp, hs⟩ := of_decide_eq_true h
    simp only [reduceCtorEq, false_iff]
    intro hex
    obtain ⟨-, name, hne, -⟩ := hex
    cases name
    · exact hne hm
    · exact hne hp
    · exact hne hs
  · cases opened with
    | false => simp
    | true =>
      simp only [Bool.true_eq_false, if_false, Option.map_eq_none_iff, logEach_eq_none_iff,
        hall, true_and]

/-- A reply gives a length within its bounds, and strings are logged without a panic, if
and only if no reply is headless: the first for each reply, the second for the strings a
device declares. -/
theorem strings_in_bounds_iff (answer : Option StringReply) (buf : Bytes stringBufLen)
    (d : StringIndices) (opened : Bool) (answers : StringAnswers) :
    ((∀ m, getString answer (StringReply.read answer buf) = some m →
        StringReply.InBounds answer m) ↔ ¬ StringReply.Headless answer) ∧
    ((logStrings d opened answers).isSome = true ↔
      (opened = true → ∀ name, d.of name ≠ 0 → ¬ StringReply.Headless (answers.of name))) := by
  constructor
  · exact getString_inBounds_iff answer buf
  · rw [Option.isSome_iff_ne_none, ne_eq, logStrings_eq_none_iff]
    push Not
    exact Iff.rfl

/-- A product string whose bLength is 0. -/
def headlessReply : StringReply := ⟨[0x00, 0x03], by decide⟩

theorem headless_product_panics :
    ¬ (∀ m, getString (some headlessReply)
        (StringReply.read (some headlessReply) Bytes.zero) = some m →
          StringReply.InBounds (some headlessReply) m) ∧
      logStrings ⟨0, 1, 0⟩ true ⟨none, fun _ => some headlessReply⟩ = none := by
  constructor
  · intro h
    have hzero : getString (some headlessReply)
        (StringReply.read (some headlessReply) Bytes.zero) = some 0 := by decide +kernel
    have hge := (h 0 hzero).2.1
    omega
  · decide +kernel

end WheelBridge
