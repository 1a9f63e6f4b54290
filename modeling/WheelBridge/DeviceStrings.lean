import WheelBridge.InputControls
import WheelBridge.Strings
import WheelBridge.Utf16

/-!
The strings of a device in its own language. A string descriptor holds a text in UTF-16; what
the log shows of it is that text.
-/
namespace WheelBridge

open InputMap (fromLe toLe)

/-- The units of a payload; a last byte by itself is left out. -/
def leUnits : List UInt8 → List UInt16
  | lo :: hi :: rest => fromLe lo hi :: leUnits rest
  | _ => []

/-- `Utf16Le`. -/
def utf16Le (payload : List UInt8) : List Char := Utf16.decode (leUnits payload)

/-- The label and the text that a line shows. -/
def StringEffect.shown : StringEffect → Option (String × List Char)
  | .value label payload => some (label, utf16Le payload)
  | .noStrings | .cannotOpen | .request _ | .unreadable _ _ => none

def StringEffect.asked : StringEffect → Option StringRequest
  | .request setup => some setup
  | .noStrings | .cannotOpen | .value _ _ | .unreadable _ _ => none

/-- The string descriptor of `us`: a text, or a table of languages. -/
def stringDescriptor (us : List UInt16) : List UInt8 :=
  UInt8.ofNat (2 + 2 * us.length) :: descTypeString :: us.flatMap toLe

/-- The device answers with the descriptor of `us`, and perhaps with more. -/
def StringReply.Holds (answer : Option StringReply) (us : List UInt16) : Prop :=
  ∃ reply rest, answer = some reply ∧ reply.bytes = stringDescriptor us ++ rest

theorem fromLe_toLe (u : UInt16) : fromLe u.toUInt8 (u >>> 8).toUInt8 = u := by
  have hu := u.toNat_lt
  apply UInt16.toNat_inj.mp
  rw [InputMap.toNat_fromLe, UInt16.toNat_toUInt8, UInt16.toNat_toUInt8, UInt16.toNat_shiftRight]
  simp [Nat.shiftRight_eq_div_pow]
  omega

theorem leUnits_toLe (us : List UInt16) : leUnits (us.flatMap toLe) = us := by
  induction us with
  | nil => rfl
  | cons u us ih =>
    change fromLe u.toUInt8 (u >>> 8).toUInt8 :: leUnits (us.flatMap toLe) = u :: us
    rw [fromLe_toLe, ih]

theorem length_toLe (us : List UInt16) : (us.flatMap toLe).length = 2 * us.length := by
  induction us with
  | nil => rfl
  | cons u us ih =>
    rw [List.flatMap_cons, List.length_append, ih, List.length_cons]
    change 2 + 2 * us.length = _
    omega

section Replies

variable {answer : Option StringReply} {us : List UInt16}

/-- The descriptor is read whole, whatever comes after it. -/
theorem getString_holds (h : StringReply.Holds answer us) (buf : Bytes stringBufLen) :
    getString answer (StringReply.read answer buf) = some (2 + 2 * us.length) ∧
      ((StringReply.read answer buf).slice 2 (2 + 2 * us.length)) = some (us.flatMap toLe) := by
  obtain ⟨reply, rest, rfl, hbytes⟩ := h
  have hlen : reply.bytes.length = 2 + 2 * us.length + rest.length := by
    rw [hbytes, List.length_append]
    simp only [stringDescriptor, List.length_cons, length_toLe]
    omega
  have hmax := reply.length_le
  have hfit : 2 + 2 * us.length < 256 := by
    unfold stringBufLen at hmax
    omega
  have hsize : (reply.bytes.getD 0 0).toNat = 2 + 2 * us.length := by
    rw [hbytes]
    exact UInt8.toNat_ofNat_of_lt hfit
  have htype : reply.bytes.getD 1 0 = descTypeString := by
    rw [hbytes]
    rfl
  have hread := buf.take_writeAt 0 reply.bytes (by omega)
  rw [Nat.zero_add, List.take_zero, List.nil_append] at hread
  constructor
  · rw [getString_read, if_neg (by rw [htype]; simp; omega), hsize]
    congr 1
    omega
  · unfold Bytes.slice
    rw [if_pos (by omega)]
    have hcut : (StringReply.read (some reply) buf).toList.take (2 + 2 * us.length) =
        reply.bytes.take (2 + 2 * us.length) := by
      have hshort := congrArg (List.take (2 + 2 * us.length)) hread
      rw [List.take_take, Nat.min_eq_left (by omega)] at hshort
      exact hshort
    have hall : (stringDescriptor us).length = 2 + 2 * us.length := by
      simp only [stringDescriptor, List.length_cons, length_toLe]
      omega
    rw [hcut, hbytes, ← hall, List.take_left]
    rfl

/-- The table of languages begins with the device's own. -/
theorem langid_holds {lang : UInt16} {langs : List UInt16}
    (h : StringReply.Holds answer (lang :: langs)) (buf : Bytes stringBufLen) :
    fromLe ((StringReply.read answer buf).byte 2) ((StringReply.read answer buf).byte 3) =
      lang := by
  obtain ⟨reply, rest, rfl, hbytes⟩ := h
  have hlen : 4 ≤ reply.bytes.length := by
    rw [hbytes, List.length_append]
    simp only [stringDescriptor, List.length_cons, length_toLe]
    omega
  rw [StringReply.byte_read reply buf (by omega), StringReply.byte_read reply buf (by omega),
    hbytes]
  exact fromLe_toLe lang

end Replies

/-- The strings that a device has, in the order of the log. -/
def StringIndices.names (d : StringIndices) : List StringName :=
  [StringName.manufacturer, .product, .serial].filter fun name => d.of name ≠ 0

section Logs

variable {d : StringIndices} {answers : StringAnswers} {texts : StringName → List Char}

theorem logEach_holds (langid : UInt16) (names : List StringName)
    (htexts : ∀ name, d.of name ≠ 0 →
      StringReply.Holds (answers.of name) (Utf16.encode (texts name)))
    (buf : Bytes stringBufLen) :
    ∃ es, logEach d langid answers names buf = some es ∧
      es.filterMap StringEffect.shown =
        (names.filter fun name => d.of name ≠ 0).map (fun name => (name.label, texts name)) ∧
      es.filterMap StringEffect.asked = (names.filter fun name => d.of name ≠ 0).map
        (fun name => ⟨d.of name, langid, stringBufLen⟩) := by
  induction names generalizing buf with
  | nil => exact ⟨[], rfl, rfl, rfl⟩
  | cons name names ih =>
    by_cases hindex : d.of name = 0
    · obtain ⟨es, hes, hshown, hasked⟩ := ih buf
      refine ⟨es, ?_, ?_, ?_⟩
      · simp only [logEach, logString, if_pos hindex, hes]
        rfl
      · simpa [hindex] using hshown
      · simpa [hindex] using hasked
    · obtain ⟨hlength, hpayload⟩ := getString_holds (htexts name hindex) buf
      obtain ⟨es, hes, hshown, hasked⟩ := ih (StringReply.read (answers.of name) buf)
      refine ⟨[.request ⟨d.of name, langid, stringBufLen⟩,
        .value name.label ((Utf16.encode (texts name)).flatMap toLe)] ++ es, ?_, ?_, ?_⟩
      · simp only [logEach, logString, if_neg hindex, hlength, hpayload, Option.map_some, hes]
      · have htext : utf16Le ((Utf16.encode (texts name)).flatMap toLe) = texts name := by
          unfold utf16Le
          rw [leUnits_toLe, Utf16.decode_encode]
        rw [List.filterMap_append, hshown, List.filter_cons_of_pos (by simpa using hindex)]
        change _ :: List.map _ _ = _
        rw [htext]
        rfl
      · rw [List.filterMap_append, hasked, List.filter_cons_of_pos (by simpa using hindex)]
        rfl

end Logs

/-- A product name that ends in a pair of surrogates, and a byte too many. -/
def productText : List Char := ['G', 'P', 'r', 'o', ' ', Char.ofNat 0x1f3ce]

def productReply : StringReply where
  bytes := stringDescriptor (Utf16.encode productText) ++ [0x00]
  length_le := by decide +kernel

def languageReply : StringReply where
  bytes := stringDescriptor [langidEnUs]
  length_le := by decide

end WheelBridge
