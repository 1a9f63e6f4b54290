import WheelBridge.Device
import WheelBridge.HexText
import WheelBridge.UartLog

/-!
The records of what passes the bridge: HID++ messages in full, force feedback sampled, the
reports of a monitored interface, descriptors in rows of sixteen bytes. Each names a
length and shows the bytes up to the last that is not zero; whoever reads the line has the
whole packet.
-/
namespace WheelBridge.UartLog

open HexText

/-- `{:02x}`. -/
def byteText (b : UInt8) : List UInt8 := twoDigits b

/-- What `Hex` writes, piece by piece. -/
def hexPieces (bytes : List UInt8) : List (List UInt8) :=
  bytes.zipIdx.flatMap fun x => (if 0 < x.2 then [ascii " "] else []) ++ [byteText x.1]

/-- `log_hidpp`. -/
def hidppPieces (direction msg : List UInt8) : List (List UInt8) :=
  [ascii "HID++ ", direction, ascii " [", decimal msg.length, ascii "]: "] ++
    hexPieces (msg.take (used msg))

/-- A line of `Sampler::log`. -/
def samplePieces (what packet : List UInt8) (skipped : UInt32) : List (List UInt8) :=
  [what, ascii " [", decimal packet.length, ascii "] (+", decimal skipped.toNat,
    ascii " since last): "] ++ hexPieces (packet.take (used packet))

/-- A report of a monitored interface, which is shown to its end. -/
def reportPieces (interface : UInt8) (report : List UInt8) : List (List UInt8) :=
  [ascii "IF", decimal interface.toNat, ascii " [", decimal report.length, ascii "]: "] ++
    hexPieces report

section Reader

/-- The number that the digits of a text are. -/
def readDecimal (text : List UInt8) : ℕ :=
  Nat.ofDigitChars 10 (text.map fun b => Char.ofNat b.toNat) 0

/-- The packet that a line tells of: the length is in the first brackets, the bytes are
behind the colon after them. -/
def readPacket (line : List UInt8) : Option (List UInt8) :=
  let text := (line.dropWhile (· ≠ 0x5b)).drop 1
  let length := readDecimal (text.takeWhile (· ≠ 0x5d))
  let shown := ((text.dropWhile (· ≠ 0x3a)).drop 2).takeWhile (· ≠ 0x0d)
  (readSpaced shown).map fun bytes => bytes ++ List.replicate (length - bytes.length) 0

end Reader

theorem flatten_hexPieces (bytes : List UInt8) : (hexPieces bytes).flatten = spaced bytes := by
  have hrest (bs : List UInt8) (i : ℕ) (hi : 0 < i) :
      ((bs.zipIdx i).flatMap fun x => (if 0 < x.2 then [ascii " "] else []) ++
        [byteText x.1]).flatten = bs.flatMap fun c => blank :: twoDigits c := by
    induction bs generalizing i with
    | nil => rfl
    | cons b bs ih =>
      rw [List.zipIdx_cons, List.flatMap_cons, List.flatten_append, ih (i + 1) (by omega),
        List.flatMap_cons, if_pos hi]
      rfl
  cases bytes with
  | nil => rfl
  | cons b bs =>
    rw [hexPieces, List.zipIdx_cons, List.flatMap_cons, List.flatten_append, hrest bs 1 (by omega)]
    rfl

theorem digit_range {c : Char} (h : c.isDigit = true) : 48 ≤ c.toNat ∧ c.toNat ≤ 57 := by
  simp only [Char.isDigit, Bool.and_eq_true, decide_eq_true_eq] at h
  exact ⟨UInt32.le_iff_toNat_le.mp h.1, UInt32.le_iff_toNat_le.mp h.2⟩

/-- A digit is written as one byte. -/
theorem digit_byte {c : Char} (h : c.isDigit = true) : (UInt8.ofNat c.toNat).toNat = c.toNat := by
  have hle := (digit_range h).2
  exact UInt8.toNat_ofNat_of_lt' (Nat.lt_of_le_of_lt hle (by decide))

theorem mem_decimal {n : ℕ} {b : UInt8} (h : b ∈ decimal n) : 0x30 ≤ b ∧ b ≤ 0x39 := by
  obtain ⟨c, hc, rfl⟩ := List.mem_map.mp h
  have hdigit := Nat.isDigit_of_mem_toDigits (by decide) (by decide) hc
  rw [UInt8.le_iff_toNat_le, UInt8.le_iff_toNat_le, digit_byte hdigit]
  exact digit_range hdigit

theorem readDecimal_decimal (n : ℕ) : readDecimal (decimal n) = n := by
  have hchars : (decimal n).map (fun b => Char.ofNat b.toNat) = Nat.toDigits 10 n := by
    rw [decimal, List.map_map]
    conv_rhs => rw [← List.map_id (Nat.toDigits 10 n)]
    apply List.map_congr_left
    intro c hc
    have hdigit := Nat.isDigit_of_mem_toDigits (by decide) (by decide) hc
    change Char.ofNat (UInt8.ofNat c.toNat).toNat = c
    rw [digit_byte hdigit, Char.ofNat_toNat]
  rw [readDecimal, hchars, Nat.ofDigitChars_ten_toDigits]

theorem dropWhile_until {x : UInt8} {before : List UInt8} (h : x ∉ before) (rest : List UInt8) :
    (before ++ x :: rest).dropWhile (· ≠ x) = x :: rest := by
  have hall : ∀ b ∈ before, (decide (b ≠ x)) = true := fun b hb =>
    decide_eq_true fun heq => h (heq ▸ hb)
  rw [List.dropWhile_append_of_pos hall, List.dropWhile_cons, if_neg (by simp)]

theorem takeWhile_until {x : UInt8} {before : List UInt8} (h : x ∉ before) (rest : List UInt8) :
    (before ++ x :: rest).takeWhile (· ≠ x) = before := by
  have hall : ∀ b ∈ before, (decide (b ≠ x)) = true := fun b hb =>
    decide_eq_true fun heq => h (heq ▸ hb)
  rw [List.takeWhile_append_of_pos hall, List.takeWhile_cons, if_neg (by simp), List.append_nil]

theorem notMem_decimal {x : UInt8} (h : ¬ (0x30 ≤ x ∧ x ≤ 0x39)) (n : ℕ) : x ∉ decimal n :=
  fun hx => h (mem_decimal hx)

/-- A line whose first bracket opens the length, and whose first colon after it the bytes. -/
theorem readPacket_line {before middle bytes : List UInt8} {n : ℕ} (hbefore : 0x5b ∉ before)
    (hmiddle : 0x3a ∉ middle) :
    readPacket (before ++ 0x5b :: (decimal n ++ 0x5d :: (middle ++
      0x3a :: 0x20 :: (spaced bytes ++ eol)))) =
        some (bytes ++ List.replicate (n - bytes.length) 0) := by
  have hclose : (0x5d : UInt8) ∉ decimal n := notMem_decimal (by decide) n
  have hcolon : (0x3a : UInt8) ∉ decimal n ++ 0x5d :: middle := by
    intro h
    rcases List.mem_append.mp h with h | h
    · exact notMem_decimal (by decide) n h
    · rcases List.mem_cons.mp h with h | h
      · exact absurd h (by decide)
      · exact hmiddle h
  have hreturn : (0x0d : UInt8) ∉ spaced bytes := by
    intro h
    rcases mem_spaced h with h | ⟨d, hd, h⟩
    · exact absurd h (by decide)
    · have hlow := (separated_digit hd).1
      rw [← h] at hlow
      exact absurd hlow (by decide)
  have htext : decimal n ++ 0x5d :: (middle ++ 0x3a :: 0x20 :: (spaced bytes ++ eol)) =
      (decimal n ++ 0x5d :: middle) ++ 0x3a :: 0x20 :: (spaced bytes ++ eol) := by
    rw [List.append_assoc, List.cons_append]
  unfold readPacket
  rw [dropWhile_until hbefore, List.drop_one, List.tail_cons]
  dsimp only
  rw [takeWhile_until hclose, readDecimal_decimal, htext, dropWhile_until hcolon]
  have hshown : (List.drop 2 (0x3a :: 0x20 :: (spaced bytes ++ eol))) =
      spaced bytes ++ 0x0d :: [0x0a] := rfl
  rw [hshown, takeWhile_until hreturn, readSpaced_spaced, Option.map_some]

theorem length_decimal_lt {n k : ℕ} (hk : 0 < k) (h : n < 10 ^ k) : (decimal n).length ≤ k := by
  rw [decimal, List.length_map]
  exact (Nat.length_toDigits_le_iff (by decide) hk).mpr h

theorem length_padded (width : ℕ) (fill : UInt8) (text : List UInt8) :
    (padded width fill text).length = max width text.length := by
  rw [padded, List.length_append, List.length_replicate]
  omega

/-- The uptime is short, and has no bracket. -/
theorem uptime_spec {ms : ℕ} (hms : ms < 2 ^ 64) :
    (uptime ms).flatten.length ≤ 22 ∧ 0x5b ∉ (uptime ms).flatten := by
  constructor
  · have hseconds : (decimal (ms / 1000)).length ≤ 17 :=
      length_decimal_lt (by decide) (Nat.lt_of_le_of_lt (Nat.div_le_div_right (Nat.le_of_lt hms))
        (by decide))
    have hmillis : (decimal (ms % 1000)).length ≤ 3 :=
      length_decimal_lt (by decide) (Nat.mod_lt _ (by decide))
    have hpoint : (ascii ".").length = 1 := rfl
    have hblank : (ascii " ").length = 1 := rfl
    simp only [uptime, List.flatten_cons, List.flatten_nil, List.append_nil, List.length_append,
      length_padded, hpoint, hblank]
    omega
  · have hpadded (width n : ℕ) {fill : UInt8} (hfill : fill ≠ 0x5b) :
        (0x5b : UInt8) ∉ padded width fill (decimal n) := by
      intro h
      rcases List.mem_append.mp h with h | h
      · exact hfill (List.eq_of_mem_replicate h).symm
      · exact notMem_decimal (by decide) n h
    simp only [uptime, List.flatten_cons, List.flatten_nil, List.append_nil, List.mem_append,
      not_or]
    exact ⟨hpadded 5 _ (by decide), by decide, hpadded 3 _ (by decide), by decide⟩

/-- A record that is short enough is not cut. -/
theorem formatLine_whole {ms : ℕ} (hms : ms < 2 ^ 64) {args : List (List UInt8)}
    (hargs : args.flatten.length ≤ lineLen - eol.length - 22) :
    ∃ l, formatLine ms args = some l ∧ l.bytes = (uptime ms).flatten ++ (args.flatten ++ eol) := by
  obtain ⟨l, hl, hbytes, -⟩ := formatLine_spec ms args
  refine ⟨l, hl, ?_⟩
  have huptime := (uptime_spec hms).1
  have hfits : (uptime ms ++ args).flatten.length ≤ lineLen - eol.length := by
    rw [List.flatten_append, List.length_append]
    have hroom : 22 ≤ lineLen - eol.length := by decide
    omega
  rw [hbytes, List.take_of_length_le hfits, List.flatten_append, List.append_assoc]

/-- A record with the length of a packet in brackets and its bytes behind a colon. -/
theorem read_record {ms : ℕ} (hms : ms < 2 ^ 64) {args : List (List UInt8)}
    {before middle bytes : List UInt8} {n : ℕ} (hbefore : 0x5b ∉ before) (hmiddle : 0x3a ∉ middle)
    (hargs : args.flatten = before ++ 0x5b :: (decimal n ++ 0x5d :: (middle ++
      0x3a :: 0x20 :: spaced bytes)))
    (hshort : before.length + middle.length ≤ 96) (hn : n ≤ maxPacket)
    (hbytes : bytes.length ≤ maxPacket) :
    ∃ l, formatLine ms args = some l ∧
      readPacket l.bytes = some (bytes ++ List.replicate (n - bytes.length) 0) := by
  have hlen : (decimal n).length ≤ 2 :=
    length_decimal_lt (by decide) (Nat.lt_of_le_of_lt hn (by decide))
  have hspaced := length_spaced_le bytes
  have hfits : args.flatten.length ≤ lineLen - eol.length - 22 := by
    have hroom : lineLen - eol.length - 22 = 296 := rfl
    have hmax : maxPacket = 64 := rfl
    rw [hargs, hroom]
    simp only [List.length_append, List.length_cons]
    omega
  obtain ⟨l, hl, htext⟩ := formatLine_whole hms hfits
  refine ⟨l, hl, ?_⟩
  have hclean : 0x5b ∉ (uptime ms).flatten ++ before := by
    intro h
    exact (List.mem_append.mp h).elim (uptime_spec hms).2 hbefore
  rw [htext, hargs, ← readPacket_line hclean hmiddle]
  simp only [List.append_assoc, List.cons_append]

theorem trimmed_length_le (packet : List UInt8) :
    (packet.take (used packet)).length ≤ packet.length :=
  List.length_take_le' ..

/-- The zeros that are not shown are in the length. -/
theorem trimmed_padded (packet : List UInt8) :
    packet.take (used packet) ++
      List.replicate (packet.length - (packet.take (used packet)).length) 0 = packet := by
  rw [List.length_take, Nat.min_eq_left (used_le packet), take_used]

theorem notMem_ascii_append {x : UInt8} {text label : List UInt8} (htext : x ∉ text)
    (hlabel : x ∉ label) (htail : x ≠ 0x20) : x ∉ text ++ (label ++ [0x20]) := by
  simp only [List.mem_append, List.mem_singleton, not_or]
  exact ⟨htext, hlabel, htail⟩

section Records

variable {ms : ℕ} {label packet : List UInt8}

theorem hidpp_read_back (hms : ms < 2 ^ 64) (hlabel : 0x5b ∉ label)
    (hshort : label.length ≤ maxPacket) (hpacket : packet.length ≤ maxPacket) :
    ∃ l, formatLine ms (hidppPieces label packet) = some l ∧
      readPacket l.bytes = some packet := by
  have hbefore : 0x5b ∉ ascii "HID++ " ++ (label ++ [0x20]) :=
    notMem_ascii_append (by decide) hlabel (by decide)
  have hlen : (ascii "HID++ " ++ (label ++ [0x20])).length + ([] : List UInt8).length ≤ 96 := by
    have hmax : maxPacket = 64 := rfl
    have htext : (ascii "HID++ ").length = 6 := rfl
    simp only [List.length_append, List.length_singleton, List.length_nil, htext]
    omega
  have hargs : (hidppPieces label packet).flatten = (ascii "HID++ " ++ (label ++ [0x20])) ++
      0x5b :: (decimal packet.length ++ 0x5d :: ([] ++
        0x3a :: 0x20 :: spaced (packet.take (used packet)))) := by
    rw [hidppPieces, List.flatten_append, flatten_hexPieces]
    simp [ascii]
  obtain ⟨l, hl, hread⟩ := read_record hms hbefore List.not_mem_nil hargs hlen hpacket
    (Nat.le_trans (trimmed_length_le packet) hpacket)
  exact ⟨l, hl, by rw [hread, trimmed_padded]⟩

theorem sample_read_back (hms : ms < 2 ^ 64) (hlabel : 0x5b ∉ label)
    (hshort : label.length ≤ maxPacket) (hpacket : packet.length ≤ maxPacket)
    (skipped : UInt32) :
    ∃ l, formatLine ms (samplePieces label packet skipped) = some l ∧
      readPacket l.bytes = some packet := by
  have hbefore : 0x5b ∉ [] ++ (label ++ [0x20]) :=
    notMem_ascii_append List.not_mem_nil hlabel (by decide)
  have hmiddle : 0x3a ∉ ascii " (+" ++ (decimal skipped.toNat ++ ascii " since last)") := by
    simp only [List.mem_append, not_or]
    exact ⟨by decide, notMem_decimal (by decide) _, by decide⟩
  have hlen : ([] ++ (label ++ [0x20])).length +
      (ascii " (+" ++ (decimal skipped.toNat ++ ascii " since last)")).length ≤ 96 := by
    have hmax : maxPacket = 64 := rfl
    have hopen : (ascii " (+").length = 3 := rfl
    have hclose : (ascii " since last)").length = 12 := rfl
    have hskipped := length_decimal skipped
    simp only [List.length_append, List.length_singleton, List.length_nil, hopen, hclose]
    omega
  have hargs : (samplePieces label packet skipped).flatten = ([] ++ (label ++ [0x20])) ++
      0x5b :: (decimal packet.length ++ 0x5d ::
        ((ascii " (+" ++ (decimal skipped.toNat ++ ascii " since last)")) ++
          0x3a :: 0x20 :: spaced (packet.take (used packet)))) := by
    rw [samplePieces, List.flatten_append, flatten_hexPieces]
    simp [ascii]
  obtain ⟨l, hl, hread⟩ := read_record hms hbefore hmiddle hargs hlen hpacket
    (Nat.le_trans (trimmed_length_le packet) hpacket)
  exact ⟨l, hl, by rw [hread, trimmed_padded]⟩

theorem report_read_back (hms : ms < 2 ^ 64) (hpacket : packet.length ≤ maxPacket)
    (interface : UInt8) :
    ∃ l, formatLine ms (reportPieces interface packet) = some l ∧
      readPacket l.bytes = some packet := by
  have hnumber : (decimal interface.toNat).length ≤ 3 :=
    length_decimal_lt (by decide) (Nat.lt_trans interface.toNat_lt (by decide))
  have hbefore : 0x5b ∉ ascii "IF" ++ (decimal interface.toNat ++ [0x20]) :=
    notMem_ascii_append (by decide) (notMem_decimal (by decide) _) (by decide)
  have hlen : (ascii "IF" ++ (decimal interface.toNat ++ [0x20])).length +
      ([] : List UInt8).length ≤ 96 := by
    have htext : (ascii "IF").length = 2 := rfl
    simp only [List.length_append, List.length_singleton, List.length_nil, htext]
    omega
  have hargs : (reportPieces interface packet).flatten =
      (ascii "IF" ++ (decimal interface.toNat ++ [0x20])) ++
        0x5b :: (decimal packet.length ++ 0x5d :: ([] ++ 0x3a :: 0x20 :: spaced packet)) := by
    rw [reportPieces, List.flatten_append, flatten_hexPieces]
    simp [ascii]
  obtain ⟨l, hl, hread⟩ := read_record hms hbefore List.not_mem_nil hargs hlen hpacket hpacket
  exact ⟨l, hl, by rw [hread, Nat.sub_self, List.replicate_zero, List.append_nil]⟩

end Records

/-- Every packet that is logged can be read back from its line of the log, whatever the time
is: a HID++ message, a sampled force feedback packet and a report of a monitored interface all
fit in the line, and the line gives back the packet, with the zeros that are not shown. -/
theorem record_read_back {ms : ℕ} (hms : ms < 2 ^ 64) {label packet : List UInt8}
    (hlabel : 0x5b ∉ label) (hshort : label.length ≤ maxPacket)
    (hpacket : packet.length ≤ maxPacket) (skipped : UInt32) (interface : UInt8) :
    ∀ args ∈ [hidppPieces label packet, samplePieces label packet skipped,
        reportPieces interface packet],
      ∃ l, formatLine ms args = some l ∧ readPacket l.bytes = some packet := by
  intro args hargs
  simp only [List.mem_cons, List.not_mem_nil, or_false] at hargs
  rcases hargs with rfl | rfl | rfl
  · exact hidpp_read_back hms hlabel hshort hpacket
  · exact sample_read_back hms hlabel hshort hpacket skipped
  · exact report_read_back hms hpacket interface

/-- A HID++ message of the wheel, three zeros of which are not shown. -/
theorem feature_query_read_back :
    ∃ l, formatLine 75123 (hidppPieces (ascii "wheel -> upstream")
        [0x10, 0xff, 0x00, 0x0b, 0x00, 0x00, 0x00]) = some l ∧
      readPacket l.bytes = some [0x10, 0xff, 0x00, 0x0b, 0x00, 0x00, 0x00] :=
  record_read_back (by decide) (by decide) (by decide) (by decide) 0 0 _ (List.mem_cons_self ..)

end WheelBridge.UartLog
