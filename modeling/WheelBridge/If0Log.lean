import WheelBridge.LogText
import WheelBridge.RunLength

/-!
The console's output reports on IF0, logged when they change. The log gives back every report
of the stream: those it shows, and as many repeats of each as it says.
-/
namespace WheelBridge

open UartLog HexText

/-- A line of `if0_output`, for the device `name`. -/
def if0Pieces (name packet : List UInt8) (repeats : UInt32) : List (List UInt8) :=
  [name, ascii ": IF0 OUT [", decimal packet.length, ascii "] (+", decimal repeats.toNat,
    ascii " repeats): "] ++ hexPieces packet

/-- `if0_output` starts from an empty packet. -/
def if0Start : Changes (List UInt8) := ⟨[], 0⟩

def if0Line (name : List UInt8) (x : ℕ × List UInt8 × UInt32) : Option (LineBuf lineLen) :=
  formatLine x.1 (if0Pieces name x.2.1 x.2.2)

/-- The log of the reports that are read, each with its time. -/
def if0Log (name : List UInt8) (reports : List (ℕ × List UInt8)) : List (LineBuf lineLen) :=
  (if0Start.lines reports).2.filterMap (if0Line name)

/-- The number behind the plus sign. -/
def readRepeats (line : List UInt8) : UInt32 :=
  let text := (line.dropWhile (· ≠ 0x5b)).drop 1
  UInt32.ofNat (readDecimal (((text.dropWhile (· ≠ 0x2b)).drop 1).takeWhile (· ≠ 0x20)))

def readIf0 (l : LineBuf lineLen) : Option (List UInt8 × UInt32) :=
  (readPacket l.bytes).map fun packet => (packet, readRepeats l.bytes)

theorem readRepeats_line {before : List UInt8} (hbefore : 0x5b ∉ before) (n : ℕ)
    (repeats : UInt32) (rest : List UInt8) :
    readRepeats (before ++ 0x5b :: (decimal n ++ ascii "] (" ++
      0x2b :: (decimal repeats.toNat ++ 0x20 :: rest))) = repeats := by
  have hplus : (0x2b : UInt8) ∉ decimal n ++ ascii "] (" := by
    rw [List.mem_append, not_or]
    exact ⟨notMem_decimal (by decide) n, by decide⟩
  have hblank : (0x20 : UInt8) ∉ decimal repeats.toNat := notMem_decimal (by decide) _
  unfold readRepeats
  rw [dropWhile_until hbefore, List.drop_one, List.tail_cons]
  dsimp only
  rw [dropWhile_until hplus, List.drop_one, List.tail_cons, takeWhile_until hblank,
    readDecimal_decimal, UInt32.ofNat_toNat]

/-- A line gives back the packet and the number of repeats. -/
theorem if0_read_back {ms : ℕ} (hms : ms < 2 ^ 64) {name packet : List UInt8}
    (hname : 0x5b ∉ name) (hshort : name.length ≤ maxPacket) (hpacket : packet.length ≤ maxPacket)
    (repeats : UInt32) :
    ∃ l, formatLine ms (if0Pieces name packet repeats) = some l ∧
      readIf0 l = some (packet, repeats) := by
  have hbefore : 0x5b ∉ name ++ ascii ": IF0 OUT " := by
    rw [List.mem_append, not_or]
    exact ⟨hname, by decide⟩
  have hmiddle : 0x3a ∉ ascii " (+" ++ (decimal repeats.toNat ++ ascii " repeats)") := by
    simp only [List.mem_append, not_or]
    exact ⟨by decide, notMem_decimal (by decide) _, by decide⟩
  have hmax : maxPacket = 64 := rfl
  have hdigits := length_decimal repeats
  have hlen : (name ++ ascii ": IF0 OUT ").length +
      (ascii " (+" ++ (decimal repeats.toNat ++ ascii " repeats)")).length ≤ 96 := by
    have htext : (ascii ": IF0 OUT ").length = 10 := rfl
    have hopen : (ascii " (+").length = 3 := rfl
    have hclose : (ascii " repeats)").length = 9 := rfl
    simp only [List.length_append, htext, hopen, hclose]
    omega
  have hargs : (if0Pieces name packet repeats).flatten = (name ++ ascii ": IF0 OUT ") ++
      0x5b :: (decimal packet.length ++ 0x5d ::
        ((ascii " (+" ++ (decimal repeats.toNat ++ ascii " repeats)")) ++
          0x3a :: 0x20 :: spaced packet)) := by
    rw [if0Pieces, List.flatten_append, flatten_hexPieces]
    simp [ascii]
  obtain ⟨l, hl, hread⟩ := read_record hms hbefore hmiddle hargs hlen hpacket hpacket
  refine ⟨l, hl, ?_⟩
  have hspaced := length_spaced_le packet
  have hcount : (decimal packet.length).length ≤ 2 :=
    length_decimal_lt (by decide) (Nat.lt_of_le_of_lt hpacket (by decide))
  have hfits : (if0Pieces name packet repeats).flatten.length ≤ lineLen - eol.length - 22 := by
    have hroom : lineLen - eol.length - 22 = 296 := rfl
    rw [hargs, hroom]
    simp only [List.length_append, List.length_cons] at hlen ⊢
    omega
  obtain ⟨l', hl', hbytes⟩ := formatLine_whole hms hfits
  obtain rfl := Option.some.inj (hl.symm.trans hl')
  have hclean : 0x5b ∉ (uptime ms).flatten ++ (name ++ ascii ": IF0 OUT ") := by
    rw [List.mem_append, not_or]
    exact ⟨(uptime_spec hms).2, hbefore⟩
  have hcounted := readRepeats_line hclean packet.length repeats
    (ascii "repeats): " ++ (spaced packet ++ eol))
  have hline : l.bytes = ((uptime ms).flatten ++ (name ++ ascii ": IF0 OUT ")) ++
      0x5b :: (decimal packet.length ++ ascii "] (" ++ 0x2b :: (decimal repeats.toNat ++
        0x20 :: (ascii "repeats): " ++ (spaced packet ++ eol)))) := by
    rw [hbytes, hargs]
    simp [ascii]
  unfold readIf0
  rw [hread, Nat.sub_self, List.replicate_zero, List.append_nil, Option.map_some, hline, hcounted]

/-- Rev lights that go on twice the same and then off. -/
def revStream : List (ℕ × List UInt8) :=
  [(1000, [0x30, 0xf8, 0x12, 0x1f]), (1016, [0x30, 0xf8, 0x12, 0x1f]),
    (1032, [0x30, 0xf8, 0x12, 0x00]), (1048, [0x30, 0xf8, 0x12, 0x00])]

end WheelBridge
