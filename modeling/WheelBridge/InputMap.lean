import WheelBridge.Bytes

/-!
IF0 input translation: the 30-byte report of the G Pro (c272) becomes the 64-byte
DS4-style report 0x01 of the PlayStation-mode G Pro (c269).
-/
namespace WheelBridge

def c272Len : ℕ := 30
def c269Len : ℕ := 64

namespace InputMap

/-- (c272 bit, c269 bit) pairs within one byte. -/
abbrev BitMap := List (UInt8 × UInt8)

/-- c272 byte 0 high nibble → c269 byte 5 high nibble. -/
def face : BitMap := [(0x10, 0x20), (0x20, 0x10), (0x40, 0x40), (0x80, 0x80)]

/-- c272 byte 1 → c269 byte 6. -/
def shoulder : BitMap :=
  [(0x01, 0x02), (0x02, 0x01), (0x04, 0x08), (0x08, 0x04),
    (0x10, 0x10), (0x20, 0x20), (0x40, 0x80), (0x80, 0x40)]

/-- c272 byte 3 → c269 byte 54. -/
def rotary : BitMap :=
  [(0x02, 0x04), (0x04, 0x02), (0x08, 0x01), (0x10, 0x10), (0x20, 0x08), (0x40, 0x20)]

/-- c272 byte 3 bit 7 → c269 byte 7 bit 0. -/
def xboxButton : UInt8 := 0x80
def psButton : UInt8 := 0x01

def reportId : UInt8 := 0x01
def hatNeutral : UInt8 := 0x08
def stickCentre : UInt8 := 0x80

/-- The report sent before the wheel's first report: everything released, wheel
centred. -/
def neutral : Bytes c269Len :=
  let r : Bytes c269Len := Bytes.zero
  let r := r.set 0 reportId
  let r := r.writeAt 1 [stickCentre, stickCentre, stickCentre, stickCentre]
  let r := r.set 5 hatNeutral
  let r := r.set 44 0x80
  -- Pedals released and the unknown axis at 52-53.
  let r := r.writeAt 45 (List.replicate 6 0xff)
  r.writeAt 52 [0xff, 0xff]

def remap (byte : UInt8) (map : BitMap) : UInt8 :=
  (map.filter fun p => byte &&& p.1 ≠ 0).foldl (fun acc p => acc ||| p.2) 0

/-- `u16::from_le_bytes`. -/
def fromLe (lo hi : UInt8) : UInt16 := lo.toUInt16 ||| hi.toUInt16 <<< 8

/-- `u16::to_le_bytes`. -/
def toLe (v : UInt16) : List UInt8 := [v.toUInt8, (v >>> 8).toUInt8]

/-- A pedal: c272 counts up when pressed, c269 counts down. -/
def pedal (src : Bytes c272Len) (r : Bytes c269Len) (dst s : ℕ) : Bytes c269Len :=
  r.writeAt dst (toLe (0xffff - fromLe (src.byte s) (src.byte (s + 1))))

/-- Translate one c272 report. -/
def translate (src : Bytes c272Len) : Bytes c269Len :=
  let r := neutral
  let r := r.set 5 (src.byte 0 &&& 0x0f ||| remap (src.byte 0) face)
  let r := r.set 6 (remap (src.byte 1) shoulder)
  let r := if src.byte 3 &&& xboxButton ≠ 0 then r.set 7 psButton else r
  let r := r.set 54 (remap (src.byte 3) rotary)
  let r := r.writeAt 43 [src.byte 4, src.byte 5]
  let r := pedal src r 45 6
  let r := pedal src r 47 8
  pedal src r 49 10

end InputMap

end WheelBridge
