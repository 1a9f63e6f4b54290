import WheelBridge.HidInterfaces
import WheelBridge.InputMap
import WheelBridge.Device

/-!
The personalities of the native USB device: what each presents on the bus, and how the
console's control requests that read something are answered.
-/
namespace WheelBridge

/-- An interrupt endpoint: number (without direction), max packet size, bInterval (ms). -/
structure Ep where
  number : UInt8
  maxPacketSize : UInt16
  interval : UInt8
deriving DecidableEq

/-- Everything that differs between the personalities. -/
structure Profile where
  role : Role
  /-- bcdHID and report descriptor of IF0, IF1, IF2. -/
  hid : Fin 3 → UInt16 × List UInt8
  /-- IF0's OUT endpoint, listed before its IN endpoint. -/
  if0Out : Option Ep
  if0In : Ep
  if1In : Ep
  /-- IF2: IN endpoint first, then OUT. -/
  if2In : Ep
  if2Out : Ep
  /-- IF0 feature reports answered locally (report ID first). -/
  features : List (List UInt8)

/-- c269 IF0: DS4 layout (gamepad report 0x01, output 0x05, definition feature 0x03), PS
auth collection (feature F0-F3), joystick collection (output 0x30, feature 0x31). -/
def c269If0ReportDesc : List UInt8 :=
  [0x05, 0x01, 0x09, 0x05, 0xa1, 0x01, 0x85, 0x01, 0x09, 0x30, 0x09, 0x31, 0x09, 0x32, 0x09, 0x35,
   0x15, 0x00, 0x26, 0xff, 0x00, 0x75, 0x08, 0x95, 0x04, 0x81, 0x02, 0x09, 0x39, 0x15, 0x00, 0x25,
   0x07, 0x35, 0x00, 0x46, 0x3b, 0x01, 0x65, 0x14, 0x75, 0x04, 0x95, 0x01, 0x81, 0x42, 0x65, 0x00,
   0x05, 0x09, 0x19, 0x01, 0x29, 0x0d, 0x15, 0x00, 0x25, 0x01, 0x75, 0x01, 0x95, 0x0d, 0x81, 0x02,
   0x06, 0x00, 0xff, 0x09, 0x20, 0x75, 0x07, 0x95, 0x01, 0x81, 0x02, 0x05, 0x01, 0x09, 0x33, 0x09,
   0x34, 0x15, 0x00, 0x26, 0xff, 0x00, 0x75, 0x08, 0x95, 0x02, 0x81, 0x02, 0x06, 0x00, 0xff, 0x09,
   0x21, 0x95, 0x36, 0x81, 0x02, 0x85, 0x05, 0x09, 0x22, 0x95, 0x1f, 0x91, 0x02, 0x85, 0x03, 0x0a,
   0x21, 0x27, 0x95, 0x2f, 0xb1, 0x02, 0xc0, 0x06, 0xf0, 0xff, 0x09, 0x40, 0xa1, 0x01, 0x85, 0xf0,
   0x09, 0x47, 0x95, 0x3f, 0xb1, 0x02, 0x85, 0xf1, 0x09, 0x48, 0x95, 0x3f, 0xb1, 0x02, 0x85, 0xf2,
   0x09, 0x49, 0x95, 0x0f, 0xb1, 0x02, 0x85, 0xf3, 0x0a, 0x01, 0x47, 0x95, 0x07, 0xb1, 0x02, 0xc0,
   0x05, 0x01, 0x09, 0x04, 0xa1, 0x01, 0x85, 0x30, 0x06, 0x01, 0xff, 0x09, 0x02, 0x95, 0x07, 0x91,
   0x02, 0x85, 0x31, 0x95, 0x7e, 0x75, 0x10, 0x05, 0x10, 0x19, 0x01, 0x2a, 0xff, 0xff, 0xb1, 0x40,
   0xc0]

/-- c272 IF0: joystick, one 30-byte input report without report ID. -/
def c272If0ReportDesc : List UInt8 :=
  [0x05, 0x01, 0x09, 0x04, 0xa1, 0x01, 0x09, 0x39, 0x15, 0x00, 0x25, 0x07, 0x35, 0x00, 0x46, 0x3b,
   0x01, 0x65, 0x14, 0x75, 0x04, 0x95, 0x01, 0x81, 0x42, 0x05, 0x09, 0x19, 0x01, 0x29, 0x1c, 0x65,
   0x00, 0x25, 0x01, 0x45, 0x01, 0x75, 0x01, 0x95, 0x1c, 0x81, 0x02, 0x05, 0x01, 0x09, 0x30, 0x27,
   0xff, 0xff, 0x00, 0x00, 0x47, 0xff, 0xff, 0x00, 0x00, 0x75, 0x10, 0x95, 0x01, 0x81, 0x02, 0x09,
   0x33, 0x09, 0x34, 0x09, 0x35, 0x09, 0x32, 0x09, 0x36, 0x09, 0x37, 0x65, 0x00, 0x75, 0x10, 0x95,
   0x06, 0x81, 0x02, 0x06, 0x00, 0xff, 0x25, 0x01, 0x45, 0x01, 0x19, 0x00, 0x29, 0x0f, 0x75, 0x01,
   0x95, 0x10, 0x81, 0x02, 0x05, 0x09, 0x19, 0x1d, 0x29, 0x5c, 0x65, 0x00, 0x15, 0x00, 0x25, 0x01,
   0x75, 0x01, 0x95, 0x40, 0x81, 0x02, 0x05, 0x01, 0x09, 0x31, 0x27, 0xff, 0xff, 0x00, 0x00, 0x47,
   0xff, 0xff, 0x00, 0x00, 0x65, 0x00, 0x75, 0x10, 0x95, 0x01, 0x81, 0x02, 0xc0]

/-- IF1: HID++ short (0x10), long (0x11), very long (0x12). -/
def hidppReportDesc : List UInt8 :=
  [0x06, 0x43, 0xff, 0x0a, 0x01, 0x07, 0xa1, 0x01, 0x85, 0x10, 0x75, 0x08, 0x95, 0x06, 0x15, 0x00,
   0x26, 0xff, 0x00, 0x09, 0x01, 0x81, 0x00, 0x09, 0x01, 0x91, 0x00, 0xc0, 0x06, 0x43, 0xff, 0x0a,
   0x02, 0x07, 0xa1, 0x01, 0x85, 0x11, 0x75, 0x08, 0x95, 0x13, 0x15, 0x00, 0x26, 0xff, 0x00, 0x09,
   0x02, 0x81, 0x00, 0x09, 0x02, 0x91, 0x00, 0xc0, 0x06, 0x43, 0xff, 0x0a, 0x04, 0x07, 0xa1, 0x01,
   0x85, 0x12, 0x75, 0x08, 0x95, 0x3f, 0x15, 0x00, 0x26, 0xff, 0x00, 0x09, 0x03, 0x81, 0x00, 0x09,
   0x03, 0x91, 0x00, 0xc0]

/-- IF2: force feedback, report 0x01 in and out. -/
def ffbReportDesc : List UInt8 :=
  [0x06, 0xfd, 0xff, 0x0a, 0x01, 0xfd, 0xa1, 0x01, 0x85, 0x01, 0x15, 0x00, 0x26, 0xff, 0x00, 0x75,
   0x08, 0x95, 0x3f, 0x09, 0x01, 0x81, 0x00, 0x95, 0x3f, 0x09, 0x01, 0x91, 0x00, 0xc0]

/-- c269 feature 0x03, the PS4 peripheral definition report (report ID included). -/
def feature03 : List UInt8 :=
  [0x03, 0x21, 0x27, 0x04, 0x10, 0x06, 0x00, 0x00, 0x00, 0x00, 0x00, 0x00, 0x00, 0x00, 0x00, 0x00,
   0x00, 0x00, 0x0d, 0x0d, 0x00, 0x00, 0x00, 0x00, 0x9d, 0x84, 0x03, 0x01, 0x00, 0x00, 0x00, 0x00,
   0x01, 0x00, 0x00, 0x00, 0x00, 0x00, 0x00, 0x00, 0x00, 0x00, 0x00, 0x00, 0x00, 0x00, 0x00, 0x00]

/-- `HEAD` of `FEATURE_31`. -/
def feature31Head : List UInt8 :=
  [0x31, 0x30, 0x00, 0x30, 0x00, 0x30, 0x00, 0x30, 0x00, 0x30, 0x00, 0x30, 0x00, 0x30, 0x00, 0x30,
   0x00, 0x30, 0x00, 0x30, 0x00, 0x30, 0x00, 0x30, 0x00, 0x00, 0x00, 0x00, 0x00, 0x00, 0x00, 0x00,
   0x00, 0x00, 0x00, 0x00, 0x00, 0x00, 0x00, 0x00, 0x00, 0x00, 0x00, 0x00, 0x00, 0x00, 0x00, 0x00,
   0x00, 0x00, 0x00, 0x00, 0x00, 0x00, 0x00, 0x00, 0x00, 0x00, 0x00, 0x00, 0x00, 0x00, 0x00, 0x00,
   0x00, 0x05, 0x09, 0x04, 0x02, 0x00, 0x02, 0x03, 0x00, 0x00, 0x00, 0x09, 0x21, 0x11, 0x01, 0x00,
   0x01, 0x22, 0x1e, 0x00, 0x07, 0x05, 0x82, 0x03, 0x40, 0x00, 0x01, 0x07, 0x05, 0x02, 0x03, 0x40,
   0x00, 0x01]

/-- c269 feature 0x31 (report ID included): the serial number in UTF-16LE, then IF2's
interface, HID and endpoint descriptors; zero after that. -/
def feature31 : List UInt8 := feature31Head ++ List.replicate (253 - feature31Head.length) 0

def hidReports (if0 : UInt16 × List UInt8) : Fin 3 → UInt16 × List UInt8
  | 0 => if0
  | 1 => (0x0111, hidppReportDesc)
  | 2 => (0x0111, ffbReportDesc)

/-- c269 with the wheel behind it. -/
def ps5 : Profile where
  role := .wheel
  hid := hidReports (0x0110, c269If0ReportDesc)
  if0Out := some ⟨1, 64, 1⟩
  if0In := ⟨1, 64, 5⟩
  if1In := ⟨3, 20, 5⟩
  if2In := ⟨2, 64, 1⟩
  if2Out := ⟨2, 64, 1⟩
  features := [feature03, feature31]

/-- c269 with DriveHub behind it. -/
def relayC269 : Profile := { ps5 with role := .relay }

/-- The G Pro Xbox/PC itself. -/
def mirrorC272 : Profile where
  role := .mirror
  hid := hidReports (0x0111, c272If0ReportDesc)
  if0Out := none
  if0In := ⟨1, 64, 1⟩
  if1In := ⟨2, 64, 1⟩
  if2In := ⟨3, 64, 1⟩
  if2Out := ⟨3, 64, 1⟩
  features := []

def getDescriptor : UInt8 := 0x06
def hidGetReport : UInt8 := 0x01
def hidGetIdle : UInt8 := 0x02
def hidGetProtocol : UInt8 := 0x03
def reportTypeInput : UInt8 := 0x01

/-- The id of IF0's input report. -/
def inputId : UInt8 := 0x01

inductive InResponse
  | accepted (data : List UInt8)
  | rejected
deriving DecidableEq

/-- GET_REPORT(Feature) on IF0 goes to `auth::get_report` first. -/
def Profile.asksAuth (p : Profile) (req : Request) : Bool :=
  req.recipient = .interface ∧ req.requestType = .class_ ∧ req.request = hidGetReport ∧
    p.role ≠ .mirror ∧ req.kind = reportTypeFeature ∧ req.index = ifInput

/-- A feature report answered locally. -/
def Profile.feature (p : Profile) (req : Request) : Option (List UInt8) :=
  if req.kind = reportTypeFeature ∧ req.index = ifInput then
    p.features.find? fun f => f.head? = some req.id
  else none

/-- GET_REPORT where `auth::get_report` has nothing to give. -/
def Profile.getReport (p : Profile) (input : Bytes c269Len) (req : Request) : InResponse :=
  match p.feature req with
  | some f => .accepted f
  | none =>
    if req.kind = reportTypeInput ∧ req.id = inputId ∧ req.index = ifInput ∧ p.role = .wheel then
      .accepted input.toList
    else .rejected

/-- `Control::control_in`; `report` is what `auth::get_report` gives, where it is asked. -/
def controlIn (p : Profile) (input : Bytes c269Len) (report : Option (List UInt8))
    (req : Request) : Option InResponse :=
  if req.recipient ≠ .interface then none
  else if req.requestType = .standard ∧ req.request = getDescriptor then
    if h : req.kind = Hid.descTypeReport ∧ req.index.toNat < 3 then
      some (.accepted (p.hid ⟨req.index.toNat, h.2⟩).2)
    else some .rejected
  else if req.requestType = .class_ ∧ req.request = hidGetReport then
    match if p.asksAuth req then report else none with
    | some data => some (.accepted data)
    | none => some (p.getReport input req)
  else if req.requestType = .class_ ∧ req.request = hidGetIdle then some (.accepted [0])
  -- report protocol
  else if req.requestType = .class_ ∧ req.request = hidGetProtocol then some (.accepted [1])
  else some .rejected

end WheelBridge
