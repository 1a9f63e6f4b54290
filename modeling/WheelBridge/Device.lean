import WheelBridge.Bytes
import WheelBridge.Channel

/-!
The native USB device: the roles the bridge is built for, the packets that cross
between the cores, the queues and the class requests the console's control transfers
turn into. Requests are answered on the spot, so nothing here waits.
-/
namespace WheelBridge

/-- What is behind the device, and how it is forwarded. -/
inductive Role
  | wheel
  | relay
  | mirror
deriving DecidableEq

/-- Largest report on any endpoint. -/
def maxPacket : ℕ := 64

def queueLen : ℕ := 8
def hidppInQueueLen : ℕ := 32
def wheelLinkLen : ℕ := 4

/-- Off the bus at least this long (ms). -/
def minDetach : ℕ := 500

/-- One interrupt report (or HID++ message) in flight between the cores. -/
structure Packet where
  len : ℕ
  data : Bytes maxPacket
  len_le : len ≤ maxPacket
deriving DecidableEq

namespace Packet

/-- Copy of `data`, truncated to `maxPacket`. -/
def new (data : List UInt8) : Packet where
  len := min data.length maxPacket
  data := Bytes.zero.write (data.take maxPacket)
  len_le := Nat.min_le_right ..

def bytes (p : Packet) : List UInt8 := p.data.toList.take p.len

theorem length_bytes (p : Packet) : p.bytes.length = p.len := by
  rw [bytes, List.length_take, p.data.length_eq, Nat.min_eq_left p.len_le]

/-- A packet gives back what it was made of, cut to its size. -/
theorem bytes_new (data : List UInt8) : (new data).bytes = data.take maxPacket := by
  have hlen : (new data).len = min data.length maxPacket := rfl
  apply List.ext_getElem
  · rw [length_bytes, hlen, List.length_take, Nat.min_comm]
  · intro i hb hd
    have hi : i < data.length ∧ i < maxPacket := by
      rw [List.length_take] at hd
      omega
    have hw := Bytes.byte_writeAt (data.take maxPacket) (Bytes.zero : Bytes maxPacket) 0 i
    have hlt : 0 ≤ i ∧ i < 0 + (data.take maxPacket).length ∧ i < maxPacket := by
      rw [List.length_take]
      omega
    rw [if_pos hlt] at hw
    have hsize : i < (new data).data.toList.length := by
      rw [(new data).data.length_eq]
      exact hi.2
    have hget : (new data).data.toList[i] = (data.take maxPacket)[i] := by
      change ((new data).data.toList.getD i 0) = (data.take maxPacket).getD (i - 0) 0 at hw
      simpa [List.getD_eq_getElem?_getD, List.getElem?_eq_getElem hsize,
        List.getElem?_eq_getElem hd] using hw
    simpa only [bytes, List.getElem_take] using hget

end Packet

inductive RequestType
  | standard
  | class_
  | vendor
  | reserved
deriving DecidableEq

inductive Recipient
  | device
  | interface
  | endpoint
  | other
  | reserved
deriving DecidableEq

/-- A control request of the console. -/
structure Request where
  requestType : RequestType
  recipient : Recipient
  request : UInt8
  value : UInt16
  index : UInt16
deriving DecidableEq

namespace Request

/-- The high byte of wValue: report type. -/
def kind (req : Request) : UInt8 := (req.value >>> 8).toUInt8

/-- The low byte of wValue: report ID. -/
def id (req : Request) : UInt8 := req.value.toUInt8

end Request

/-- A class, interface-recipient OUT control request to repeat to the wheel. -/
structure ControlOut where
  request : UInt8
  value : UInt16
  index : UInt16
  data : Packet
deriving DecidableEq

def hidSetReport : UInt8 := 0x09
def hidSetIdle : UInt8 := 0x0a
def hidSetProtocol : UInt8 := 0x0b

def reportTypeFeature : UInt8 := 0x03

def ifInput : UInt16 := 0
def ifHidpp : UInt16 := 1

/-- The nonce report, `ID_NONCE`. -/
def idNonce : UInt8 := 0xf0

/-- What `Control::control_out` does with a request. -/
inductive ControlOutAction
  /-- Not for this handler. -/
  | none
  /-- Taken by `auth::set_report`. -/
  | nonce
  /-- Queued for the backend in `CONTROL_OUT`; accepted also when the queue is full. -/
  | queue (msg : ControlOut)
  | accepted
  | rejected
deriving DecidableEq

def Request.isHidpp (req : Request) : Bool :=
  req.request = hidSetReport ∧ req.index = ifHidpp

def controlOut (role : Role) (req : Request) (data : List UInt8) : ControlOutAction :=
  if req.recipient ≠ .interface ∨ req.requestType ≠ .class_ then .none
  else if role ≠ .mirror ∧ req.request = hidSetReport ∧ req.index = ifInput ∧
      req.kind = reportTypeFeature ∧ req.id = idNonce then .nonce
  -- Relay and mirror: every class request goes to the backend. Wheel role: HID++.
  else if role ≠ .wheel ∨ req.isHidpp then
    .queue ⟨req.request, req.value, req.index, Packet.new data⟩
  else if req.request = hidSetIdle ∨ req.request = hidSetProtocol ∨
      req.request = hidSetReport then .accepted
  else .rejected

end WheelBridge
