import WheelBridge.Hub
import WheelBridge.InputMap
import WheelBridge.Refinement

/-!
One port of the hub from a device's detection to its enumeration: the port is reset, its
status polled until the port is enabled, the change acknowledged and the device left to
recover, a few times if needed. Times are in milliseconds.
-/
namespace WheelBridge

def portResetFeature : UInt8 := 4
def cPortReset : UInt8 := 20
def portEnable : UInt16 := 0x0002
def cReset : UInt16 := 0x0010

def portResetTimeout : ℕ := 500
def portPoll : ℕ := 5
def resetRecovery : ℕ := 10

/-- The hub's number for a port. -/
def Port.number (port : Port) : UInt8 := UInt8.ofNat port.val + 1

def Port.setReset (port : Port) : List UInt8 :=
  [0x23, 0x03, portResetFeature, 0, port.number, 0, 0, 0]

def Port.getStatus (port : Port) : List UInt8 := [0xa3, 0x00, 0, 0, port.number, 0, 4, 0]

def Port.clearReset (port : Port) : List UInt8 :=
  [0x23, 0x01, cPortReset, 0, port.number, 0, 0, 0]

/-- The port is enabled after a reset, by the answer to GET_STATUS. -/
def portEnabled (reply : List UInt8) : Bool :=
  let buf := (Bytes.zero : Bytes 4).write reply
  let status := InputMap.fromLe (buf.byte 0) (buf.byte 1)
  let change := InputMap.fromLe (buf.byte 2) (buf.byte 3)
  decide (status &&& portEnable ≠ 0 ∧ change &&& cReset ≠ 0)

/-- Where `reset_port` is suspended. -/
inductive ResetPort
  | setFeature (start : ℕ)
  | getStatus (start : ℕ)
  | pause (start wake : ℕ)
  | clearFeature
  | recovery (wake : ℕ)
deriving DecidableEq

/-- Where `enumerate` is. -/
inductive Enumerate
  | called
  | reset (attempt : ℕ) (r : ResetPort)
  /-- In `bus.enumerate`. -/
  | enumerating (attempt : ℕ)
  /-- In `usb_host::log_device`. -/
  | logging (attempt : ℕ)
  | returned (ok : Bool)
deriving DecidableEq

structure PortEnum where
  now : ℕ
  task : Enumerate

def PortEnum.init : PortEnum := ⟨0, .called⟩

inductive PortAct
  | elapse (ms : ℕ)
  | call
  /-- A transfer on the hub's EP0 ends, with data or failed. -/
  | reply (r : Option (List UInt8))
  | timer
  /-- `bus.enumerate` returns. -/
  | enumerated (ok : Bool)
  /-- `log_device` returns. -/
  | logged
deriving DecidableEq

inductive PortEffect
  | transfer (setup : List UInt8)
  | enumerate (attempt : ℕ)
  /-- The log of a failed attempt. -/
  | failed (attempt : ℕ)
  | returned (ok : Bool)
deriving DecidableEq

namespace PortEnum

def goOn (task : Enumerate) (s : PortEnum) : PortEnum := { s with task }

def startAttempt (port : Port) (attempt : ℕ) (s : PortEnum) : PortEnum × List PortEffect :=
  (s.goOn (.reset attempt (.setFeature s.now)), [.transfer port.setReset])

/-- The attempt is over; the next one begins, if there is one. -/
def failAttempt (port : Port) (attempt : ℕ) (s : PortEnum) : PortEnum × List PortEffect :=
  if attempt < enumAttempts then
    match s.startAttempt port (attempt + 1) with
    | (s, es) => (s, .failed attempt :: es)
  else (s.goOn (.returned false), [.failed attempt, .returned false])

/-- The port's status has been read. -/
def statusRead (port : Port) (attempt start : ℕ) (reply : List UInt8) (s : PortEnum) :
    PortEnum × List PortEffect :=
  if portEnabled reply then
    (s.goOn (.reset attempt .clearFeature), [.transfer port.clearReset])
  else if portResetTimeout ≤ s.now - start then s.failAttempt port attempt
  else (s.goOn (.reset attempt (.pause start (s.now + portPoll))), [])

/-- The hub's EP0 answers, or does not. -/
def replied (port : Port) (attempt : ℕ) (r : Option (List UInt8)) (s : PortEnum) :
    ResetPort → Option (PortEnum × List PortEffect)
  | .setFeature start =>
    match r with
    | some _ => some (s.goOn (.reset attempt (.getStatus start)), [.transfer port.getStatus])
    | none => some (s.failAttempt port attempt)
  | .getStatus start =>
    match r with
    | some reply => some (s.statusRead port attempt start reply)
    | none => some (s.failAttempt port attempt)
  | .clearFeature =>
    match r with
    | some _ => some (s.goOn (.reset attempt (.recovery (s.now + resetRecovery))), [])
    | none => some (s.failAttempt port attempt)
  | .pause _ _ | .recovery _ => none

def timer (port : Port) (attempt : ℕ) (s : PortEnum) :
    ResetPort → Option (PortEnum × List PortEffect)
  | .pause start wake =>
    if wake ≤ s.now then
      some (s.goOn (.reset attempt (.getStatus start)), [.transfer port.getStatus])
    else none
  | .recovery wake =>
    if wake ≤ s.now then some (s.goOn (.enumerating attempt), [.enumerate attempt]) else none
  | .setFeature _ | .getStatus _ | .clearFeature => none

def step (port : Port) (s : PortEnum) (a : PortAct) : Option (PortEnum × List PortEffect) :=
  match a, s.task with
  | .elapse ms, _ => some ({ s with now := s.now + ms }, [])
  | .call, .called => some (s.startAttempt port 1)
  | .reply r, .reset attempt point => s.replied port attempt r point
  | .timer, .reset attempt point => s.timer port attempt point
  | .enumerated true, .enumerating attempt => some (s.goOn (.logging attempt), [])
  | .enumerated false, .enumerating attempt => some (s.failAttempt port attempt)
  | .logged, .logging _ => some (s.goOn (.returned true), [.returned true])
  | _, _ => none

end PortEnum

/-- `enumerate` for a device on the port. -/
def portEnum (port : Port) : Machine PortEnum PortAct PortEffect := ⟨PortEnum.step port⟩

end WheelBridge
