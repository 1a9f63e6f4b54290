import WheelBridge.Device
import WheelBridge.InputMap

/-!
The host side of the bridge for one wheel: what its tasks are suspended at, and the
decisions they take between two awaits. A session starts when the wheel is enumerated
and is dropped when it is gone (all times in milliseconds).
-/
namespace WheelBridge

def ffbRecoveryInterval : ℕ := 5000
def ffbRecoveryTimeout : ℕ := 1000
def inErrorBackoff : ℕ := 50
def livenessInterval : ℕ := 1000
def featureQueryTimeout : ℕ := 500
def pingInterval : ℕ := 20
def pingTimeout : ℕ := 10000
def lastAnswersTime : ℕ := 100

/-- Software ID of the bridge's own HID++ requests. -/
def bridgeSwid : UInt8 := 0x0b

def ping : List UInt8 := [0x10, 0xff, 0x00, 0x1b, 0x00, 0x00, 0x5a]

def revLights : List UInt8 := [0xf8, 0x12]
def hidppLongLen : ℕ := 20

def featureSet : UInt16 := 0x0001
def trueforce : UInt16 := 0x8139
def ledEffects : UInt16 := 0x807a

/-- How a transfer fails. -/
inductive PipeError
  | disconnected
  | canceled
  | stall
  | other
deriving DecidableEq

def PipeError.gone : PipeError → Bool
  | .disconnected | .canceled => true
  | .stall | .other => false

/-- A task that polls an IN endpoint. -/
inductive InTask
  | request
  | backoff (wake : ℕ)
  | stopped
deriving DecidableEq

/-- After a failed IN transfer. -/
def keepPolling (e : PipeError) (now : ℕ) : InTask :=
  if e.gone then .stopped else .backoff (now + inErrorBackoff)

/-- A bridge query after the wake-up. -/
inductive Query
  /-- In `log_feature_table`. -/
  | featureSet
  | count (set : UInt8)
  | featureId (set n index : UInt8)
  | trueforce
  | tfFunction (tf function : UInt8)
  /-- In `query_led_feature`. -/
  | ledFeature
deriving DecidableEq

namespace Query

/-- IRoot function 0 getFeature. -/
def getFeature (feature : UInt16) : List UInt8 :=
  [0x10, 0xff, 0x00, bridgeSwid, (feature >>> 8).toUInt8, feature.toUInt8, 0x00]

def msg : Query → List UInt8
  | .featureSet => getFeature WheelBridge.featureSet
  | .count set => [0x10, 0xff, set, bridgeSwid, 0, 0, 0]
  | .featureId set _ index => [0x10, 0xff, set, 0x10 ||| bridgeSwid, index, 0, 0]
  | .trueforce => getFeature WheelBridge.trueforce
  | .tfFunction tf function => [0x10, 0xff, tf, function <<< 4 ||| bridgeSwid, 0, 0, 0]
  | .ledFeature => getFeature ledEffects

/-- The query after this one; none after the last. -/
def next (answer : Option (Bytes 20)) : Query → Option Query
  | .featureSet =>
    match answer with
    | some a => if a.byte 4 = 0 then some .ledFeature else some (.count (a.byte 4))
    | none => some .ledFeature
  | .count set =>
    match answer with
    | some a => if a.byte 4 = 0 then some .trueforce else some (.featureId set (a.byte 4) 1)
    | none => some .ledFeature
  | .featureId set n index =>
    if index < n then some (.featureId set n (index + 1)) else some .trueforce
  | .trueforce =>
    match answer with
    | some a => if a.byte 4 = 0 then some .ledFeature else some (.tfFunction (a.byte 4) 0)
    | none => some .ledFeature
  | .tfFunction tf function =>
    if function = 0 then some (.tfFunction tf 1) else some .ledFeature
  | .ledFeature => none

/-- What `query_led_feature` stores. -/
def ledIndex (answer : Option (Bytes 20)) : Query → Option UInt8
  | .ledFeature =>
    match answer with
    | some a => if a.byte 4 = 0 then none else some (a.byte 4)
    | none => none
  | _ => none

end Query

/-- Where `serve_ep0` is suspended: at a transfer, a timer, an answer or `select4`. -/
inductive Ep0
  | setIdle (iface : ℕ)
  | ping (start tick : ℕ)
  | pingTick (start tick : ℕ)
  | lastAnswers (wake : ℕ)
  | querySend (q : Query)
  | queryWait (q : Query) (deadline : ℕ)
  | select (tick : ℕ)
  /-- Repeating a control request, sending rev lights, clearing the halt of the FFB OUT
  endpoint, GET_STATUS. -/
  | control (tick : ℕ)
  | revLights (tick : ℕ)
  | clearHalt (ep : UInt8) (tick : ℕ)
  | getStatus (tick : ℕ)
deriving DecidableEq

/-- Where `forward_ffb_out` is suspended. -/
inductive FfbOut
  | receive
  | write
  /-- In `recover_ffb`. -/
  | recover (deadline : ℕ)
  | stopped
deriving DecidableEq

/-- One `proxy::run`. -/
structure Session where
  /-- Address of the wheel's FFB OUT endpoint. -/
  ffbEp : UInt8
  inputTask : InTask
  hidppTask : InTask
  ffbInTask : InTask
  ep0 : Ep0
  revLevel : Option ℕ
  ffbOut : FfbOut
  lastRecovery : Option ℕ

def Session.start (ffbEp : UInt8) : Session where
  ffbEp := ffbEp
  inputTask := .request
  hidppTask := .request
  ffbInTask := .request
  ep0 := .setIdle 0
  revLevel := none
  ffbOut := .receive
  lastRecovery := none

/-- The software ID of a HID++ message; 0 for notifications. -/
def softwareId (b : List UInt8) : UInt8 :=
  let i := if b[2]? = some 0xff then 4 else 3
  (b[i]?.map (· &&& 0x0f)).getD 0

def countOnes (b : UInt8) : ℕ :=
  ((List.range 8).filter fun i => b.toNat.testBit i).length

/-- `rev_lights`: the level and the command for a report, if it asks for another level
than the last one and the LED feature is known. -/
def revCommand (report : List UInt8) (led : UInt8) (last : Option ℕ) :
    Option (ℕ × List UInt8) :=
  match report with
  | 0x30 :: a :: b :: mask :: _ =>
    if [a, b] ≠ revLights ∨ led = 0 then none
    else
      let lit := countOnes (mask &&& 0x1f) * 2
      if last = some lit then none
      else some (lit, [0x11, 0xff, led, 0x60 ||| bridgeSwid, 0x00, 0x01, 0x00, 0x0a, 0x00,
        UInt8.ofNat lit] ++ List.replicate (hidppLongLen - 10) 0)
  | _ => none

/-- A force feedback packet padded to the wheel's report. -/
def ffbReport (p : Packet) : Bytes maxPacket := Bytes.zero.write p.bytes

end WheelBridge
