import Mathlib.Algebra.Ring.Nat
import Mathlib.Data.Fintype.Basic
import WheelBridge.Channel
import WheelBridge.Device
import WheelBridge.Machine
import WheelBridge.Strings

/-!
The devices behind a hub: an events loop that enumerates what is plugged in, and three
children that serve a device each, polled together. The loop hands a device over in a
child's slot, and tells the child in the same slot when the device is gone. A step is
one poll: what the loop gets done until it waits again, then each child.
-/
namespace WheelBridge

def maxPorts : ℕ := 8
def children : ℕ := 3
def enumAttempts : ℕ := 4

instance : NeZero maxPorts := ⟨Nat.succ_ne_zero 7⟩

/-- The handler of a hub tracks this many ports and reports no others. -/
abbrev Port := Fin maxPorts

instance : NeZero children := ⟨Nat.succ_ne_zero 2⟩

abbrev ChildId := Fin children

def wheelVid : UInt16 := 0x046d
def wheelPid : UInt16 := 0xc272
def backendVid : UInt16 := 0x046d
def backendPid : UInt16 := 0xc269
def classHub : UInt8 := 0x09

/-- What an enumerated device is to the bridge. -/
inductive Kind
  | wheel
  | relayBackend
  | hub
  | other
deriving DecidableEq

structure EnumerationInfo where
  deviceAddress : ℕ
  vendorId : UInt16
  productId : UInt16
  deviceClass : UInt8
  strings : StringIndices
deriving DecidableEq

def classify (role : Role) (info : EnumerationInfo) : Kind :=
  if info.vendorId = wheelVid ∧ info.productId = wheelPid then .wheel
  else if info.vendorId = backendVid ∧ info.productId = backendPid ∧ role = .relay then
    .relayBackend
  else if info.deviceClass = classHub then .hub
  else .other

/-- What a child is handed: a device, the configuration descriptor its interfaces are found
in, and what it is. -/
structure Attached where
  info : EnumerationInfo
  config : List UInt8
  kind : Kind
deriving DecidableEq

inductive Event
  | attached (dev : Attached)
  | detached
deriving DecidableEq

/-- Where the events loop is suspended. -/
inductive EventsPhase
  /-- In `HubHandler::try_register`, before the loop and the children are polled. -/
  | registering
  /-- In `wait_for_event`, or in the pause after an error. -/
  | waiting
  | backoff
  /-- In `enumerate`, for a port and with a child that was free, in an attempt or in
  `log_device` after it. -/
  | enumerating (port : Port) (free : ChildId) (attempt : ℕ)
  | logging (port : Port) (free : ChildId) (info : EnumerationInfo) (config : List UInt8)
  /-- The hub's EP0 cannot be opened: the loop is over, the children wait for ever. -/
  | stopped
  /-- `run` has returned. -/
  | returned
deriving DecidableEq

/-- Where a child is suspended: at its slot, in `serve_device`, or with its device served
out. -/
inductive Child
  | idle
  | serving (dev : Attached)
  | servedOut (dev : Attached)
deriving DecidableEq

/-- The device a child holds. -/
def Child.device : Child → Option Attached
  | .idle => none
  | .serving dev | .servedOut dev => some dev

structure Hub where
  phase : EventsPhase
  portChild : Port → Option ChildId
  busy : ChildId → Bool
  slots : ChildId → Signal Event
  child : ChildId → Child

def Hub.init : Hub where
  phase := .registering
  portChild _ := none
  busy _ := false
  slots _ := none
  child _ := .idle

/-- What the events loop's await yields in a poll. -/
inductive Progress
  | idle
  | registered (ok opened : Bool)
  | detected (port : Port)
  | removed (port : Port)
  | otherEvent
  | error
  | backoffOver
  /-- An attempt fails, at the port's reset or at `bus.enumerate`. -/
  | attemptFailed
  /-- `bus.enumerate` succeeds; `opened` tells whether `log_device` can open EP0. -/
  | enumerated (info : EnumerationInfo) (config : List UInt8) (opened : Bool)
  | logged
deriving DecidableEq

/-- One poll, and for each child whether its `serve_device` ends in it. -/
structure HubAct where
  progress : Progress
  done : ChildId → Bool
deriving DecidableEq

inductive HubEffect
  | detected (port : Port)
  | removed (port : Port)
  | enumerated (port : Port) (address : ℕ)
  /-- A hub behind the hub. -/
  | rejected (port : Port)
  | handedOver (port : Port) (c : ChildId)
  | signalled (c : ChildId) (ev : Event)
  /-- An event nobody has taken is lost to the next one. -/
  | overwritten (c : ChildId) (ev : Event)
  /-- A child takes an event it has no use for in its phase. -/
  | discarded (c : ChildId) (ev : Event)
  | freed (address : ℕ)
deriving DecidableEq

namespace Hub

def signal (c : ChildId) (ev : Event) (h : Hub) : Hub × List HubEffect :=
  ({ h with slots := Function.update h.slots c ((h.slots c).signal ev) },
    match h.slots c with
    | none => [.signalled c ev]
    | some lost => [.overwritten c lost, .signalled c ev])

/-- The first child that is not busy. -/
def free (h : Hub) : Option ChildId := (List.finRange children).find? fun c => !h.busy c

def detected (port : Port) (h : Hub) : Hub × List HubEffect :=
  match h.free with
  | none => (h, [.detected port])
  | some c => ({ h with phase := .enumerating port c 1 }, [.detected port])

def removed (port : Port) (h : Hub) : Hub × List HubEffect :=
  match h.portChild port with
  | none => (h, [.removed port])
  | some c =>
    let h := { h with
      portChild := Function.update h.portChild port none
      busy := Function.update h.busy c false }
    let (h, es) := h.signal c .detached
    (h, .removed port :: es)

/-- The device has been logged: it is classified and handed over. -/
def handOver (role : Role) (port : Port) (c : ChildId) (info : EnumerationInfo)
    (config : List UInt8) (h : Hub) : Hub × List HubEffect :=
  let kind := classify role info
  if kind = .hub then ({ h with phase := .waiting }, [.rejected port])
  else
    let h := { h with
      phase := .waiting
      portChild := Function.update h.portChild port (some c)
      busy := Function.update h.busy c true }
    let (h, es) := h.signal c (.attached ⟨info, config, kind⟩)
    (h, .handedOver port c :: es)

/-- `events`, from one suspension to the next. -/
def advance (role : Role) (h : Hub) : Progress → Option (Hub × List HubEffect)
  | .idle => if h.phase = .returned then none else some (h, [])
  | .registered ok opened =>
    if h.phase = .registering then
      some ({ h with phase := if ok then (if opened then .waiting else .stopped) else .returned },
        [])
    else none
  | .detected port => if h.phase = .waiting then some (h.detected port) else none
  | .removed port => if h.phase = .waiting then some (h.removed port) else none
  | .otherEvent => if h.phase = .waiting then some (h, []) else none
  | .error => if h.phase = .waiting then some ({ h with phase := .backoff }, []) else none
  | .backoffOver => if h.phase = .backoff then some ({ h with phase := .waiting }, []) else none
  | .attemptFailed =>
    match h.phase with
    | .enumerating port c attempt =>
      some ({ h with
        phase := if attempt < enumAttempts then .enumerating port c (attempt + 1) else .waiting },
        [])
    | _ => none
  | .enumerated info config opened =>
    match h.phase with
    | .enumerating port c _ =>
      if opened = true ∧ info.strings.isEmpty = false then
        some ({ h with phase := .logging port c info config },
          [.enumerated port info.deviceAddress])
      else
        -- Nothing is read for the log, so `log_device` does not wait.
        let (h, es) := h.handOver role port c info config
        some (h, .enumerated port info.deviceAddress :: es)
    | _ => none
  | .logged =>
    match h.phase with
    | .logging port c info config => some (h.handOver role port c info config)
    | _ => none

end Hub

/-- A child with a device looks into its slot for the device's removal; `stay` is where it
waits on. -/
def Child.waitRemoved (c : ChildId) (dev : Attached) (stay : Child) :
    Signal Event → Child × List HubEffect
  | none => (stay, [])
  | some .detached => (.idle, [.freed dev.info.deviceAddress])
  | some ev => (stay, [.discarded c ev])

/-- One poll of `child`. It waits on its slot in every phase, so the slot is empty after it. -/
def Child.poll (c : ChildId) (done : Bool) (slot : Signal Event) : Child → Child × List HubEffect
  | .idle =>
    match slot with
    | none => (.idle, [])
    | some (.attached dev) => (if done then .servedOut dev else .serving dev, [])
    | some .detached => (.idle, [.discarded c .detached])
  | .serving dev => Child.waitRemoved c dev (if done then .servedOut dev else .serving dev) slot
  | .servedOut dev => Child.waitRemoved c dev (.servedOut dev) slot

namespace Hub

def pollChildren (done : ChildId → Bool) (h : Hub) : Hub × List HubEffect :=
  let polled := fun c => (h.child c).poll c (done c) (h.slots c)
  ({ h with slots := fun _ => none, child := fun c => (polled c).1 },
    (List.finRange children).flatMap fun c => (polled c).2)

/-- One poll of `run`. -/
def step (role : Role) (h : Hub) (a : HubAct) : Option (Hub × List HubEffect) :=
  match h.advance role a.progress with
  | none => none
  | some (h, es) =>
    let (h, fs) := h.pollChildren a.done
    some (h, es ++ fs)

end Hub

def hub (role : Role) : Machine Hub HubAct HubEffect := ⟨Hub.step role⟩

end WheelBridge
