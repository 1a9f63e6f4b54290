import WheelBridge.Hub
import WheelBridge.Ownership

/-!
The host task: it enumerates the device on the root port and serves it, or the devices
behind it if it is a hub, until the device is gone; what it was doing is then dropped
where it stands. The bus gives out an address for each device that is enumerated and
takes it back when it is freed.
-/
namespace WheelBridge

inductive HostPhase
  | waiting
  /-- In `enumerate_with_retry`: an attempt, and the log of the device after it. -/
  | enumerating
  | logging (info : EnumerationInfo) (config : List UInt8)
  /-- In the `select` of serving and the disconnect. -/
  | serving (dev : Attached)
  | hub (info : EnumerationInfo) (h : Hub)
  /-- Served out; the disconnect is awaited. -/
  | served (info : EnumerationInfo)

structure Host where
  /-- The addresses the bus has given out. -/
  given : Finset ℕ
  phase : HostPhase

def Host.init : Host := ⟨∅, .waiting⟩

inductive HostAct
  | connected
  | attemptFailed
  /-- `opened` tells whether `log_device` can open EP0. -/
  | enumerated (info : EnumerationInfo) (config : List UInt8) (opened : Bool)
  | logged
  | serveEnded
  /-- A poll of `hub::run`. -/
  | hub (a : HubAct)
  | disconnected
deriving DecidableEq

inductive HostEffect
  | enumerated (address : ℕ)
  | hub (e : HubEffect)
  /-- The root device is gone, with all that is behind it. -/
  | gone
  | freed (address : ℕ)
deriving DecidableEq

namespace Host

/-- What an effect of the hub means for the addresses given out. -/
def account (given : Finset ℕ) : HubEffect → Finset ℕ
  | .enumerated _ address => insert address given
  | .freed address => given.erase address
  | .detected _ | .removed _ | .rejected _ | .handedOver _ _ | .signalled _ _
  | .overwritten _ _ | .discarded _ _ => given

/-- The bus gives out an address that nobody has. -/
def fresh (given : Finset ℕ) : HubEffect → Bool
  | .enumerated _ address => address ∉ given
  | _ => true

/-- The device is classified and serving begins. -/
def serve (role : Role) (info : EnumerationInfo) (config : List UInt8) (s : Host) : Host :=
  let kind := classify role info
  { s with phase := if kind = .hub then .hub info Hub.init else .serving ⟨info, config, kind⟩ }

/-- The root device is gone. -/
def disconnected (info : EnumerationInfo) (s : Host) : Host × List HostEffect :=
  (⟨s.given.erase info.deviceAddress, .waiting⟩, [.gone, .freed info.deviceAddress])

def step (role : Role) (s : Host) : HostAct → Option (Host × List HostEffect)
  | .connected =>
    match s.phase with
    | .waiting => some ({ s with phase := .enumerating }, [])
    | _ => none
  | .attemptFailed =>
    match s.phase with
    | .enumerating => some (s, [])
    | _ => none
  | .enumerated info config opened =>
    match s.phase with
    | .enumerating =>
      if info.deviceAddress ∈ s.given then none
      else
        let s := { s with given := insert info.deviceAddress s.given }
        some (if opened = true ∧ info.strings.isEmpty = false then
          { s with phase := .logging info config } else s.serve role info config,
          [.enumerated info.deviceAddress])
    | _ => none
  | .logged =>
    match s.phase with
    | .logging info config => some (s.serve role info config, [])
    | _ => none
  | .serveEnded =>
    match s.phase with
    | .serving dev => some ({ s with phase := .served dev.info }, [])
    | _ => none
  | .hub a =>
    match s.phase with
    | .hub info h =>
      match h.step role a with
      | none => none
      | some (t, es) =>
        if es.all (fresh s.given) then
          some (⟨es.foldl account s.given,
            if t.phase = .returned then .served info else .hub info t⟩, es.map .hub)
        else none
    | _ => none
  | .disconnected =>
    match s.phase with
    | .serving dev => some (s.disconnected dev.info)
    | .hub info _ | .served info => some (s.disconnected info)
    | .waiting | .enumerating | .logging _ _ => none

end Host

def host (role : Role) : Machine Host HostAct HostEffect := ⟨Host.step role⟩

end WheelBridge
