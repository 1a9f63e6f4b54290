import WheelBridge.BridgeLines
import WheelBridge.ControlHandler

/-!
The whole of the wheel role: the device and its control handler on one core, the wheel's
proxy and the signers on the other, over one state. The bridge, the control handler and the
authentication relay are each a view of it; the handler shares the queue of class requests
and the input report with the bridge.
-/
namespace WheelBridge

structure WheelRole where
  bridge : Bridge
  auth : Auth.System
  /-- How many class requests are among the dropped; no step reads it. -/
  refused : ℕ

def WheelRole.init : WheelRole := ⟨Bridge.init, Auth.System.init, 0⟩

inductive WheelAct
  | elapse (ms : ℕ)
  /-- The console's control requests; `set_report` sends its command as a step of its own. -/
  | controlIn (req : Request)
  | controlOut (req : Request) (data : List UInt8)
  | send
  /-- A signer on the other core. -/
  | signer (a : Auth.Act)
  /-- What the control handler takes no part in. -/
  | bridge (a : BridgeAct)
deriving DecidableEq

inductive WheelEffect
  | bridge (e : BridgeEffect)
  | handler (e : HandlerEffect)
deriving DecidableEq

/-- GET_REPORT of the input report. -/
def Request.readsInput (req : Request) : Bool :=
  req.isGetReport ∧ req.kind = reportTypeInput ∧ req.id = inputId ∧ req.index = ifInput

def BridgeAct.apart : BridgeAct → Bool
  | .elapse _ | .controlRequest _ _ => false
  | _ => true

namespace WheelRole

/-- What the control handler sees. -/
def handler (s : WheelRole) : Handler :=
  ⟨s.auth, ⟨s.bridge.controlOut, s.refused⟩, s.bridge.input⟩

def inBridge (a : BridgeAct) (s : WheelRole) : Option (WheelRole × List WheelEffect) :=
  (s.bridge.step a).map fun r => ({ s with bridge := r.1 }, r.2.map .bridge)

/-- A step of the handler, or of a signer, that touches only the authentication relay. -/
def inAuth (a : HandlerAct) (s : WheelRole) : Option (WheelRole × List WheelEffect) :=
  (s.handler.step ps5 a).map fun r => ({ s with auth := r.1.auth }, r.2.map .handler)

/-- `Control::control_out`: the bridge queues what the handler answers. -/
def controlOut (req : Request) (data : List UInt8) (s : WheelRole) :
    Option (WheelRole × List WheelEffect) :=
  match s.bridge.step (.controlRequest req data), s.handler.step ps5 (.controlOut req data) with
  | some b, some h =>
    some (⟨b.1, h.1.auth, h.1.path.dropped⟩, b.2.map .bridge ++ h.2.map .handler)
  | _, _ => none

def step (s : WheelRole) : WheelAct → Option (WheelRole × List WheelEffect)
  | .elapse ms =>
    (s.inBridge (.elapse ms)).bind fun r =>
      (r.1.inAuth (.elapse ms)).map fun q => (q.1, r.2 ++ q.2)
  | .controlIn req =>
    if s.bridge.built then
      (s.inAuth (.controlIn req)).map fun r =>
        (r.1, r.2 ++ if req.readsInput then [.bridge (.inputGiven s.bridge.input)] else [])
    else none
  | .controlOut req data => s.controlOut req data
  | .send => s.inAuth .send
  | .signer a => s.inAuth (.signer a)
  | .bridge a => if a.apart then s.inBridge a else none

end WheelRole

def wheelRole : Machine WheelRole WheelAct WheelEffect := ⟨WheelRole.step⟩

/-- What the handler knows of the bridge's other tasks: its queue is cleared, and a request
taken from it and repeated. -/
def BridgeEffect.toHandler : BridgeEffect → Option HandlerEffect
  | .cleared => some (.path .cleared)
  | .repeated msg => some (.path (.issued (repeatControl msg)))
  | .pullup _ | .linked _ | .queued _ | .took _ | .inputGiven _ | .wheelInput _ | .attached
  | .detached | .request _ | .message _ _ | .returned _ _ | .revLights _ | .ffbWrite _
  | .clearHalt _ | .haltCleared _ | .recoverAsked | .toggleReset => none

namespace WheelEffect

def toBridge : WheelEffect → Option BridgeEffect
  | .bridge e => some e
  | .handler _ => none

def toHandler : WheelEffect → Option HandlerEffect
  | .bridge e => e.toHandler
  | .handler e => some e

/-- A class request that is queued for the wheel. -/
def handed : WheelEffect → Option ControlOut
  | .handler (.path (.answered _ _ _ (.queued msg))) => some msg
  | .handler _ | .bridge _ => none

def repeated : WheelEffect → Option ControlOut
  | .bridge (.repeated msg) => some msg
  | .bridge _ | .handler _ => none

end WheelEffect

section Views

theorem toBridge_bridge (es : List BridgeEffect) :
    (es.map WheelEffect.bridge).filterMap WheelEffect.toBridge = es :=
  filterMap_seen WheelEffect.bridge WheelEffect.toBridge (fun _ => rfl) es

theorem toBridge_handler (es : List HandlerEffect) :
    (es.map WheelEffect.handler).filterMap WheelEffect.toBridge = [] :=
  filterMap_unseen WheelEffect.handler WheelEffect.toBridge (fun _ => rfl) es

theorem wheelToHandler_handler (es : List HandlerEffect) :
    (es.map WheelEffect.handler).filterMap WheelEffect.toHandler = es :=
  filterMap_seen WheelEffect.handler WheelEffect.toHandler (fun _ => rfl) es

theorem wheelToHandler_bridge (es : List BridgeEffect) :
    (es.map WheelEffect.bridge).filterMap WheelEffect.toHandler =
      es.filterMap BridgeEffect.toHandler := by
  rw [List.filterMap_map]
  rfl

end Views

end WheelBridge
