import WheelBridge.Bridge
import WheelBridge.ReportFraming

/-!
The bridge in the mirror role: the wheel presented to its host as itself. The tasks are
those of the wheel role but for what a check of the role leaves out: the device is on
the bus from boot and nothing clears its queues, IF0 reports are queued as they are,
and the bridge neither wakes the wheel nor asks it anything.
-/
namespace WheelBridge

/-- The data endpoints of the wheel. -/
inductive DataPath
  /-- IF0 IN, IF1 IN, IF2 IN. -/
  | input
  | hidpp
  | ffbIn
  /-- IF2 OUT. -/
  | ffbOut
deriving DecidableEq

/-- Packet size of the endpoints of `MIRROR_C272`. -/
def mirrorPacketSize : ℕ := 64

structure Mirror where
  bridge : Bridge
  /-- `INPUT_IN`. -/
  inputIn : Channel Packet queueLen
  /-- The packets on their way to the other side: taken from a queue, transfer under way. -/
  sending : DataPath → Option Packet

def Mirror.init : Mirror where
  -- `follow_wheel` is pending for good, so `WHEEL_LINK` is never read.
  bridge := { Bridge.init with follow := .waiting true }
  inputIn := Channel.empty
  sending := fun _ => none

inductive MirrorAct
  /-- A step that is the same in the wheel role. -/
  | bridge (a : BridgeAct)
  | attach (ep : UInt8)
  | detach
  | controlRequest (req : Request) (data : List UInt8)
  /-- A packet of the wheel, or of the upstream host on IF2 OUT. -/
  | packet (path : DataPath) (data : List UInt8)
  /-- A packet is taken from its queue, and its transfer to the other side ends. -/
  | send (path : DataPath)
  | sent (path : DataPath) (e : Option PipeError)
deriving DecidableEq

inductive MirrorEffect
  | bridge (e : BridgeEffect)
  /-- A packet is received; whether it is counted in `STATS.dropped`. -/
  | received (path : DataPath) (data : List UInt8) (counted : Bool)
  /-- A packet is on the other side. -/
  | handed (path : DataPath) (packet : List UInt8)
  /-- The transfer of a packet fails, or is dropped with the session. -/
  | failed (path : DataPath)
deriving DecidableEq

/-- The steps of the bridge that no check of the role is in: time, failed IN transfers,
the EP0 task once it repeats requests. -/
def BridgeAct.shared : BridgeAct → Bool
  | .elapse _ | .inputReply (.error _) | .inputTimer | .hidppReply (.error _) _ | .hidppTimer
  | .ffbInReply (.error _) | .ffbInTimer | .ep0Done _ | .ep0Control | .ep0If0 | .ep0Recover
  | .ep0Tick => true
  | _ => false

namespace Mirror

def inBridge (s : Mirror) (a : BridgeAct) : Option (Mirror × List MirrorEffect) :=
  (WheelBridge.bridge.step s.bridge a).map fun r => ({ s with bridge := r.1 }, r.2.map .bridge)

/-- `serve_ep0` repeats requests from the start: no SET_IDLE, no wake-up, no queries. -/
def attach (ep : UInt8) (s : Mirror) : Option (Mirror × List MirrorEffect) :=
  match s.bridge.session with
  | some _ => none
  | none =>
    let p := { Session.start ep with ep0 := .select (s.bridge.now + livenessInterval) }
    some ({ s with bridge := { s.bridge.link true with session := some p } },
      [.bridge .attached, .bridge (.linked true)])

/-- The session is dropped, a transfer to the wheel with it. -/
def detach (s : Mirror) : Option (Mirror × List MirrorEffect) :=
  (s.inBridge .detach).map fun r =>
    ({ r.1 with sending := Function.update r.1.sending .ffbOut none },
      r.2 ++ if s.sending .ffbOut = none then [] else [.failed .ffbOut])

def controlRequest (req : Request) (data : List UInt8) (s : Mirror) :
    Mirror × List MirrorEffect :=
  match controlOut .mirror req data with
  | .queue msg =>
    let r := s.bridge.queueControl msg
    ({ s with bridge := r.1 }, r.2.map .bridge)
  | .none | .nonce | .accepted | .rejected => (s, [])

/-- `forward_input`; a report of another length is only logged. -/
def inputArrives (data : List UInt8) (p : Session) (s : Mirror) : Option Mirror :=
  match p.inputTask with
  | .backoff _ | .stopped => none
  | .request =>
    if data.length = c272Len then
      match s.inputIn.trySend (Packet.new data) with
      | some q => some { s with inputIn := q }
      | none => some { s with bridge.dropped := s.bridge.dropped + 1 }
    else some s

/-- The task that reads an endpoint has a packet of it. -/
def arrives (data : List UInt8) (s : Mirror) : DataPath → Option Mirror
  | .input =>
    match s.bridge.session with
    | none => none
    | some p => s.inputArrives data p
  | .hidpp => (s.inBridge (.hidppReply (.ok data) none)).map Prod.fst
  | .ffbIn => (s.inBridge (.ffbInReply (.ok data))).map Prod.fst
  | .ffbOut => (s.inBridge (.ffbPacket data)).map Prod.fst

/-- The next packet of a queue. -/
def take (s : Mirror) : DataPath → Option (Packet × Mirror)
  | .input => s.inputIn.receive.map fun r => (r.1, { s with inputIn := r.2 })
  | .hidpp => s.bridge.hidppIn.receive.map fun r => (r.1, { s with bridge.hidppIn := r.2 })
  | .ffbIn => s.bridge.ffbIn.receive.map fun r => (r.1, { s with bridge.ffbIn := r.2 })
  | .ffbOut =>
    match s.bridge.ffbOut.receive with
    | none => none
    | some (packet, _) => (s.inBridge .ffbTake).map fun r => (packet, r.1)

/-- What a packet's transfer puts on the bus. The IN endpoints are those of the device, and
the report for the wheel is filled up with zeros in every role. -/
def transfer (writeTransfer : WriteTransfer) (packet : Packet) : DataPath → List (List UInt8)
  | .input | .hidpp | .ffbIn => forwardReport .mirror writeTransfer packet
  | .ffbOut => [(ffbReport packet).toList]

/-- `forward_ffb_out` goes on, or stops; only the wheel role recovers. -/
def ffbSent (e : Option PipeError) (s : Bridge) : Bridge :=
  match s.session with
  | none => s
  | some p => s.atFfb p (if e.any PipeError.gone then .stopped else .receive)

def sent (writeTransfer : WriteTransfer) (e : Option PipeError) (s : Mirror) (path : DataPath) :
    Option (Mirror × List MirrorEffect) :=
  match s.sending path with
  | none => none
  | some packet =>
    some ({ s with
      bridge := if path = .ffbOut then ffbSent e s.bridge else s.bridge
      sending := Function.update s.sending path none },
      if e = none then (transfer writeTransfer packet path).map (.handed path)
      else [.failed path])

def step (writeTransfer : WriteTransfer) (s : Mirror) :
    MirrorAct → Option (Mirror × List MirrorEffect)
  | .bridge a => if a.shared then s.inBridge a else none
  | .attach ep => s.attach ep
  | .detach => s.detach
  | .controlRequest req data => some (s.controlRequest req data)
  | .packet path data =>
    -- Both sides' endpoints have packets of at most 64 bytes.
    if data.length ≤ maxPacket then
      (s.arrives data path).map fun t =>
        (t, [.received path data (decide (s.bridge.dropped < t.bridge.dropped))])
    else none
  | .send path =>
    -- The task is back at its queue.
    if s.sending path = none then
      (s.take path).map fun r =>
        ({ r.2 with sending := Function.update r.2.sending path (some r.1) }, [])
    else none
  | .sent path e => s.sent writeTransfer e path

/-- The packets in the bridge, oldest first. -/
def queued (s : Mirror) : DataPath → List Packet
  | .input => s.inputIn.items
  | .hidpp => s.bridge.hidppIn.items
  | .ffbIn => s.bridge.ffbIn.items
  | .ffbOut => s.bridge.ffbOut.items

def held (s : Mirror) (path : DataPath) : List (List UInt8) :=
  ((s.sending path).toList ++ s.queued path).map Packet.bytes

end Mirror

/-- The mirror, whose device writes to its IN endpoints by `writeTransfer`. -/
def mirror (writeTransfer : WriteTransfer) : Machine Mirror MirrorAct MirrorEffect :=
  ⟨Mirror.step writeTransfer⟩

end WheelBridge
