import WheelBridge.ControlHandler
import WheelBridge.Meters
import WheelBridge.Proxy
import WheelBridge.ReportFraming

/-!
The bridge in the relay role: DriveHub behind the device that looks like it, every endpoint
forwarded packet by packet, the console's class requests repeated, and DriveHub the signer
of the console's authentication. The device waits for DriveHub once and stays on the bus.
-/
namespace WheelBridge

/-- The endpoints that are forwarded. -/
inductive RelayPath
  | if0In
  | if0Out
  | hidppIn
  | ffbIn
  | ffbOut
deriving DecidableEq

/-- The counters, in the order of the log line. -/
inductive RelayCounter
  | backendInput
  | inputSent
  | if0Written
  | backendHidpp
  | hidppSent
  | hidppSetReport
  | hidppWritten
  | backendFfb
  | ffbSent
  | ffbReceived
  | ffbWritten
  | dropped
deriving DecidableEq

def relayStatsLine : List RelayCounter :=
  [.backendInput, .inputSent, .if0Written, .backendHidpp, .hidppSent, .hidppSetReport,
    .hidppWritten, .backendFfb, .ffbSent, .ffbReceived, .ffbWritten, .dropped]

def relayStatsInterval : ℕ := 5000

namespace RelayPath

/-- From DriveHub to the console. -/
def fromBackend : RelayPath → Bool
  | .if0In | .hidppIn | .ffbIn => true
  | .if0Out | .ffbOut => false

def cap : RelayPath → ℕ
  | .hidppIn => hidppInQueueLen
  | .if0In | .if0Out | .ffbIn | .ffbOut => queueLen

/-- What counts a packet that is received; `if0_output` only logs changes. -/
def receivedBy : RelayPath → List RelayCounter
  | .if0In => [.backendInput]
  | .if0Out => []
  | .hidppIn => [.backendHidpp]
  | .ffbIn => [.backendFfb]
  | .ffbOut => [.ffbReceived]

/-- What counts a packet that reached the other side. -/
def handedBy : RelayPath → RelayCounter
  | .if0In => .inputSent
  | .if0Out => .if0Written
  | .hidppIn => .hidppSent
  | .ffbIn => .ffbSent
  | .ffbOut => .ffbWritten

end RelayPath

/-- `relay::run` once DriveHub's F3 has been asked for. -/
structure Forwarding where
  /-- The host side's task of each endpoint. -/
  tasks : RelayPath → InTask
  /-- `repeat_control` is at its transfer; whether it repeats a HID++ request. -/
  repeating : Option Bool
  /-- The ticker of `log_stats`, and the counters of its line that are still to be taken. -/
  tick : ℕ
  line : List RelayCounter

inductive RelaySession
  /-- In `try_signer`. -/
  | probing
  | forwarding (f : Forwarding)

structure Relay where
  now : ℕ
  handler : Handler
  /-- `BACKEND_READY`, and whether the device task has seen it. -/
  ready : Bool
  built : Bool
  queues : (path : RelayPath) → Channel Packet path.cap
  /-- The packets on their way to the other side. -/
  sending : RelayPath → Option Packet
  counts : RelayCounter → UInt32
  session : Option RelaySession

def Relay.init : Relay where
  now := 0
  handler := Handler.init
  ready := false
  built := false
  queues _ := Channel.empty
  sending _ := none
  counts _ := 0
  session := none

/-- Who the signer is to the authentication relay: DriveHub, the only device. -/
def backend : ℕ := 0

inductive RelayAct
  | elapse (ms : ℕ)
  /-- DriveHub is enumerated with the c269's layout; its relay is dropped. -/
  | attach
  | detach
  /-- `try_signer` is over; the device task goes on. -/
  | start
  | build
  /-- The console's control requests; `set_report` sends its command. -/
  | controlIn (req : Request)
  | controlOut (req : Request) (data : List UInt8)
  | send
  /-- EP0: a command is taken, a transfer or a pause of it ends. -/
  | ep0Command
  | ep0Reply (r : Option (List UInt8))
  | ep0Timer
  /-- EP0: a request is taken and repeated, and its transfer ends. -/
  | ep0Control
  | ep0Done (ok : Bool)
  /-- A packet is received on an endpoint; a transfer from DriveHub fails, and its pause ends. -/
  | packet (path : RelayPath) (data : List UInt8)
  | pollError (path : RelayPath) (e : PipeError)
  | pollTimer (path : RelayPath)
  /-- A packet is taken from its queue, and its transfer ends. -/
  | take (path : RelayPath)
  | sent (path : RelayPath) (ok : Bool)
  /-- `log_stats` starts its line, and takes a counter. -/
  | statsTick
  | statsTake
deriving DecidableEq

inductive RelayEffect
  | received (path : RelayPath) (data : List UInt8) (taken : Bool)
  | handed (path : RelayPath) (packet : List UInt8)
  /-- The transfer of a packet fails, or is dropped with the session. -/
  | lost (path : RelayPath) (packet : List UInt8)
  | handler (e : HandlerEffect)
  /-- `repeat_control` returns. -/
  | repeated (hidpp ok : Bool)
  | logged (c : RelayCounter) (n : UInt32)
deriving DecidableEq

/-- What a class request counts. -/
def ControlEffect.counters : ControlEffect → List RelayCounter
  | .answered req _ resp handed =>
    (if resp ≠ none ∧ req.isHidpp then [.hidppSetReport] else []) ++
      if handed = .counted then [.dropped] else []
  | .cleared | .issued _ => []

abbrev Relaying := Option (Relay × List RelayEffect)

namespace Relay

/-- `fetch_add(1)` on each of the counters. -/
def count (cs : List RelayCounter) (s : Relay) : Relay :=
  { s with counts := bumped cs s.counts }

/-- A step of the control handler, or of the signer. -/
def inHandler (a : HandlerAct) (s : Relay) : Relaying :=
  (s.handler.step relayC269 a).map fun r => ({ s with handler := r.1 }, r.2.map .handler)

/-- The host side forwards. -/
def forwarded (f : Forwarding → Relay → Relaying) (s : Relay) : Relaying :=
  match s.session with
  | some (.forwarding x) => f x s
  | some .probing | none => none

def goOn (f : Forwarding) (s : Relay) : Relay := { s with session := some (.forwarding f) }

/-- The reader of an endpoint is at its transfer. -/
def reading (s : Relay) (path : RelayPath) : Bool :=
  if path.fromBackend then
    match s.session with
    | some (.forwarding f) => f.tasks path = .request
    | some .probing | none => false
  else s.built

/-- The writer of the other side takes packets. -/
def writing (s : Relay) (path : RelayPath) : Bool :=
  if path.fromBackend then s.built
  else
    match s.session with
    | some (.forwarding f) => f.tasks path = .request
    | some .probing | none => false

def controlOut (req : Request) (data : List UInt8) (s : Relay) : Relaying :=
  let counters := (s.handler.path.request .relay req data).2.flatMap ControlEffect.counters
  (s.inHandler (.controlOut req data)).map fun r => (r.1.count counters, r.2)

def packet (path : RelayPath) (data : List UInt8) (s : Relay) : Relay × List RelayEffect :=
  match (s.queues path).trySend (Packet.new data) with
  | some q =>
    (({ s with queues := Function.update s.queues path q } : Relay).count path.receivedBy,
      [.received path data true])
  | none => (s.count (path.receivedBy ++ [.dropped]), [.received path data false])

/-- What a packet's transfer puts on the bus: `forward_in` of the device keeps the framing,
and so does `forward_out`. -/
def transfer (writeTransfer : WriteTransfer) (packet : Packet) (path : RelayPath) :
    List (List UInt8) :=
  if path.fromBackend then forwardReport .relay writeTransfer packet else [packet.bytes]

/-- `forward_out` stops at a failed transfer. -/
def stopped (path : RelayPath) (s : Relay) : Relay :=
  match s.session with
  | some (.forwarding f) =>
    if path.fromBackend then s
    else s.goOn { f with tasks := Function.update f.tasks path .stopped }
  | some .probing | none => s

def sent (writeTransfer : WriteTransfer) (path : RelayPath) (ok : Bool) (s : Relay) : Relaying :=
  match s.sending path with
  | none => none
  | some packet =>
    let t := { s with sending := Function.update s.sending path none }
    if ok then
      some (t.count [path.handedBy], (transfer writeTransfer packet path).map (.handed path))
    else some (t.stopped path, [.lost path packet.bytes])

/-- The relay is dropped, and the transfers to DriveHub with it. -/
def detach (s : Relay) : Relaying :=
  (s.inHandler (.signer (.detach backend))).map fun r =>
    ({ r.1 with
        session := none
        sending := fun path => if path.fromBackend then r.1.sending path else none },
      r.2 ++ [RelayPath.if0Out, .ffbOut].flatMap fun path =>
        ((s.sending path).map fun packet => RelayEffect.lost path packet.bytes).toList)

/-- A request waits while the signer is busy, and a command while one is repeated. -/
def ep0Control (f : Forwarding) (s : Relay) : Relaying :=
  match s.handler.auth.signers backend, f.repeating, s.handler.path.queue.items with
  | some .receive, none, msg :: _ =>
    (s.inHandler .take).map fun r =>
      (r.1.goOn { f with
        repeating := some (decide (msg.request = hidSetReport ∧ msg.index = ifHidpp)) }, r.2)
  | _, _, _ => none

def step (writeTransfer : WriteTransfer) (s : Relay) : RelayAct → Relaying
  | .elapse ms =>
    (s.inHandler (.elapse ms)).map fun r => ({ r.1 with now := s.now + ms }, r.2)
  | .attach =>
    match s.session with
    | none =>
      (s.inHandler (.signer (.attach backend))).map fun r =>
        ({ r.1 with session := some .probing }, r.2)
    | some _ => none
  | .detach =>
    match s.session with
    | none => none
    | some .probing => s.detach
    -- A line of `log_stats` is taken in one go.
    | some (.forwarding f) => if f.line = [] then s.detach else none
  | .start =>
    match s.session, s.handler.auth.signers backend with
    | some .probing, some .receive =>
      some ({ s with
        ready := true
        session := some (.forwarding ⟨fun _ => .request, none, s.now + relayStatsInterval, []⟩) },
        [])
    | _, _ => none
  | .build => if s.ready ∧ ¬ s.built then some ({ s with built := true }, []) else none
  | .controlIn req => if s.built then s.inHandler (.controlIn req) else none
  | .controlOut req data => if s.built then s.controlOut req data else none
  | .send => s.inHandler .send
  | .ep0Command => s.forwarded fun f s =>
    if f.repeating = none then s.inHandler (.signer (.receive backend)) else none
  | .ep0Reply r => s.inHandler (.signer (.reply backend r))
  | .ep0Timer => s.inHandler (.signer (.timer backend))
  | .ep0Control => s.forwarded ep0Control
  | .ep0Done ok => s.forwarded fun f s =>
    f.repeating.map fun (hidpp : Bool) =>
      ((s.goOn { f with repeating := none }).count
        (if ok ∧ hidpp then [.hidppWritten] else []), [.repeated hidpp ok])
  | .packet path data =>
    if s.reading path ∧ data.length ≤ maxPacket then some (s.packet path data) else none
  | .pollError path e => s.forwarded fun f s =>
    if path.fromBackend ∧ f.tasks path = .request then
      some (s.goOn { f with tasks := Function.update f.tasks path (keepPolling e s.now) }, [])
    else none
  | .pollTimer path => s.forwarded fun f s =>
    match f.tasks path with
    | .backoff wake =>
      if s.now < wake then none
      else some (s.goOn { f with tasks := Function.update f.tasks path .request }, [])
    | .request | .stopped => none
  | .take path =>
    if s.writing path ∧ s.sending path = none then
      (s.queues path).receive.map fun r =>
        ({ s with
          queues := Function.update s.queues path r.2
          sending := Function.update s.sending path (some r.1) }, [])
    else none
  | .sent path ok => s.sent writeTransfer path ok
  | .statsTick => s.forwarded fun f s =>
    if f.tick ≤ s.now ∧ f.line = [] then
      some (s.goOn { f with tick := f.tick + relayStatsInterval, line := relayStatsLine }, [])
    else none
  | .statsTake => s.forwarded fun f s =>
    match f.line with
    | [] => none
    | c :: rest =>
      -- `swap(0)`
      some (({ s with counts := Function.update s.counts c 0 } : Relay).goOn
        { f with line := rest }, [.logged c (s.counts c)])

/-- The packets in the relay, oldest first. -/
def held (s : Relay) (path : RelayPath) : List (List UInt8) :=
  ((s.sending path).toList ++ (s.queues path).items).map Packet.bytes

end Relay

/-- The relay, whose device writes to its IN endpoints by `writeTransfer`. -/
def relay (writeTransfer : WriteTransfer) : Machine Relay RelayAct RelayEffect :=
  ⟨Relay.step writeTransfer⟩

end WheelBridge
