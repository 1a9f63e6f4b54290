import WheelBridge.Machine
import WheelBridge.Proxy

/-!
The bridge in the wheel role: the native USB device on one core, the wheel's proxy on
the other, the queues and statics between them. Every step is what one task does
between two awaits; the tasks of a session are polled together, so a task that awaits
a signal finds it before its timeout.
-/
namespace WheelBridge

/-- The device task: waiting for the first wheel, then in `follow_wheel`. -/
inductive Follow
  | boot
  | waiting (attached : Bool)
  /-- Off the bus for `minDetach`. -/
  | sleeping (wake : ℕ)
deriving DecidableEq

/-- The pull-up: whether the console sees a device. -/
def Follow.onBus : Follow → Bool
  | .waiting attached => attached
  | .boot | .sleeping _ => false

structure Bridge where
  now : ℕ
  follow : Follow
  wheelLink : Channel Bool wheelLinkLen
  /-- `INPUT`: the report `input()` reads for the console. -/
  input : Bytes c269Len
  hidppIn : Channel Packet hidppInQueueLen
  ffbIn : Channel Packet queueLen
  controlOut : Channel ControlOut queueLen
  ffbOut : Channel Packet queueLen
  if0Out : Channel Packet queueLen
  /-- `STATS.dropped`. -/
  dropped : ℕ
  ffbRecover : Signal UInt8
  ffbHaltCleared : Signal Bool
  bridgeAnswer : Signal (Bytes 20)
  waking : Bool
  wheelAnswered : Bool
  /-- `LED_FEATURE`. -/
  ledFeature : UInt8
  session : Option Session

def Bridge.init : Bridge where
  now := 0
  follow := .boot
  wheelLink := Channel.empty
  input := InputMap.neutral
  hidppIn := Channel.empty
  ffbIn := Channel.empty
  controlOut := Channel.empty
  ffbOut := Channel.empty
  if0Out := Channel.empty
  dropped := 0
  ffbRecover := none
  ffbHaltCleared := none
  bridgeAnswer := none
  waking := false
  wheelAnswered := false
  ledFeature := 0
  session := none

/-- The queues to the wheel. -/
inductive OutQueue
  | control
  | ffb
  | if0
deriving DecidableEq

/-- How a transfer ends. -/
inductive Reply
  | ok (bytes : List UInt8)
  | error (e : PipeError)
deriving DecidableEq

inductive BridgeAct
  | elapse (ms : ℕ)
  /-- `follow_wheel` takes a value of `WHEEL_LINK`, or its sleep is over. -/
  | follow
  | followTimer
  /-- The device side: a control request, a packet on IF2 OUT, on IF0 OUT. -/
  | controlRequest (req : Request) (data : List UInt8)
  | ffbPacket (data : List UInt8)
  | if0Packet (data : List UInt8)
  /-- `input()` is read for the console: by `control_in` for its answer to a GET_REPORT, or by
  `send_input` for the `ep.write` on IF0 IN that it then awaits, so the console has the report
  once that write completes. -/
  | giveInput
  /-- `forward_in` takes a HID++ message, a force feedback packet off its queue to write it. -/
  | giveHidpp
  | giveFfb
  /-- The wheel is enumerated with its FFB OUT endpoint at `ep`; its proxy is dropped. -/
  | attach (ep : UInt8)
  | detach
  /-- A transfer of an IN task ends, or its pause. A HID++ message may be an answer to
  one of the session's requests, by number; no step reads that. -/
  | inputReply (r : Reply)
  | inputTimer
  | hidppReply (r : Reply) (answers : Option ℕ)
  | hidppTimer
  | ffbInReply (r : Reply)
  | ffbInTimer
  /-- The EP0 task: its transfer ends, its timer fires, its answer is there, `select4`
  ends with a message, a report, a recovery, a tick. -/
  | ep0Done (ok : Bool)
  | ep0Timer
  | ep0Answer
  | ep0Control
  | ep0If0
  | ep0Recover
  | ep0Tick
  /-- The FFB OUT task takes a packet, its transfer ends, the halt is cleared, or the
  wait for it times out. -/
  | ffbTake
  | ffbReply (e : Option PipeError)
  | ffbCleared
  | ffbTimeout
deriving DecidableEq

inductive BridgeEffect
  | pullup (on : Bool)
  /-- `wheel_link` is called. -/
  | linked (attached : Bool)
  | queued (q : OutQueue)
  | took (q : OutQueue)
  /-- `follow_wheel` clears the queues. -/
  | cleared
  /-- What `input()` gave. -/
  | inputGiven (report : Bytes c269Len)
  | wheelInput (report : Bytes c272Len)
  | attached
  | detached
  /-- The bridge sends a HID++ request of its own. -/
  | request (msg : List UInt8)
  /-- The wheel sends a HID++ message. -/
  | message (bytes : List UInt8) (answers : Option ℕ)
  /-- `hidpp_request(msg)` returns. -/
  | returned (msg : List UInt8) (answer : Option (Bytes 20))
  /-- What goes to the wheel for the message taken last. -/
  | repeated (msg : ControlOut)
  | revLights (msg : List UInt8)
  | ffbWrite (report : Bytes maxPacket)
  /-- CLEAR_FEATURE(ENDPOINT_HALT) is sent, and how it ends. -/
  | clearHalt (ep : UInt8)
  | haltCleared (ok : Bool)
  | recoverAsked
  | toggleReset
deriving DecidableEq

abbrev Stepping := Option (Bridge × List BridgeEffect)

namespace Bridge

/-- `wheel_link`: a value that does not fit is dropped. -/
def link (attached : Bool) (s : Bridge) : Bridge :=
  { s with wheelLink := (s.wheelLink.trySend attached).getD s.wheelLink }

/-- `follow_wheel` (at boot, `task`) takes a value of `WHEEL_LINK`. -/
def followStep (s : Bridge) : Stepping :=
  match s.wheelLink.receive with
  | none => none
  | some (link, q) =>
    let s := { s with wheelLink := q }
    match s.follow with
    | .boot =>
      if link then some ({ s with follow := .waiting true }, [.pullup true]) else some (s, [])
    | .waiting attached =>
      if link = attached then some (s, [])
      else if link then
        some ({ s with
          follow := .waiting true
          hidppIn := Channel.empty
          ffbIn := Channel.empty
          ffbOut := Channel.empty
          controlOut := Channel.empty
          if0Out := Channel.empty }, [.cleared, .pullup true])
      else some ({ s with follow := .sleeping (s.now + minDetach) }, [.pullup false])
    | .sleeping _ => none

/-- The device side queues for the wheel; a message that does not fit is counted. -/
def queueControl (msg : ControlOut) (s : Bridge) : Bridge × List BridgeEffect :=
  match s.controlOut.trySend msg with
  | some q => ({ s with controlOut := q }, [.queued .control])
  | none => ({ s with dropped := s.dropped + 1 }, [])

def queueFfb (p : Packet) (s : Bridge) : Bridge × List BridgeEffect :=
  match s.ffbOut.trySend p with
  | some q => ({ s with ffbOut := q }, [.queued .ffb])
  | none => ({ s with dropped := s.dropped + 1 }, [])

def queueIf0 (p : Packet) (s : Bridge) : Bridge × List BridgeEffect :=
  match s.if0Out.trySend p with
  | some q => ({ s with if0Out := q }, [.queued .if0])
  | none => ({ s with dropped := s.dropped + 1 }, [])

/-- The first 20 bytes of a HID++ message. -/
def answerBytes (b : List UInt8) : Bytes 20 := Bytes.zero.write (b.take 20)

/-- The HID++ messages of the wheel: its answers to the bridge are kept from the console. -/
def hidppMessage (packet : Packet) (s : Bridge) : Bridge :=
  let b := packet.bytes
  let swid := softwareId b
  if s.waking ∨ swid = bridgeSwid then
    { s with
      wheelAnswered := s.wheelAnswered || (s.waking && swid ≠ 0)
      bridgeAnswer :=
        if swid = bridgeSwid then s.bridgeAnswer.signal (answerBytes b)
        else s.bridgeAnswer }
  else
    match s.hidppIn.trySend packet with
    | some q => { s with hidppIn := q }
    | none => { s with dropped := s.dropped + 1 }

/-- Put the session's EP0 task at its next await. -/
def atEp0 (p : Session) (e : Ep0) (s : Bridge) : Bridge :=
  { s with session := some { p with ep0 := e } }

def atFfb (p : Session) (f : FfbOut) (s : Bridge) : Bridge :=
  { s with session := some { p with ffbOut := f } }

/-- `hidpp_request` begins. -/
def query (p : Session) (q : Query) (s : Bridge) : Bridge × List BridgeEffect :=
  (({ s with bridgeAnswer := s.bridgeAnswer.reset } : Bridge).atEp0 p (.querySend q),
    [.request q.msg])

/-- `hidpp_request` returns; after the last query the wheel is reported awake. -/
def queryDone (p : Session) (q : Query) (answer : Option (Bytes 20)) (s : Bridge) :
    Bridge × List BridgeEffect :=
  let s := { s with ledFeature := (q.ledIndex answer).getD s.ledFeature }
  match q.next answer with
  | some q' =>
    let (s, es) := s.query p q'
    (s, .returned q.msg answer :: es)
  | none =>
    ((s.link true).atEp0 { p with revLevel := none } (.select (s.now + livenessInterval)),
      [.returned q.msg answer, .linked true])

def ep0Done (p : Session) (ok : Bool) (s : Bridge) : Stepping :=
  match p.ep0 with
  | .setIdle iface =>
    if iface < 2 then some (s.atEp0 p (.setIdle (iface + 1)), [])
    else some (({ s with waking := true, wheelAnswered := false } : Bridge).atEp0 p
      (.ping s.now (s.now + pingInterval)), [.request ping])
  | .ping start tick => some (s.atEp0 p (.pingTick start tick), [])
  | .querySend q =>
    if ok then some (s.atEp0 p (.queryWait q (s.now + featureQueryTimeout)), [])
    else some (s.queryDone p q none)
  | .control tick | .revLights tick | .getStatus tick => some (s.atEp0 p (.select tick), [])
  | .clearHalt _ tick =>
    some (({ s with ffbHaltCleared := s.ffbHaltCleared.signal ok } : Bridge).atEp0 p
      (.select tick), [.haltCleared ok])
  | .pingTick _ _ | .lastAnswers _ | .queryWait _ _ | .select _ => none

def ep0Timer (p : Session) (s : Bridge) : Stepping :=
  match p.ep0 with
  | .pingTick start tick =>
    if s.now < tick then none
    else if s.wheelAnswered ∨ pingTimeout ≤ s.now - start then
      some (s.atEp0 p (.lastAnswers (s.now + lastAnswersTime)), [])
    else some (s.atEp0 p (.ping start (tick + pingInterval)), [.request ping])
  | .lastAnswers wake =>
    if s.now < wake then none
    else some (({ s with waking := false } : Bridge).query p .featureSet)
  | .queryWait q deadline =>
    if s.now < deadline ∨ s.bridgeAnswer ≠ none then none else some (s.queryDone p q none)
  | _ => none

def ep0Answer (p : Session) (s : Bridge) : Stepping :=
  match p.ep0, s.bridgeAnswer with
  | .queryWait q _, some a =>
    some (({ s with bridgeAnswer := none } : Bridge).queryDone p q
      (if a.byte 2 = 0xff then none else some a))
  | _, _ => none

/-- `select4` ends. Its branches are polled in order, but the queues are filled by the
other core meanwhile, so any branch that is ready may be the one. -/
def ep0Control (p : Session) (s : Bridge) : Stepping :=
  match p.ep0, s.controlOut.receive with
  | .select tick, some (msg, q) =>
    some (({ s with controlOut := q } : Bridge).atEp0 p (.control tick),
      [.took .control, .repeated msg])
  | _, _ => none

def ep0If0 (p : Session) (s : Bridge) : Stepping :=
  match p.ep0, s.if0Out.receive with
  | .select tick, some (report, q) =>
    let s := { s with if0Out := q }
    match revCommand report.bytes s.ledFeature p.revLevel with
    | none => some (s.atEp0 p (.select tick), [.took .if0])
    | some (lit, msg) =>
      some (s.atEp0 { p with revLevel := some lit } (.revLights tick),
        [.took .if0, .revLights msg])
  | _, _ => none

def ep0Recover (p : Session) (s : Bridge) : Stepping :=
  match p.ep0, s.ffbRecover with
  | .select tick, some ep =>
    some (({ s with ffbRecover := none } : Bridge).atEp0 p (.clearHalt ep tick), [.clearHalt ep])
  | _, _ => none

def ep0Tick (p : Session) (s : Bridge) : Stepping :=
  match p.ep0 with
  | .select tick =>
    if s.now < tick then none else some (s.atEp0 p (.getStatus (tick + livenessInterval)), [])
  | _ => none

def ffbTake (p : Session) (s : Bridge) : Stepping :=
  match p.ffbOut, s.ffbOut.receive with
  | .receive, some (packet, q) =>
    some (({ s with ffbOut := q } : Bridge).atFfb p .write,
      [.took .ffb, .ffbWrite (ffbReport packet)])
  | _, _ => none

/-- `recover_ffb` begins. -/
def recoverFfb (p : Session) (s : Bridge) : Bridge × List BridgeEffect :=
  (({ s.link false with
      ffbHaltCleared := s.ffbHaltCleared.reset
      ffbRecover := s.ffbRecover.signal p.ffbEp } : Bridge).atFfb
    { p with lastRecovery := some s.now } (.recover (s.now + ffbRecoveryTimeout)),
    [.linked false, .recoverAsked])

def ffbReply (p : Session) (e : Option PipeError) (s : Bridge) : Stepping :=
  match p.ffbOut, e with
  | .write, none => some (s.atFfb p .receive, [])
  | .write, some e =>
    let due := p.lastRecovery.all fun t => ffbRecoveryInterval ≤ s.now - t
    if e.gone then some (s.atFfb p .stopped, [])
    else if e = .stall ∧ due = true then some (s.recoverFfb p)
    else some (s.atFfb p .receive, [])
  | _, _ => none

def ffbCleared (p : Session) (s : Bridge) : Stepping :=
  match p.ffbOut, s.ffbHaltCleared with
  | .recover _, some cleared =>
    some ((({ s with ffbHaltCleared := none } : Bridge).link true).atFfb p .receive,
      if cleared then [.toggleReset, .linked true] else [.linked true])
  | _, _ => none

def ffbTimeout (p : Session) (s : Bridge) : Stepping :=
  match p.ffbOut with
  | .recover deadline =>
    if s.now < deadline ∨ s.ffbHaltCleared ≠ none then none
    else some ((s.link true).atFfb p .receive, [.linked true])
  | _ => none

/-- A task of the session runs, if there is one. -/
def inSession (f : Session → Bridge → Stepping) (s : Bridge) : Stepping :=
  match s.session with
  | none => none
  | some p => f p s

theorem inSession_eq_some {f : Session → Bridge → Stepping} {s : Bridge}
    {r : Bridge × List BridgeEffect} :
    s.inSession f = some r ↔ ∃ p, s.session = some p ∧ f p s = some r := by
  unfold inSession
  cases s.session with
  | none => simp
  | some p => simp

/-- Polling of an IN endpoint goes on. -/
def inTimer (t : InTask) (now : ℕ) : Option InTask :=
  match t with
  | .backoff wake => if now < wake then none else some .request
  | .request | .stopped => none

def inputReply (r : Reply) (p : Session) (s : Bridge) : Stepping :=
  match p.inputTask, r with
  | .request, .ok bytes =>
    if h : bytes.length = c272Len then
      some ({ s with input := InputMap.translate ⟨bytes, h⟩ }, [.wheelInput ⟨bytes, h⟩])
    else some (s, [])
  | .request, .error e =>
    some ({ s with session := some { p with inputTask := keepPolling e s.now } }, [])
  | _, _ => none

def hidppReply (r : Reply) (answers : Option ℕ) (p : Session) (s : Bridge) : Stepping :=
  match p.hidppTask, r with
  | .request, .ok bytes =>
    let packet := Packet.new bytes
    some (s.hidppMessage packet, [.message packet.bytes answers])
  | .request, .error e =>
    some ({ s with session := some { p with hidppTask := keepPolling e s.now } }, [])
  | _, _ => none

def ffbInReply (r : Reply) (p : Session) (s : Bridge) : Stepping :=
  match p.ffbInTask, r with
  | .request, .ok bytes =>
    match s.ffbIn.trySend (Packet.new bytes) with
    | some q => some ({ s with ffbIn := q }, [])
    | none => some ({ s with dropped := s.dropped + 1 }, [])
  | .request, .error e =>
    some ({ s with session := some { p with ffbInTask := keepPolling e s.now } }, [])
  | _, _ => none

/-- The console's requests and packets reach the device side once it has been built. -/
def built (s : Bridge) : Bool := s.follow ≠ .boot

def step (s : Bridge) : BridgeAct → Stepping
  | .elapse ms => some ({ s with now := s.now + ms }, [])
  | .follow => s.followStep
  | .followTimer =>
    match s.follow with
    | .sleeping wake =>
      if s.now < wake then none else some ({ s with follow := .waiting false }, [])
    | .boot | .waiting _ => none
  | .controlRequest req data =>
    if s.built then
      match WheelBridge.controlOut .wheel req data with
      | .queue msg => some (s.queueControl msg)
      | .none | .nonce | .accepted | .rejected => some (s, [])
    else none
  | .ffbPacket data => if s.built then some (s.queueFfb (Packet.new data)) else none
  | .if0Packet data => if s.built then some (s.queueIf0 (Packet.new data)) else none
  | .giveInput => if s.built then some (s, [.inputGiven s.input]) else none
  | .giveHidpp =>
    if s.built then s.hidppIn.receive.map fun r => ({ s with hidppIn := r.2 }, []) else none
  | .giveFfb =>
    if s.built then s.ffbIn.receive.map fun r => ({ s with ffbIn := r.2 }, []) else none
  | .attach ep =>
    match s.session with
    | none => some ({ s with session := some (Session.start ep) }, [.attached])
    | some _ => none
  | .detach => s.inSession fun _ s =>
    some ({ s.link false with session := none }, [.detached, .linked false])
  | .inputReply r => s.inSession (inputReply r)
  | .inputTimer => s.inSession fun p s => (inTimer p.inputTask s.now).map fun t =>
    ({ s with session := some { p with inputTask := t } }, [])
  | .hidppReply r answers => s.inSession (hidppReply r answers)
  | .hidppTimer => s.inSession fun p s => (inTimer p.hidppTask s.now).map fun t =>
    ({ s with session := some { p with hidppTask := t } }, [])
  | .ffbInReply r => s.inSession (ffbInReply r)
  | .ffbInTimer => s.inSession fun p s => (inTimer p.ffbInTask s.now).map fun t =>
    ({ s with session := some { p with ffbInTask := t } }, [])
  | .ep0Done ok => s.inSession fun p s => s.ep0Done p ok
  | .ep0Timer => s.inSession fun p s => s.ep0Timer p
  | .ep0Answer => s.inSession fun p s => s.ep0Answer p
  | .ep0Control => s.inSession fun p s => s.ep0Control p
  | .ep0If0 => s.inSession fun p s => s.ep0If0 p
  | .ep0Recover => s.inSession fun p s => s.ep0Recover p
  | .ep0Tick => s.inSession fun p s => s.ep0Tick p
  | .ffbTake => s.inSession fun p s => s.ffbTake p
  | .ffbReply e => s.inSession fun p s => s.ffbReply p e
  | .ffbCleared => s.inSession fun p s => s.ffbCleared p
  | .ffbTimeout => s.inSession fun p s => s.ffbTimeout p

end Bridge

def bridge : Machine Bridge BridgeAct BridgeEffect := ⟨Bridge.step⟩

end WheelBridge
