import WheelBridge.LogText
import WheelBridge.Throttle

/-!
The logs that are throttled: the force feedback streams, of which every mode or setting
command is logged and the force stream sampled, and the errors of the hub.
-/
namespace WheelBridge

def ffbLogInterval : ℕ := 2000
def errorLogInterval : ℕ := 5000

/-- A packet of a force stream: `01 00 00 00 <cmd> ...` with command 01 to the wheel, 02 back,
or no such report at all. -/
def streams (packet : List UInt8) : Bool :=
  packet.head? ≠ some 0x01 || packet[4]? = some 0x01 || packet[4]? = some 0x02

/-- `Sampler::log`, for one direction. -/
def sampler : Machine Throttled (ThrottleAct (List UInt8)) (ThrottleEffect (List UInt8)) :=
  throttled ffbLogInterval fun packet => !streams packet

/-- The log of the hub's errors in `events`; its lines count the error itself, too. -/
def hubErrors {ε : Type*} : Machine Throttled (ThrottleAct ε) (ThrottleEffect ε) :=
  throttled errorLogInterval fun _ => false

/-- The line of a packet that is logged, at the time it is. -/
def sampleLine (what : List UInt8) : ThrottleEffect (List UInt8) →
    Option (UartLog.LineBuf UartLog.lineLen)
  | .line now packet skipped => UartLog.formatLine now (UartLog.samplePieces what packet skipped)
  | .passed _ _ => none

def readLine (l : UartLog.LineBuf UartLog.lineLen) : Option (List UInt8) :=
  UartLog.readPacket l.bytes

/-- The lines that a run wrote, read back. -/
def readSamples (what : List UInt8) (es : List (ThrottleEffect (List UInt8))) :
    List (List UInt8) :=
  (es.filterMap (sampleLine what)).filterMap readLine

/-- Times and packets as they are. -/
def ThrottleEffect.Fits : ThrottleEffect (List UInt8) → Prop
  | .line now packet _ | .passed now packet => now < 2 ^ 64 ∧ packet.length ≤ maxPacket

instance (e : ThrottleEffect (List UInt8)) : Decidable e.Fits :=
  match e with
  | .line _ _ _ | .passed _ _ => inferInstanceAs (Decidable (_ ∧ _))

/-- The lines give back the packets that were logged. -/
theorem readSamples_eq {what : List UInt8} (hwhat : 0x5b ∉ what) (hshort : what.length ≤ maxPacket)
    {es : List (ThrottleEffect (List UInt8))} (hes : ∀ e ∈ es, e.Fits) :
    readSamples what es = es.filterMap ThrottleEffect.logged := by
  induction es with
  | nil => rfl
  | cons e es ih =>
    have ih := ih fun e' he' => hes e' (List.mem_cons_of_mem e he')
    unfold readSamples at ih ⊢
    have hfits := hes e (List.mem_cons_self ..)
    cases e with
    | line now packet skipped =>
      obtain ⟨l, hl, hread⟩ := UartLog.sample_read_back hfits.1 hwhat hshort hfits.2 skipped
      have hline : sampleLine what (.line now packet skipped) = some l := hl
      have hpacket : readLine l = some packet := hread
      rw [List.filterMap_cons_some hline, List.filterMap_cons_some hpacket, ih]
      rfl
    | passed now packet =>
      have hline : sampleLine what (.passed now packet) = none := rfl
      rw [List.filterMap_cons_none hline, ih]
      rfl

/-- A command, forces a millisecond apart, and a force after 2 s. -/
def forceStream : List (ThrottleAct (List UInt8)) :=
  [.event [0x01, 0, 0, 0, 0x05, 0x01], .elapse 1, .event [0x01, 0, 0, 0, 0x01, 0x07], .elapse 1,
    .event [0x01, 0, 0, 0, 0x01, 0x08], .elapse 1998, .event [0x01, 0, 0, 0, 0x01, 0x09]]

/-- The errors of the hub that the lines say happened, with those since, are all there were. -/
theorem hub_errors_counted {ε : Type*} {as : List (ThrottleAct ε)} {s : Throttled}
    {es : List (ThrottleEffect ε)} (h : hubErrors.run Throttled.init as = some (s, es)) :
    (es.foldl Gauge.watch Gauge.zero).told + s.throttle.pending = UInt32.ofNat es.length :=
  told_run h

end WheelBridge
