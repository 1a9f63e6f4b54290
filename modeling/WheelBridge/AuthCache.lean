import WheelBridge.Device
import Mathlib.Logic.Function.Basic

/-!
The console side of the PS4/PS5 peripheral authentication relay: IF0 feature reports
F0-F3, answered from a cache that the host side fills from a device that can sign.
The console's GET_REPORTs are answered on the spot; until all signature pages are
fetched from the signer the console is told "signing".
-/
namespace WheelBridge.Auth

def idSignature : UInt8 := 0xf1
def idState : UInt8 := 0xf2
def idReset : UInt8 := 0xf3

/-- Report lengths, report ID included. -/
def signatureLen : ℕ := 64
def stateLen : ℕ := 16
def resetLen : ℕ := 8
def nonceLen : ℕ := 64

def lastNoncePage : UInt8 := 4
def noncePages : ℕ := 5
def signaturePages : ℕ := 19

theorem noncePages_pos : 0 < noncePages := by decide

theorem signaturePages_pos : 0 < signaturePages := by decide

/-- F2 byte 2. -/
def stateSigning : UInt8 := 0x10
def stateReady : UInt8 := 0x00

/-- F3 as DriveHub answers it; given to the console until a signer's own F3 has been
read. -/
def defaultReset : Bytes resetLen := Bytes.zero.write [0xf3, 0x00, 0x38, 0x38]

/-- `STATE`: what the console is answered from. -/
structure State where
  /-- The signer's F3 answer. -/
  reset : Bytes resetLen
  nonceId : UInt8
  /-- Signature pages fetched and the signer's final F2 cached. -/
  ready : Bool
  readyState : Bytes stateLen
  signature : Fin signaturePages → Bytes signatureLen
  /-- Next F1 page to hand to the console. -/
  nextPage : ℕ

def State.init : State where
  reset := defaultReset
  nonceId := 0
  ready := false
  readyState := Bytes.zero
  signature := fun _ => Bytes.zero
  nextPage := 0

/-- Console-side events for the host side to act on. -/
inductive Cmd
  /-- The console read F3: reset the signer too. -/
  | reset
  /-- One nonce page (F0 report, ID included). -/
  | nonce (page : Packet)
deriving DecidableEq

/-- `CMD` holds this many commands. -/
def cmdLen : ℕ := 8

/-- GET_REPORT(Feature) for F1/F2/F3: the state after it, the command to send and the
answer. No answer: not an auth report, or nothing to answer with. -/
def getReport (id : UInt8) (s : State) : State × Option Cmd × Option (List UInt8) :=
  if id = idReset then
    ({ s with ready := false, nextPage := 0 }, some .reset, some s.reset.toList)
  else if id = idState then
    let busy := (Bytes.zero : Bytes stateLen).write [idState, s.nonceId, stateSigning]
    (s, none, some (if s.ready then s.readyState.toList else busy.toList))
  else if id = idSignature then
    if h : s.ready ∧ s.nextPage < signaturePages then
      ({ s with nextPage := s.nextPage + 1 }, none, some (s.signature ⟨s.nextPage, h.2⟩).toList)
    else (s, none, none)
  else (s, none, none)

/-- SET_REPORT(Feature) F0, the part under the lock of `STATE`; the page is sent to
the host side afterwards. -/
def setReport (data : List UInt8) (s : State) : State :=
  { s with ready := false, nextPage := 0, nonceId := data[1]?.getD 0 }

/-- The publication that ends `fetch_signature`: the pages and the final F2 under the
console's nonce id. -/
def publish (state : Bytes stateLen) (pages : Fin signaturePages → Bytes signatureLen)
    (s : State) : State :=
  { s with
    signature := fun i => (pages i).set 1 s.nonceId
    readyState := state.set 1 s.nonceId
    nextPage := 0
    ready := true }

/-- Only a GET F3 withdraws the signature and asks for a reset. -/
theorem getReport_other (id : UInt8) (s : State) (h : id ≠ idReset) :
    (getReport id s).1.ready = s.ready ∧ (getReport id s).2.1 = none := by
  unfold getReport
  rw [if_neg h]
  split
  · exact ⟨rfl, rfl⟩
  · split
    · split <;> exact ⟨rfl, rfl⟩
    · exact ⟨rfl, rfl⟩

end WheelBridge.Auth
