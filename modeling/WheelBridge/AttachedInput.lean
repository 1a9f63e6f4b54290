import WheelBridge.BridgeSteps

/-!
Which wheel's input the console is given. The latest report is kept in a cell that
outlives the session it came from, so a session that has delivered nothing yet shows
what the wheel before it sent last.
-/
namespace WheelBridge

/-- The latest whole IF0 report of any session, and whether it is the latest session's. -/
structure LatestInput where
  latest : Option (Bytes c272Len)
  current : Bool

namespace LatestInput

def init : LatestInput := ⟨none, false⟩

def watch (m : LatestInput) : BridgeEffect → LatestInput
  | .attached => { m with current := false }
  | .wheelInput report => ⟨some report, true⟩
  | _ => m

/-- What the cell holds. -/
def shown (m : LatestInput) : Bytes c269Len :=
  match m.latest with
  | none => InputMap.neutral
  | some report => InputMap.translate report

/-- What belongs to the wheel: its latest report, or the neutral one before its first. -/
def due (m : LatestInput) : Bytes c269Len :=
  if m.current then m.shown else InputMap.neutral

end LatestInput

/-- Every report read for the console belongs to the wheel. -/
def GivesDue (m : LatestInput) : BridgeEffect → Prop
  | .inputGiven report => report = m.due
  | _ => True

/-- The console reads only after a report of the session, or where the last report of the
wheel before translates to the neutral one. -/
def ReadsFresh (m : LatestInput) : BridgeEffect → Prop
  | .inputGiven _ => m.current = true ∨ m.shown = InputMap.neutral
  | _ => True

instance (m : LatestInput) (e : BridgeEffect) : Decidable (GivesDue m e) :=
  match e with
  | .inputGiven report => inferInstanceAs (Decidable (report = m.due))
  | .pullup _ | .linked _ | .queued _ | .took _ | .cleared | .wheelInput _ | .attached
  | .detached | .request _ | .message _ _ | .returned _ _ | .repeated _ | .revLights _
  | .ffbWrite _ | .clearHalt _ | .haltCleared _ | .recoverAsked | .toggleReset =>
    isTrue trivial

/-- The cell holds the latest report, of whatever session. -/
theorem shown_step {s t : Bridge} {m : LatestInput} {es : List BridgeEffect}
    (h : s.input = m.shown) (hstep : Moved s t es) :
    t.input = (es.foldl LatestInput.watch m).shown := by
  cases hstep with
  | input => rfl
  | message p packet =>
    obtain ⟨q, n, heq⟩ := s.hidppMessage_eq packet
    rw [heq]
    exact h
  | _ => exact h

theorem step_gives_due_iff {s t : Bridge} {m : LatestInput} {es : List BridgeEffect}
    (h : s.input = m.shown) (hstep : Moved s t es) :
    Each LatestInput.watch GivesDue m es ↔ Each LatestInput.watch ReadsFresh m es := by
  cases hstep with
  | gaveInput =>
    simp only [Each.cons_iff, Each.nil, and_true, GivesDue, ReadsFresh, h, LatestInput.due]
    cases m.current <;> simp
  | _ => exact Iff.rfl

/-- In every run, every input report read for the console belongs to the wheel if and only
if no read before a session's first report finds another than the neutral one left over. -/
theorem gives_due_iff (as : List BridgeAct) :
    bridge.Along LatestInput.watch (fun _ m es _ => Each LatestInput.watch GivesDue m es)
        Bridge.init LatestInput.init as ↔
      bridge.Along LatestInput.watch (fun _ m es _ => Each LatestInput.watch ReadsFresh m es)
        Bridge.init LatestInput.init as := by
  apply Machine.along_iff (fun s m => s.input = m.shown)
  · intro s m a es t h hstep _
    exact shown_step h (moved hstep)
  · intro s m a es t h hstep
    exact step_gives_due_iff h (moved hstep)
  · rfl

/-- A report with every button of byte 1 held. -/
def heldReport : List UInt8 := [0x08, 0xff] ++ List.replicate 28 0x00

/-- Buttons are held when the wheel goes away; it comes back and sends no report yet. -/
def heldRun : List BridgeAct :=
  wakeUp 0x03 ++ [.follow, .inputReply (.ok heldReport), .giveInput, .detach, .follow,
    .elapse minDetach, .followTimer] ++ wakeUp 0x03 ++ [.follow, .giveInput]

theorem held_buttons_given_again :
    (bridge.run Bridge.init heldRun).isSome = true ∧
      ¬ bridge.Along LatestInput.watch (fun _ m es _ => Each LatestInput.watch GivesDue m es)
        Bridge.init LatestInput.init heldRun := by
  decide +kernel

end WheelBridge
