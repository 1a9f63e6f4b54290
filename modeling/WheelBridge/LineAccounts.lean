import WheelBridge.BridgeLines

/-!
The books of the wheel role's lines. They balance in every run: what comes in on a line is
refused and counted, taken off in order by the task at its end, cleared at a reconnection, or
held.
-/
namespace WheelBridge

abbrev LineBooks := Conveyor BridgeLine Carried

namespace LineBooks

def enter (m : LineBooks) : LineEffect → LineBooks
  | .arrived line item taken => m.arrive line item taken
  | .left line item received => m.leave line item received

def watch (m : LineBooks) : BridgeEffect ⊕ LineEffect → LineBooks
  | .inl _ => m
  | .inr e => enter m e

/-- What found its line full. -/
def refusals (m : LineBooks) : ℕ :=
  (m.refused .hidppIn).length + (m.refused .ffbIn).length + (m.refused .controlOut).length +
    (m.refused .ffbOut).length + (m.refused .if0Out).length

theorem watch_effects (m : LineBooks) (es : List BridgeEffect) (fs : List LineEffect) :
    (es.map Sum.inl ++ fs.map Sum.inr).foldl watch m = fs.foldl enter m := by
  have hquiet : (es.map Sum.inl).foldl watch m = m := by
    refine foldl_unheeded fun e he => ?_
    obtain ⟨x, -, rfl⟩ := List.mem_map.mp he
    rfl
  rw [List.foldl_append, hquiet, List.foldl_map]
  rfl

theorem refusals_arrive (m : LineBooks) (line : BridgeLine) (item : Carried) (taken : Bool) :
    refusals (m.arrive line item taken) = refusals m + if taken = false then 1 else 0 := by
  unfold refusals
  simp only [Conveyor.length_refused_arrive]
  cases line <;> cases taken <;> simp <;> omega

/-- On a line where nothing is seen to be cleared nothing is. -/
theorem lost_watch {m : LineBooks} {line : BridgeLine} {es : List (BridgeEffect ⊕ LineEffect)}
    (hm : m.lost line = []) (hes : ∀ item, .inr (.left line item false) ∉ es) :
    (es.foldl watch m).lost line = [] := by
  induction es generalizing m with
  | nil => exact hm
  | cons e es ih =>
    refine ih ?_ fun item hitem => hes item (List.mem_cons_of_mem e hitem)
    match e with
    | .inl _ | .inr (.arrived _ _ _) => exact hm
    | .inr (.left l item received) =>
      have hother : ¬ (l = line ∧ received = false) := by
        rintro ⟨rfl, rfl⟩
        exact hes item (List.mem_cons_self ..)
      exact (m.lost_leave l line item received hother).trans hm

/-- The lines are cleared one after the other. -/
def clear (m : LineBooks) (held : BridgeLine → List Carried) (lines : List BridgeLine) :
    LineBooks :=
  lines.foldl (fun m line => m.leaveAll line (held line) false) m

theorem clear_eq (m : LineBooks) (held : BridgeLine → List Carried) (lines : List BridgeLine) :
    (lines.flatMap fun line => (held line).map fun item => LineEffect.left line item false).foldl
      enter m = clear m held lines := by
  induction lines generalizing m with
  | nil => rfl
  | cons line lines ih =>
    rw [List.flatMap_cons, List.foldl_append, List.foldl_map]
    exact ih _

/-- Nothing comes in while the lines are cleared. -/
theorem arrived_clear (m : LineBooks) (held : BridgeLine → List Carried)
    (lines : List BridgeLine) : (clear m held lines).arrived = m.arrived := by
  induction lines generalizing m with
  | nil => rfl
  | cons line lines ih => exact (ih _).trans (m.arrived_leaveAll line (held line) false)

theorem balanced_clear {m : LineBooks} {held now : BridgeLine → List Carried}
    {lines : List BridgeLine} (h : m.Balanced now) (hnow : ∀ line ∈ lines, now line = held line)
    (hlines : lines.Nodup) :
    (clear m held lines).Balanced fun line => if line ∈ lines then [] else now line := by
  induction lines generalizing m now with
  | nil => exact h
  | cons line lines ih =>
    obtain ⟨hnew, hrest⟩ := List.nodup_cons.mp hlines
    have hcleared := h.leaveAll line false
    rw [hnow line (List.mem_cons_self ..)] at hcleared
    have hlater : ∀ l ∈ lines, Function.update now line [] l = held l := by
      intro l hl
      have hne : l ≠ line := by
        rintro rfl
        exact hnew hl
      rw [Function.update_of_ne hne]
      exact hnow l (List.mem_cons_of_mem line hl)
    have hall := ih hcleared hlater hrest
    intro l
    refine (hall l).trans (congrArg (_ ++ ·) ?_)
    by_cases heq : l = line
    · subst heq
      simp
    · simp [heq]

end LineBooks

/-- The books of a run: balanced, with every refusal counted, and no answer to the bridge. -/
structure Accounted (s : Bridge) (m : LineBooks) : Prop where
  balanced : m.Balanced s.held
  dropped : s.dropped = m.refusals
  own : ∀ packet, .inl packet ∈ (m.arrived .hidppIn).map Prod.fst →
    softwareId packet.bytes ≠ bridgeSwid

namespace Accounted

theorem init : Accounted Bridge.init Conveyor.empty where
  balanced line := by cases line <;> rfl
  dropped := rfl
  own packet hpacket := by cases hpacket

/-- What the bridge asked for itself comes in on no line. -/
theorem arrived_own {s : Bridge} {a : BridgeAct} {packet : Packet} {taken : Bool}
    (h : .arrived .hidppIn (.inl packet) taken ∈ s.lineEffects a) :
    softwareId packet.bytes ≠ bridgeSwid := by
  cases brings h with
  | hidpp bytes answers hnot => exact (not_or.mp hnot).2

variable {s t : Bridge} {m : LineBooks} {es : List BridgeEffect} {fs : List LineEffect}

theorem arrive {line : BridgeLine} {item : Carried} {taken : Bool} (h : Accounted s m)
    (hitem : ∀ packet, line = .hidppIn → item = .inl packet →
      softwareId packet.bytes ≠ bridgeSwid) :
    ∀ packet, .inl packet ∈ ((m.arrive line item taken).arrived .hidppIn).map Prod.fst →
      softwareId packet.bytes ≠ bridgeSwid := by
  intro packet hpacket
  by_cases hline : line = .hidppIn
  · subst hline
    simp only [Conveyor.arrive, Function.update_self, List.map_append, List.mem_append] at hpacket
    rcases hpacket with hold | hnew
    · exact h.own packet hold
    · exact hitem packet rfl (List.mem_singleton.mp hnew).symm
  · simp only [Conveyor.arrive, Function.update_of_ne (Ne.symm hline)] at hpacket
    exact h.own packet hpacket

theorem moved (h : Accounted s m) (hmoved : LinesMoved s t es fs)
    (hown : ∀ packet taken, .arrived .hidppIn (.inl packet) taken ∈ fs →
      softwareId packet.bytes ≠ bridgeSwid) : Accounted t (fs.foldl LineBooks.enter m) := by
  cases hmoved with
  | still hes hheld hdropped =>
    exact ⟨hheld ▸ h.balanced, hdropped.trans h.dropped, h.own⟩
  | entered hes line item hheld hdropped =>
    refine ⟨hheld ▸ h.balanced.take line item, ?_, h.arrive ?_⟩
    · rw [hdropped, h.dropped]
      exact (LineBooks.refusals_arrive m line item true).symm
    · rintro packet rfl rfl
      exact hown packet true (List.mem_cons_self ..)
  | refused hes line item hfull hheld hdropped =>
    refine ⟨hheld ▸ h.balanced.refuse line item, ?_, h.arrive ?_⟩
    · rw [hdropped, h.dropped]
      exact (LineBooks.refusals_arrive m line item false).symm
    · rintro packet rfl rfl
      exact hown packet false (List.mem_cons_self ..)
  | left hes line item rest hline hheld hdropped =>
    exact ⟨hheld ▸ h.balanced.leave hline true, hdropped.trans h.dropped, h.own⟩
  | cleared hes hheld hdropped =>
    have hall : ∀ line, line ∈ BridgeLine.all := by
      intro line
      cases line <;> decide
    have hbalanced := LineBooks.balanced_clear h.balanced (fun _ _ => rfl)
      (show BridgeLine.all.Nodup by decide)
    have harrived := LineBooks.arrived_clear m s.held BridgeLine.all
    rw [LineBooks.clear_eq]
    refine ⟨?_, ?_, ?_⟩
    · simp only [hall, if_true] at hbalanced
      exact hheld ▸ hbalanced
    · rw [hdropped, h.dropped]
      unfold LineBooks.refusals Conveyor.refused
      rw [harrived]
    · rw [harrived]
      exact h.own

end Accounted

/-- The bridge's own effects are not on the books. -/
theorem bridgeLines_step {s t : Bridge} {a : BridgeAct} {es : List (BridgeEffect ⊕ LineEffect)} :
    bridgeLines.step s a = some (t, es) ↔ ∃ fs, bridge.step s a = some (t, fs) ∧
      fs.map .inl ++ (s.lineEffects a).map .inr = es := by
  constructor
  · intro h
    obtain ⟨r, hr, heq⟩ := Option.map_eq_some_iff.mp h
    cases heq
    exact ⟨r.2, hr, rfl⟩
  · rintro ⟨fs, hfs, rfl⟩
    exact Option.map_eq_some_iff.mpr ⟨(t, fs), hfs, rfl⟩

theorem accounted_run {as : List BridgeAct} {s : Bridge} {es : List (BridgeEffect ⊕ LineEffect)}
    (h : bridgeLines.run Bridge.init as = some (s, es)) :
    Accounted s (es.foldl LineBooks.watch Conveyor.empty) := by
  refine Machine.run_watched Accounted ?_ Accounted.init h
  intro s m a t es haccounted hstep
  obtain ⟨fs, hfs, rfl⟩ := bridgeLines_step.mp hstep
  rw [LineBooks.watch_effects]
  exact haccounted.moved (linesMoved hfs) fun packet taken hmem => Accounted.arrived_own hmem

/-- Only `follow_wheel` clears anything, when it reconnects. -/
theorem cleared_of_lost {s t : Bridge} {es : List BridgeEffect} {fs : List LineEffect}
    {line : BridgeLine} {item : Carried} (h : LinesMoved s t es fs)
    (hlost : .left line item false ∈ fs) : .cleared ∈ es := by
  cases h with
  | still hes hheld hdropped => cases hlost
  | entered hes l i hheld hdropped => cases List.mem_singleton.mp hlost
  | refused hes l i hfull hheld hdropped => cases List.mem_singleton.mp hlost
  | left hes l i rest hline hheld hdropped => cases List.mem_singleton.mp hlost
  | cleared hes hheld hdropped => exact hes

theorem lost_run {as : List BridgeAct} {s : Bridge} {es : List (BridgeEffect ⊕ LineEffect)}
    (h : bridgeLines.run Bridge.init as = some (s, es)) (hes : .inl .cleared ∉ es)
    (line : BridgeLine) : (es.foldl LineBooks.watch Conveyor.empty).lost line = [] := by
  have hkept : ∀ item, .inr (.left line item false) ∉ es := by
    intro item hitem
    refine hes (Machine.run_effects (fun es => .inr (.left line item false) ∈ es →
      .inl .cleared ∈ es) (fun hmem => by cases hmem) ?_ ?_ h hitem)
    · intro es fs hes hfs hmem
      rcases List.mem_append.mp hmem with hmem | hmem
      · exact List.mem_append_left fs (hes hmem)
      · exact List.mem_append_right es (hfs hmem)
    · intro s a t es hstep hmem
      obtain ⟨fs, hfs, rfl⟩ := bridgeLines_step.mp hstep
      rcases List.mem_append.mp hmem with hmem | hmem
      · obtain ⟨x, -, hx⟩ := List.mem_map.mp hmem
        cases hx
      · obtain ⟨x, hx, heq⟩ := List.mem_map.mp hmem
        cases heq
        exact List.mem_append_left _ (List.mem_map_of_mem (cleared_of_lost (linesMoved hfs) hx))
  exact LineBooks.lost_watch rfl hkept

theorem length_line_le (s : Bridge) (line : BridgeLine) : (s.held line).length ≤ line.cap := by
  cases line with
  | hidppIn => exact Nat.le_trans (Nat.le_of_eq (List.length_map ..)) s.hidppIn.length_le
  | ffbIn => exact Nat.le_trans (Nat.le_of_eq (List.length_map ..)) s.ffbIn.length_le
  | controlOut => exact Nat.le_trans (Nat.le_of_eq (List.length_map ..)) s.controlOut.length_le
  | ffbOut => exact Nat.le_trans (Nat.le_of_eq (List.length_map ..)) s.ffbOut.length_le
  | if0Out => exact Nat.le_trans (Nat.le_of_eq (List.length_map ..)) s.if0Out.length_le

/-- Whatever order the tasks of the wheel role run in: on every line what the task at its end took
off, and then what is still held, is among what came in, unchanged and in order; each packet
that came in was refused, taken or cleared, or is one of the few held; and what was refused on
all lines is what the statistics count as dropped. No answer to the bridge's own requests is
among what is taken for the console. Where the device was never put back on the bus, all that
was not refused is taken or still held. -/
theorem wheel_lines_accounted {as : List BridgeAct} {s : Bridge}
    {es : List (BridgeEffect ⊕ LineEffect)}
    (h : bridgeLines.run Bridge.init as = some (s, es)) :
    let lines := es.foldl LineBooks.watch Conveyor.empty
    (∀ line, (lines.delivered line ++ s.held line).Sublist ((lines.arrived line).map Prod.fst) ∧
      (lines.arrived line).length = (lines.refused line).length +
        (lines.delivered line).length + (lines.lost line).length + (s.held line).length ∧
      (s.held line).length ≤ line.cap ∧
      (.inl .cleared ∉ es →
        judged true (lines.arrived line) = lines.delivered line ++ s.held line)) ∧
    s.dropped = lines.refusals ∧
    ∀ packet, .inl packet ∈ lines.delivered .hidppIn → softwareId packet.bytes ≠ bridgeSwid := by
  have haccounted := accounted_run h
  have hbalanced := haccounted.balanced
  refine ⟨fun line => ⟨hbalanced.delivered_sublist line, hbalanced.count line,
    length_line_le s line, fun hes => ?_⟩, haccounted.dropped, ?_⟩
  · rw [hbalanced line, ← judged_true (lost_run h hes line)]
    rfl
  · intro packet hpacket
    have hamong := (hbalanced.delivered_sublist .hidppIn).subset
      (List.mem_append_left _ hpacket)
    exact haccounted.own packet hamong

/-- The wheel wakes up, sends the console a notification and goes away; of two packets of the
console one is taken and the other cleared when the wheel is back. -/
def wheelTraffic : List BridgeAct :=
  wakeUp 0x03 ++ [.follow, .hidppReply (.ok [0x11, 0xff, 0x08, 0x00]) none, .giveHidpp,
    .ffbPacket [0x01], .ffbPacket [0x02], .ffbTake, .detach, .follow, .elapse 1000, .followTimer] ++
    wakeUp 0x03 ++ [.follow]

theorem wheel_traffic_accounted :
    ∃ s es, bridgeLines.run Bridge.init wheelTraffic = some (s, es) ∧
      s.dropped = (es.foldl LineBooks.watch Conveyor.empty).refusals := by
  have hruns : (bridgeLines.run Bridge.init wheelTraffic).isSome = true := by
    decide +kernel
  obtain ⟨⟨s, es⟩, h⟩ := Option.isSome_iff_exists.mp hruns
  exact ⟨s, es, h, (wheel_lines_accounted h).2.1⟩

end WheelBridge
