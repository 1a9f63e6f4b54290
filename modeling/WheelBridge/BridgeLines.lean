import WheelBridge.BridgeSteps
import WheelBridge.Conveyor
import WheelBridge.Refinement

/-!
The queues of the wheel role between the console and the wheel: what comes in on each, what
its task takes off it and what a reconnection clears. What becomes of a packet once it is
taken (an IF0 report that is ignored, a transfer that fails) is no matter of the queues.
Answers to the bridge's own requests are on none of them.
-/
namespace WheelBridge

/-- The queues, each by its static. -/
inductive BridgeLine
  /-- From the wheel. -/
  | hidppIn
  | ffbIn
  /-- To the wheel. -/
  | controlOut
  | ffbOut
  | if0Out
deriving DecidableEq

namespace BridgeLine

def all : List BridgeLine := [.hidppIn, .ffbIn, .controlOut, .ffbOut, .if0Out]

def cap : BridgeLine → ℕ
  | .hidppIn => hidppInQueueLen
  | .ffbIn | .controlOut | .ffbOut | .if0Out => queueLen

end BridgeLine

/-- A packet, or a class request. -/
abbrev Carried := Packet ⊕ ControlOut

inductive LineEffect
  /-- Whether there is room for what comes in. -/
  | arrived (line : BridgeLine) (item : Carried) (taken : Bool)
  /-- Whether the task at its end takes it, or it is cleared. -/
  | left (line : BridgeLine) (item : Carried) (received : Bool)
deriving DecidableEq

namespace Bridge

def held (s : Bridge) : BridgeLine → List Carried
  | .hidppIn => s.hidppIn.items.map .inl
  | .ffbIn => s.ffbIn.items.map .inl
  | .controlOut => s.controlOut.items.map .inr
  | .ffbOut => s.ffbOut.items.map .inl
  | .if0Out => s.if0Out.items.map .inl

/-- `try_send`. -/
def offered (s : Bridge) (line : BridgeLine) (item : Carried) : LineEffect :=
  .arrived line item (decide ((s.held line).length < line.cap))

/-- `receive` of the task at the line's end. -/
def taken (s : Bridge) (line : BridgeLine) : List LineEffect :=
  ((s.held line).head?.map fun item => .left line item true).toList

/-- `follow_wheel` puts the device back on the bus. -/
def reconnects (s : Bridge) : Bool :=
  s.follow = .waiting false && s.wheelLink.items.head? = some true

/-- What a step puts on the lines, takes off them or clears. -/
def lineEffects (s : Bridge) : BridgeAct → List LineEffect
  | .hidppReply (.ok bytes) _ =>
    let packet := Packet.new bytes
    if s.waking ∨ softwareId packet.bytes = bridgeSwid then []
    else [s.offered .hidppIn (.inl packet)]
  | .ffbInReply (.ok bytes) => [s.offered .ffbIn (.inl (Packet.new bytes))]
  | .controlRequest req data =>
    match WheelBridge.controlOut .wheel req data with
    | .queue msg => [s.offered .controlOut (.inr msg)]
    | .none | .nonce | .accepted | .rejected => []
  | .ffbPacket data => [s.offered .ffbOut (.inl (Packet.new data))]
  | .if0Packet data => [s.offered .if0Out (.inl (Packet.new data))]
  | .giveHidpp => s.taken .hidppIn
  | .giveFfb => s.taken .ffbIn
  | .ep0Control => s.taken .controlOut
  | .ffbTake => s.taken .ffbOut
  | .ep0If0 => s.taken .if0Out
  | .follow =>
    if s.reconnects then
      BridgeLine.all.flatMap fun line => (s.held line).map fun item => .left line item false
    else []
  | _ => []

end Bridge

/-- The bridge, with what its steps move on the lines. -/
def bridgeLines : Machine Bridge BridgeAct (BridgeEffect ⊕ LineEffect) where
  step s a :=
    (bridge.step s a).map fun r => (r.1, r.2.map .inl ++ (s.lineEffects a).map .inr)

/-- What brings an item in on a line. -/
inductive Brings (s : Bridge) : BridgeAct → BridgeLine → Carried → Prop
  | hidpp (bytes : List UInt8) (answers : Option ℕ)
      (hnot : ¬ (s.waking = true ∨ softwareId (Packet.new bytes).bytes = bridgeSwid)) :
      Brings s (.hidppReply (.ok bytes) answers) .hidppIn (.inl (Packet.new bytes))
  | ffbIn (bytes : List UInt8) : Brings s (.ffbInReply (.ok bytes)) .ffbIn (.inl (Packet.new bytes))
  | control (req : Request) (data : List UInt8) (msg : ControlOut)
      (hout : WheelBridge.controlOut .wheel req data = .queue msg) :
      Brings s (.controlRequest req data) .controlOut (.inr msg)
  | ffbOut (data : List UInt8) : Brings s (.ffbPacket data) .ffbOut (.inl (Packet.new data))
  | if0Out (data : List UInt8) : Brings s (.if0Packet data) .if0Out (.inl (Packet.new data))

theorem brings {s : Bridge} {a : BridgeAct} {line : BridgeLine} {item : Carried} {taken : Bool}
    (h : .arrived line item taken ∈ s.lineEffects a) : Brings s a line item := by
  have htaken : ∀ l, .arrived line item taken ∉ s.taken l := by
    intro l hmem
    obtain ⟨x, -, heq⟩ := Option.map_eq_some_iff.mp (Option.mem_toList.mp hmem)
    cases heq
  cases a with
  | hidppReply r answers =>
    cases r with
    | ok bytes =>
      simp only [Bridge.lineEffects] at h
      split at h
      · cases h
      · next hnot =>
        cases List.mem_singleton.mp h
        exact .hidpp bytes answers hnot
    | error e => cases h
  | ffbInReply r =>
    cases r with
    | ok bytes =>
      cases List.mem_singleton.mp h
      exact .ffbIn bytes
    | error e => cases h
  | controlRequest req data =>
    simp only [Bridge.lineEffects] at h
    split at h
    · next msg hout =>
      cases List.mem_singleton.mp h
      exact .control req data msg hout
    all_goals cases h
  | ffbPacket data =>
    cases List.mem_singleton.mp h
    exact .ffbOut data
  | if0Packet data =>
    cases List.mem_singleton.mp h
    exact .if0Out data
  | giveHidpp | giveFfb | ep0Control | ffbTake | ep0If0 => exact absurd h (htaken _)
  | follow =>
    simp only [Bridge.lineEffects] at h
    split at h
    · obtain ⟨l, -, hl⟩ := List.mem_flatMap.mp h
      obtain ⟨x, -, heq⟩ := List.mem_map.mp hl
      cases heq
    · cases h
  | _ => cases h

/-- What becomes of the lines in a step. -/
inductive LinesMoved (s t : Bridge) : List BridgeEffect → List LineEffect → Prop
  | still (es : List BridgeEffect) (hes : .cleared ∉ es) (hheld : t.held = s.held)
      (hdropped : t.dropped = s.dropped) : LinesMoved s t es []
  | entered (es : List BridgeEffect) (hes : .cleared ∉ es) (line : BridgeLine) (item : Carried)
      (hheld : t.held = Function.update s.held line (s.held line ++ [item]))
      (hdropped : t.dropped = s.dropped) : LinesMoved s t es [.arrived line item true]
  | refused (es : List BridgeEffect) (hes : .cleared ∉ es) (line : BridgeLine) (item : Carried)
      (hfull : (s.held line).length = line.cap) (hheld : t.held = s.held)
      (hdropped : t.dropped = s.dropped + 1) : LinesMoved s t es [.arrived line item false]
  | left (es : List BridgeEffect) (hes : .cleared ∉ es) (line : BridgeLine) (item : Carried)
      (rest : List Carried) (hline : s.held line = item :: rest)
      (hheld : t.held = Function.update s.held line rest) (hdropped : t.dropped = s.dropped) :
      LinesMoved s t es [.left line item true]
  | cleared (es : List BridgeEffect) (hes : .cleared ∈ es) (hheld : t.held = fun _ => [])
      (hdropped : t.dropped = s.dropped) :
      LinesMoved s t es
        (BridgeLine.all.flatMap fun line => (s.held line).map fun item => .left line item false)

namespace LinesMoved

variable {s t : Bridge} {p : Session} {a : BridgeAct} {es : List BridgeEffect}

section Channels

variable {α : Type*} {cap : ℕ} {line : BridgeLine} {item : Carried} {q q' : Channel α cap}

/-- What is sent into the channel of a line. -/
theorem sent {f : α → Carried} {x : α} (hcap : line.cap = cap)
    (hline : s.held line = q.items.map f) (hq : q.trySend x = some q')
    (hheld : t.held = Function.update s.held line (q'.items.map f))
    (hes : .cleared ∉ es) (hdropped : t.dropped = s.dropped) :
    LinesMoved s t es [s.offered line (f x)] := by
  obtain ⟨hroom, hitems⟩ := Channel.trySend_eq_some.mp hq
  have hfits : (s.held line).length < line.cap := by
    rw [hline, List.length_map, hcap]
    exact hroom
  unfold Bridge.offered
  rw [decide_eq_true hfits]
  refine .entered es hes line (f x) ?_ hdropped
  rw [hheld, hitems, List.map_append, ← hline]
  rfl

theorem unsent {f : α → Carried} {x : α} (hcap : line.cap = cap)
    (hline : s.held line = q.items.map f) (hq : q.trySend x = none) (hheld : t.held = s.held)
    (hes : .cleared ∉ es) (hdropped : t.dropped = s.dropped + 1) :
    LinesMoved s t es [s.offered line (f x)] := by
  have hlen := Channel.trySend_eq_none.mp hq
  have hfull : (s.held line).length = line.cap := by
    rw [hline, List.length_map, hcap]
    exact hlen
  unfold Bridge.offered
  rw [decide_eq_false (by omega)]
  exact .refused es hes line (f x) hfull hheld hdropped

/-- What is received from it. -/
theorem received {f : α → Carried} {x : α} (hline : s.held line = q.items.map f)
    (hq : q.receive = some (x, q'))
    (hheld : t.held = Function.update s.held line (q'.items.map f))
    (hes : .cleared ∉ es) (hdropped : t.dropped = s.dropped) :
    LinesMoved s t es (s.taken line) := by
  have hitems : s.held line = f x :: q'.items.map f := by
    rw [hline, Channel.receive_eq_some.mp hq, List.map_cons]
  unfold Bridge.taken
  rw [hitems]
  exact .left es hes line (f x) _ hitems hheld hdropped

end Channels

theorem held_hidppIn (q : Channel Packet hidppInQueueLen) (n : ℕ) :
    ({ s with hidppIn := q, dropped := n } : Bridge).held =
      Function.update s.held .hidppIn (q.items.map .inl) := by
  funext line
  cases line <;> rfl

theorem held_ffbIn (q : Channel Packet queueLen) :
    ({ s with ffbIn := q } : Bridge).held =
      Function.update s.held .ffbIn (q.items.map .inl) := by
  funext line
  cases line <;> rfl

theorem held_controlOut (q : Channel ControlOut queueLen) (x : Option Session) :
    ({ s with controlOut := q, session := x } : Bridge).held =
      Function.update s.held .controlOut (q.items.map .inr) := by
  funext line
  cases line <;> rfl

theorem held_ffbOut (q : Channel Packet queueLen) (x : Option Session) :
    ({ s with ffbOut := q, session := x } : Bridge).held =
      Function.update s.held .ffbOut (q.items.map .inl) := by
  funext line
  cases line <;> rfl

theorem held_if0Out (q : Channel Packet queueLen) (x : Option Session) :
    ({ s with if0Out := q, session := x } : Bridge).held =
      Function.update s.held .if0Out (q.items.map .inl) := by
  funext line
  cases line <;> rfl

theorem reconnects_iff {link : Bool} {q : Channel Bool wheelLinkLen}
    (hq : s.wheelLink.receive = some (link, q)) :
    s.reconnects = true ↔ s.follow = .waiting false ∧ link = true := by
  unfold Bridge.reconnects
  rw [Channel.receive_eq_some.mp hq]
  simp

/-- `follow_wheel` clears the lines when it reconnects, and only then. -/
theorem follow (h : s.followStep = some (t, es)) :
    LinesMoved s t es (s.lineEffects .follow) := by
  unfold Bridge.lineEffects
  dsimp only
  unfold Bridge.followStep at h
  split at h
  · cases h
  · next link q hq =>
    have hlink := reconnects_iff hq
    dsimp only at h
    split at h
    · next hf =>
      have hnot : ¬ s.reconnects = true := by simp [hlink, hf]
      rw [if_neg hnot]
      split at h <;> cases h <;> exact .still _ (by simp) rfl rfl
    · next attached hf =>
      split at h
      · next hsame =>
        have hnot : ¬ s.reconnects = true := by
          rw [hlink, hf, hsame]
          cases attached <;> simp
        rw [if_neg hnot]
        cases h
        exact .still _ (by simp) rfl rfl
      · next hother =>
        split at h <;> cases h
        · next hon =>
          have hreconnects : s.reconnects = true := by
            rw [hlink, hf]
            cases attached <;> simp_all
          rw [if_pos hreconnects]
          refine .cleared _ (List.mem_cons_self ..) ?_ rfl
          funext line
          cases line <;> rfl
        · next hoff =>
          have hnot : ¬ s.reconnects = true := by simp [hlink, hoff]
          rw [if_neg hnot]
          exact .still _ (by simp) rfl rfl
    · cases h

theorem controlRequest {req : Request} {data : List UInt8}
    (h : s.step (.controlRequest req data) = some (t, es)) :
    LinesMoved s t es (s.lineEffects (.controlRequest req data)) := by
  rw [Bridge.step] at h
  unfold Bridge.lineEffects
  dsimp only
  split at h
  · cases hq : WheelBridge.controlOut .wheel req data with
    | queue msg =>
      simp only [hq] at h
      unfold Bridge.queueControl at h
      split at h
      · next q hsent =>
        cases h
        exact sent rfl rfl hsent (held_controlOut q s.session) (by simp) rfl
      · next hfull =>
        cases h
        exact unsent rfl rfl hfull rfl (by simp) rfl
    | none | nonce | accepted | rejected =>
      simp only [hq] at h
      cases h
      exact .still _ (by simp) rfl rfl
  · cases h

theorem ffbPacket {data : List UInt8} (h : s.step (.ffbPacket data) = some (t, es)) :
    LinesMoved s t es (s.lineEffects (.ffbPacket data)) := by
  rw [Bridge.step] at h
  split at h
  · unfold Bridge.queueFfb at h
    split at h
    · next q hsent =>
      cases h
      exact sent rfl rfl hsent (held_ffbOut q s.session) (by simp) rfl
    · next hfull =>
      cases h
      exact unsent rfl rfl hfull rfl (by simp) rfl
  · cases h

theorem if0Packet {data : List UInt8} (h : s.step (.if0Packet data) = some (t, es)) :
    LinesMoved s t es (s.lineEffects (.if0Packet data)) := by
  rw [Bridge.step] at h
  split at h
  · unfold Bridge.queueIf0 at h
    split at h
    · next q hsent =>
      cases h
      exact sent rfl rfl hsent (held_if0Out q s.session) (by simp) rfl
    · next hfull =>
      cases h
      exact unsent rfl rfl hfull rfl (by simp) rfl
  · cases h

theorem giveHidpp (h : s.step .giveHidpp = some (t, es)) :
    LinesMoved s t es (s.lineEffects .giveHidpp) := by
  rw [Bridge.step] at h
  split at h
  · obtain ⟨⟨packet, q⟩, hq, heq⟩ := Option.map_eq_some_iff.mp h
    cases heq
    exact received rfl hq (held_hidppIn q s.dropped) (by simp) rfl
  · cases h

theorem giveFfb (h : s.step .giveFfb = some (t, es)) :
    LinesMoved s t es (s.lineEffects .giveFfb) := by
  rw [Bridge.step] at h
  split at h
  · obtain ⟨⟨packet, q⟩, hq, heq⟩ := Option.map_eq_some_iff.mp h
    cases heq
    exact received rfl hq (held_ffbIn q) (by simp) rfl
  · cases h

/-- A HID++ message is let through to the console, or kept from it. -/
theorem hidppReply {r : Reply} {answers : Option ℕ}
    (h : Bridge.hidppReply r answers p s = some (t, es)) :
    LinesMoved s t es (s.lineEffects (.hidppReply r answers)) := by
  unfold Bridge.hidppReply at h
  split at h
  · next bytes _ =>
    unfold Bridge.lineEffects
    dsimp only
    unfold Bridge.hidppMessage at h
    cases h
    dsimp only
    split
    · exact .still _ (by simp) rfl rfl
    · split
      · next q hsent => exact sent rfl rfl hsent (held_hidppIn q s.dropped) (by simp) rfl
      · next hfull => exact unsent rfl rfl hfull rfl (by simp) rfl
  · cases h
    exact .still _ (by simp) rfl rfl
  · cases h

theorem ffbInReply {r : Reply} (h : Bridge.ffbInReply r p s = some (t, es)) :
    LinesMoved s t es (s.lineEffects (.ffbInReply r)) := by
  unfold Bridge.ffbInReply at h
  split at h
  · split at h
    · next q hsent =>
      cases h
      exact sent rfl rfl hsent (held_ffbIn q) (by simp) rfl
    · next hfull =>
      cases h
      exact unsent rfl rfl hfull rfl (by simp) rfl
  · cases h
    exact .still _ (by simp) rfl rfl
  · cases h

theorem ep0Control (h : s.ep0Control p = some (t, es)) :
    LinesMoved s t es (s.lineEffects .ep0Control) := by
  unfold Bridge.ep0Control at h
  split at h <;> cases h
  next tick msg q he hq =>
  exact received rfl hq (held_controlOut (s := s) q _) (by simp) rfl

theorem ep0If0 (h : s.ep0If0 p = some (t, es)) :
    LinesMoved s t es (s.lineEffects .ep0If0) := by
  unfold Bridge.ep0If0 at h
  split at h
  · next tick report q he hq =>
    dsimp only at h
    split at h <;> cases h <;> exact received rfl hq (held_if0Out (s := s) q _) (by simp) rfl
  · cases h

theorem ffbTake (h : s.ffbTake p = some (t, es)) :
    LinesMoved s t es (s.lineEffects .ffbTake) := by
  unfold Bridge.ffbTake at h
  split at h <;> cases h
  next packet q hf hq =>
  exact received rfl hq (held_ffbOut (s := s) q _) (by simp) rfl

/-- A query that ends moves nothing on the lines. -/
theorem queryDone {q : Query} {answer : Option (Bytes 20)} {b : Signal (Bytes 20)}
    (h : ({ s with bridgeAnswer := b } : Bridge).queryDone p q answer = (t, es)) :
    LinesMoved s t es [] := by
  unfold Bridge.queryDone at h
  dsimp only at h
  split at h
  · cases h
    exact .still _ (by simp [Bridge.query]) rfl rfl
  · cases h
    exact .still _ (by simp) rfl rfl

theorem ep0Done {ok : Bool} (h : s.ep0Done p ok = some (t, es)) : LinesMoved s t es [] := by
  unfold Bridge.ep0Done at h
  split at h
  case h_1 => split at h <;> cases h <;> exact .still _ (by simp) rfl rfl
  case h_3 =>
    split at h
    · cases h
      exact .still _ (by simp) rfl rfl
    · exact queryDone (b := s.bridgeAnswer) (Option.some.inj h)
  all_goals cases h
  all_goals exact .still _ (by simp) rfl rfl

theorem ep0Timer (h : s.ep0Timer p = some (t, es)) : LinesMoved s t es [] := by
  unfold Bridge.ep0Timer at h
  split at h
  · split at h
    · cases h
    · split at h <;> cases h <;> exact .still _ (by simp) rfl rfl
  · split at h <;> cases h
    exact .still _ (by simp) rfl rfl
  · split at h
    · cases h
    · exact queryDone (b := s.bridgeAnswer) (Option.some.inj h)
  · cases h

theorem ep0Answer (h : s.ep0Answer p = some (t, es)) : LinesMoved s t es [] := by
  unfold Bridge.ep0Answer at h
  split at h
  · exact queryDone (Option.some.inj h)
  · cases h

end LinesMoved

/-- Every step of the bridge, by what it moves on the lines. -/
theorem linesMoved {s t : Bridge} {a : BridgeAct} {es : List BridgeEffect}
    (h : bridge.step s a = some (t, es)) : LinesMoved s t es (s.lineEffects a) := by
  change s.step a = some (t, es) at h
  cases a
  case elapse ms =>
    cases h
    exact .still _ (by simp) rfl rfl
  case follow => exact .follow h
  case followTimer =>
    rw [Bridge.step] at h
    split at h
    · split at h <;> cases h
      exact .still _ (by simp) rfl rfl
    · cases h
    · cases h
  case controlRequest req data => exact .controlRequest h
  case ffbPacket data => exact .ffbPacket h
  case if0Packet data => exact .if0Packet h
  case giveInput =>
    rw [Bridge.step] at h
    split at h <;> cases h
    exact .still _ (by simp) rfl rfl
  case giveHidpp => exact .giveHidpp h
  case giveFfb => exact .giveFfb h
  case attach ep =>
    rw [Bridge.step] at h
    split at h <;> cases h
    exact .still _ (by simp) rfl rfl
  all_goals
    rw [Bridge.step] at h
    obtain ⟨p, hs, hp⟩ := Bridge.inSession_eq_some.mp h
  case detach =>
    cases hp
    exact .still _ (by simp) rfl rfl
  case inputReply r =>
    unfold Bridge.inputReply at hp
    split at hp
    · split at hp <;> cases hp <;> exact .still _ (by simp) rfl rfl
    · cases hp
      exact .still _ (by simp) rfl rfl
    · cases hp
  case inputTimer | hidppTimer | ffbInTimer =>
    obtain ⟨x, -, heq⟩ := Option.map_eq_some_iff.mp hp
    cases heq
    exact .still _ (by simp) rfl rfl
  case hidppReply r answers => exact .hidppReply hp
  case ffbInReply r => exact .ffbInReply hp
  case ep0Done ok => exact .ep0Done hp
  case ep0Timer => exact .ep0Timer hp
  case ep0Answer => exact .ep0Answer hp
  case ep0Control => exact .ep0Control hp
  case ep0If0 => exact .ep0If0 hp
  case ep0Recover =>
    unfold Bridge.ep0Recover at hp
    split at hp <;> cases hp
    exact .still _ (by simp) rfl rfl
  case ep0Tick =>
    unfold Bridge.ep0Tick at hp
    split at hp
    · split at hp <;> cases hp
      exact .still _ (by simp) rfl rfl
    · cases hp
  case ffbTake => exact .ffbTake hp
  case ffbReply e =>
    unfold Bridge.ffbReply at hp
    split at hp
    · cases hp
      exact .still _ (by simp) rfl rfl
    · dsimp only at hp
      split at hp
      · cases hp
        exact .still _ (by simp) rfl rfl
      · split at hp <;> cases hp <;> exact .still _ (by simp) rfl rfl
    · cases hp
  case ffbCleared =>
    unfold Bridge.ffbCleared at hp
    split at hp
    · next ok _ _ =>
      cases hp
      cases ok <;> exact .still _ (by simp) rfl rfl
    · cases hp
  case ffbTimeout =>
    unfold Bridge.ffbTimeout at hp
    split at hp
    · split at hp <;> cases hp
      exact .still _ (by simp) rfl rfl
    · cases hp

end WheelBridge
