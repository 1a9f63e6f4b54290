import WheelBridge.Refinement
import WheelBridge.SessionSteps

/-!
`follow_wheel` in time. Whenever the device leaves the bus it stays off for `minDetach`, so
that the console sees it go; and as a value of `WHEEL_LINK` costs no more time than that,
it is never far behind what the sessions have reported.
-/
namespace WheelBridge

/-- What has been seen of the pull-up. -/
structure PullupSeen where
  now : ℕ
  on : Bool
  /-- When it was last switched off. -/
  since : Option ℕ

namespace PullupSeen

def start : PullupSeen := ⟨0, false, none⟩

def watch (m : PullupSeen) : BridgeAct ⊕ BridgeEffect → PullupSeen
  | .inl a => { m with now := m.now + a.passes }
  | .inr (.pullup true) => { m with on := true }
  | .inr (.pullup false) => { m with on := false, since := some m.now }
  | .inr _ => m

end PullupSeen

/-- The pull-up is switched off only when it is on, and on again only after `minDetach`. -/
def OffLongEnough (m : PullupSeen) : BridgeAct ⊕ BridgeEffect → Prop
  | .inr (.pullup true) => m.on = false ∧ ∀ t, m.since = some t → t + minDetach ≤ m.now
  | .inr (.pullup false) => m.on = true
  | .inl _ | .inr _ => True

/-- The steps of `follow_wheel`, and time. -/
def BridgeAct.ofFollow : BridgeAct → Bool
  | .elapse _ | .follow | .followTimer => true
  | _ => false

/-- A step that leaves `follow_wheel` and the clock alone. -/
def Apart (s t : Bridge) (es : List BridgeEffect) : Prop :=
  t.follow = s.follow ∧ t.now = s.now ∧ ∀ on, .pullup on ∉ es

namespace Apart

variable {s t : Bridge} {p : Session} {es : List BridgeEffect}

theorem queueControl {msg : ControlOut} (h : s.queueControl msg = (t, es)) : Apart s t es := by
  unfold Bridge.queueControl at h
  split at h <;> cases h <;> exact ⟨rfl, rfl, by simp⟩

theorem controlRequest {req : Request} {data : List UInt8}
    (h : s.step (.controlRequest req data) = some (t, es)) : Apart s t es := by
  rw [Bridge.step] at h
  split at h
  · cases hout : WheelBridge.controlOut .wheel req data with
    | queue msg =>
      simp only [hout] at h
      exact queueControl (Option.some.inj h)
    | none | nonce | accepted | rejected =>
      simp only [hout] at h
      cases h
      exact ⟨rfl, rfl, by simp⟩
  · cases h

theorem ffbPacket {data : List UInt8} (h : s.step (.ffbPacket data) = some (t, es)) :
    Apart s t es := by
  rw [Bridge.step] at h
  unfold Bridge.queueFfb at h
  split at h
  · split at h <;> cases h <;> exact ⟨rfl, rfl, by simp⟩
  · cases h

theorem if0Packet {data : List UInt8} (h : s.step (.if0Packet data) = some (t, es)) :
    Apart s t es := by
  rw [Bridge.step] at h
  unfold Bridge.queueIf0 at h
  split at h
  · split at h <;> cases h <;> exact ⟨rfl, rfl, by simp⟩
  · cases h

theorem giveInput (h : s.step .giveInput = some (t, es)) : Apart s t es := by
  rw [Bridge.step] at h
  split at h <;> cases h
  exact ⟨rfl, rfl, by simp⟩

theorem giveHidpp (h : s.step .giveHidpp = some (t, es)) : Apart s t es := by
  rw [Bridge.step] at h
  obtain ⟨r, -, heq⟩ := Option.map_eq_some_iff.mp (Option.ite_none_right_eq_some.mp h).2
  cases heq
  exact ⟨rfl, rfl, by simp⟩

theorem giveFfb (h : s.step .giveFfb = some (t, es)) : Apart s t es := by
  rw [Bridge.step] at h
  obtain ⟨r, -, heq⟩ := Option.map_eq_some_iff.mp (Option.ite_none_right_eq_some.mp h).2
  cases heq
  exact ⟨rfl, rfl, by simp⟩

theorem attach {ep : UInt8} (h : s.step (.attach ep) = some (t, es)) : Apart s t es := by
  rw [Bridge.step] at h
  split at h <;> cases h
  exact ⟨rfl, rfl, by simp⟩

theorem inputReply {r : Reply} (h : Bridge.inputReply r p s = some (t, es)) : Apart s t es := by
  unfold Bridge.inputReply at h
  split at h
  · split at h <;> cases h <;> exact ⟨rfl, rfl, by simp⟩
  · cases h
    exact ⟨rfl, rfl, by simp⟩
  · cases h

theorem hidppReply {r : Reply} {answers : Option ℕ}
    (h : Bridge.hidppReply r answers p s = some (t, es)) : Apart s t es := by
  unfold Bridge.hidppReply at h
  split at h
  · cases h
    obtain ⟨q, n, heq⟩ := s.hidppMessage_eq (Packet.new _)
    rw [heq]
    exact ⟨rfl, rfl, by simp⟩
  · cases h
    exact ⟨rfl, rfl, by simp⟩
  · cases h

theorem ffbInReply {r : Reply} (h : Bridge.ffbInReply r p s = some (t, es)) : Apart s t es := by
  unfold Bridge.ffbInReply at h
  split at h
  · split at h <;> cases h <;> exact ⟨rfl, rfl, by simp⟩
  · cases h
    exact ⟨rfl, rfl, by simp⟩
  · cases h

theorem queryDone {q : Query} {answer : Option (Bytes 20)} {b : Signal (Bytes 20)}
    (h : ({ s with bridgeAnswer := b } : Bridge).queryDone p q answer = (t, es)) :
    Apart s t es := by
  unfold Bridge.queryDone at h
  dsimp only at h
  split at h <;> cases h
  · exact ⟨rfl, rfl, by simp [Bridge.query]⟩
  · exact ⟨rfl, rfl, by simp⟩

theorem ep0Done {ok : Bool} (h : s.ep0Done p ok = some (t, es)) : Apart s t es := by
  unfold Bridge.ep0Done at h
  split at h
  case h_1 => split at h <;> cases h <;> exact ⟨rfl, rfl, by simp⟩
  case h_3 =>
    split at h
    · cases h
      exact ⟨rfl, rfl, by simp⟩
    · exact queryDone (b := s.bridgeAnswer) (Option.some.inj h)
  all_goals cases h
  all_goals exact ⟨rfl, rfl, by simp⟩

theorem ep0Timer (h : s.ep0Timer p = some (t, es)) : Apart s t es := by
  unfold Bridge.ep0Timer at h
  split at h
  · split at h
    · cases h
    · split at h <;> cases h <;> exact ⟨rfl, rfl, by simp⟩
  · split at h <;> cases h
    exact ⟨rfl, rfl, by simp⟩
  · split at h
    · cases h
    · exact queryDone (b := s.bridgeAnswer) (Option.some.inj h)
  · cases h

theorem ep0Answer (h : s.ep0Answer p = some (t, es)) : Apart s t es := by
  unfold Bridge.ep0Answer at h
  split at h
  · exact queryDone (Option.some.inj h)
  · cases h

theorem ep0Control (h : s.ep0Control p = some (t, es)) : Apart s t es := by
  unfold Bridge.ep0Control at h
  split at h <;> cases h
  exact ⟨rfl, rfl, by simp⟩

theorem ep0If0 (h : s.ep0If0 p = some (t, es)) : Apart s t es := by
  unfold Bridge.ep0If0 at h
  split at h
  · dsimp only at h
    split at h <;> cases h <;> exact ⟨rfl, rfl, by simp⟩
  · cases h

theorem ep0Recover (h : s.ep0Recover p = some (t, es)) : Apart s t es := by
  unfold Bridge.ep0Recover at h
  split at h <;> cases h
  exact ⟨rfl, rfl, by simp⟩

theorem ep0Tick (h : s.ep0Tick p = some (t, es)) : Apart s t es := by
  unfold Bridge.ep0Tick at h
  split at h
  · split at h <;> cases h
    exact ⟨rfl, rfl, by simp⟩
  · cases h

theorem ffbTake (h : s.ffbTake p = some (t, es)) : Apart s t es := by
  unfold Bridge.ffbTake at h
  split at h <;> cases h
  exact ⟨rfl, rfl, by simp⟩

theorem ffbReply {e : Option PipeError} (h : s.ffbReply p e = some (t, es)) : Apart s t es := by
  unfold Bridge.ffbReply at h
  split at h
  · cases h
    exact ⟨rfl, rfl, by simp⟩
  · dsimp only at h
    split at h
    · cases h
      exact ⟨rfl, rfl, by simp⟩
    · split at h <;> cases h <;> exact ⟨rfl, rfl, by simp⟩
  · cases h

theorem ffbCleared (h : s.ffbCleared p = some (t, es)) : Apart s t es := by
  unfold Bridge.ffbCleared at h
  split at h
  · next ok _ _ =>
    cases h
    cases ok <;> exact ⟨rfl, rfl, by simp⟩
  · cases h

theorem ffbTimeout (h : s.ffbTimeout p = some (t, es)) : Apart s t es := by
  unfold Bridge.ffbTimeout at h
  split at h
  · split at h <;> cases h
    exact ⟨rfl, rfl, by simp⟩
  · cases h

end Apart

/-- The pull-up is no concern of any other task. -/
theorem follow_apart {s t : Bridge} {a : BridgeAct} {es : List BridgeEffect}
    (ha : a.ofFollow = false) (h : bridge.step s a = some (t, es)) : Apart s t es := by
  change s.step a = some (t, es) at h
  cases a
  case elapse | follow | followTimer => cases ha
  case controlRequest => exact .controlRequest h
  case ffbPacket => exact .ffbPacket h
  case if0Packet => exact .if0Packet h
  case giveInput => exact .giveInput h
  case giveHidpp => exact .giveHidpp h
  case giveFfb => exact .giveFfb h
  case attach => exact .attach h
  all_goals
    rw [Bridge.step] at h
    obtain ⟨p, hs, hp⟩ := Bridge.inSession_eq_some.mp h
  case detach =>
    cases hp
    exact ⟨rfl, rfl, by simp⟩
  case inputTimer | hidppTimer | ffbInTimer =>
    obtain ⟨x, -, heq⟩ := Option.map_eq_some_iff.mp hp
    cases heq
    exact ⟨rfl, rfl, by simp⟩
  case inputReply => exact .inputReply hp
  case hidppReply => exact .hidppReply hp
  case ffbInReply => exact .ffbInReply hp
  case ep0Done => exact .ep0Done hp
  case ep0Timer => exact .ep0Timer hp
  case ep0Answer => exact .ep0Answer hp
  case ep0Control => exact .ep0Control hp
  case ep0If0 => exact .ep0If0 hp
  case ep0Recover => exact .ep0Recover hp
  case ep0Tick => exact .ep0Tick hp
  case ffbTake => exact .ffbTake hp
  case ffbReply => exact .ffbReply hp
  case ffbCleared => exact .ffbCleared hp
  case ffbTimeout => exact .ffbTimeout hp

/-- The device was switched off at `t` and has been off for `minDetach`, or is to sleep until
then. -/
def Follow.SleptSince (t now : ℕ) : Follow → Prop
  | .boot => False
  | .waiting _ => t + minDetach ≤ now
  | .sleeping wake => t + minDetach ≤ wake

structure Plugged (s : Bridge) (m : PullupSeen) : Prop where
  clock : m.now = s.now
  on : m.on = s.follow.onBus
  slept : ∀ t, m.since = some t → s.follow.SleptSince t s.now
  near : ∀ wake, s.follow = .sleeping wake → wake ≤ s.now + minDetach

section Steps

variable {s t : Bridge} {m : PullupSeen} {es : List BridgeEffect}

/-- A step after which the pull-up is as it was. -/
theorem Plugged.unswitched {a : BridgeAct} (h : Plugged s m) (hnow : t.now = s.now + a.passes)
    (hon : t.follow.onBus = s.follow.onBus)
    (hslept : ∀ u, s.follow.SleptSince u s.now → t.follow.SleptSince u t.now)
    (hnear : ∀ wake, t.follow = .sleeping wake → wake ≤ t.now + minDetach)
    (hes : ∀ on, .pullup on ∉ es) :
    Plugged t ((Sum.inl a :: es.map Sum.inr).foldl PullupSeen.watch m) ∧
      Each PullupSeen.watch OffLongEnough m (Sum.inl a :: es.map Sum.inr) := by
  have hunseen : ∀ x ∈ es.map Sum.inr, ∀ m, PullupSeen.watch m x = m ∧ OffLongEnough m x := by
    intro x hx m
    obtain ⟨e, he, rfl⟩ := List.mem_map.mp hx
    cases e with
    | pullup on => exact absurd he (hes on)
    | _ => exact ⟨rfl, trivial⟩
  have hsame : (es.map Sum.inr).foldl PullupSeen.watch (PullupSeen.watch m (.inl a)) =
      PullupSeen.watch m (.inl a) := foldl_unheeded fun x hx => (hunseen x hx _).1
  rw [List.foldl_cons, hsame]
  refine ⟨⟨?_, h.on.trans hon.symm, fun u hu => hslept u (h.slept u hu), hnear⟩, trivial,
    Each.of_forall (fun x hx m => (hunseen x hx m).2) _⟩
  rw [hnow, ← h.clock]
  rfl

theorem plugged_apart {a : BridgeAct} (h : Plugged s m) (ha : a.ofFollow = false)
    (hstep : bridge.step s a = some (t, es)) :
    Plugged t ((Sum.inl a :: es.map Sum.inr).foldl PullupSeen.watch m) ∧
      Each PullupSeen.watch OffLongEnough m (Sum.inl a :: es.map Sum.inr) := by
  obtain ⟨hfollow, hnow, hes⟩ := follow_apart ha hstep
  have hpasses : a.passes = 0 := by
    cases a <;> first | rfl | cases ha
  refine h.unswitched ?_ (congrArg Follow.onBus hfollow) ?_ ?_ hes
  · rw [hnow, hpasses, Nat.add_zero]
  · intro u hu
    rw [hfollow, hnow]
    exact hu
  · rw [hfollow, hnow]
    exact h.near

theorem plugged_follow (h : Plugged s m) (hstep : s.followStep = some (t, es)) :
    Plugged t ((Sum.inl BridgeAct.follow :: es.map Sum.inr).foldl PullupSeen.watch m) ∧
      Each PullupSeen.watch OffLongEnough m (Sum.inl BridgeAct.follow :: es.map Sum.inr) := by
  unfold Bridge.followStep at hstep
  split at hstep
  · cases hstep
  · next link q hq =>
    dsimp only at hstep
    split at hstep
    · next hf =>
      have hoff : m.on = false := by
        rw [h.on, hf]
        rfl
      have hnever : ∀ u, m.since ≠ some u := by
        intro u hu
        have hslept := h.slept u hu
        rw [hf] at hslept
        exact hslept
      split at hstep <;> cases hstep
      · refine ⟨⟨h.clock, rfl, fun u hu => absurd hu (hnever u), fun wake hw => ?_⟩, trivial,
          ⟨hoff, fun u hu => absurd hu (hnever u)⟩, trivial⟩
        cases hw
      · exact h.unswitched rfl rfl (fun u hu => hu) h.near (by simp)
    · next attached hf =>
      have hrested : ∀ u, m.since = some u → u + minDetach ≤ s.now := by
        intro u hu
        have hslept := h.slept u hu
        rw [hf] at hslept
        exact hslept
      split at hstep
      · cases hstep
        exact h.unswitched rfl rfl (fun u hu => hu) h.near (by simp)
      · next hother =>
        split at hstep <;> cases hstep
        · next hon =>
          have hoff : m.on = false := by
            rw [h.on, hf]
            cases attached <;> simp_all [Follow.onBus]
          refine ⟨⟨h.clock, rfl, hrested, fun wake hw => ?_⟩, trivial, trivial,
            ⟨hoff, fun u hu => ?_⟩, trivial⟩
          · cases hw
          · have hlong := hrested u hu
            rw [← h.clock] at hlong
            exact hlong
        · next hoff =>
          have hon : m.on = true := by
            rw [h.on, hf]
            cases attached <;> simp_all [Follow.onBus]
          refine ⟨⟨h.clock, rfl, fun u hu => ?_, fun wake hw => ?_⟩, trivial, hon, trivial⟩
          · obtain rfl := Option.some.inj hu
            exact Nat.le_of_eq (congrArg (· + minDetach) h.clock)
          · obtain rfl := Follow.sleeping.inj hw
            exact Nat.le_refl _
    · cases hstep

theorem plugged_step {a : BridgeAct} (h : Plugged s m)
    (hstep : bridge.step s a = some (t, es)) :
    Plugged t ((Sum.inl a :: es.map Sum.inr).foldl PullupSeen.watch m) ∧
      Each PullupSeen.watch OffLongEnough m (Sum.inl a :: es.map Sum.inr) := by
  cases ha : a.ofFollow with
  | false => exact plugged_apart h ha hstep
  | true =>
    cases a <;> simp only [BridgeAct.ofFollow, Bool.false_eq_true] at ha
    case elapse ms =>
      cases hstep
      refine h.unswitched rfl rfl ?_ ?_ (by simp)
      · intro u hu
        cases hf : s.follow with
        | boot =>
          rw [hf] at hu
          exact hu
        | waiting attached =>
          rw [hf] at hu
          exact Nat.le_add_right_of_le hu
        | sleeping wake =>
          rw [hf] at hu
          exact hu
      · intro wake hw
        have hnear := h.near wake hw
        change wake ≤ s.now + ms + minDetach
        omega
    case follow => exact plugged_follow h hstep
    case followTimer =>
      change s.step .followTimer = some (t, es) at hstep
      rw [Bridge.step] at hstep
      split at hstep
      · next wake hf =>
        split at hstep <;> cases hstep
        next hwake =>
        refine h.unswitched rfl (by rw [hf]; rfl) ?_ ?_ (by simp)
        · intro u hu
          rw [hf] at hu
          exact Nat.le_trans hu (Nat.le_of_not_lt hwake)
        · intro wake' hw
          cases hw
      · cases hstep
      · cases hstep

end Steps

/-- How long the device task still sleeps. -/
def Follow.rest (now : ℕ) : Follow → ℕ
  | .sleeping wake => wake - now
  | .boot | .waiting _ => 0

/-- How long `follow_wheel` is to sleep for the values that wait for it. -/
def behind (on : Bool) : List Bool → ℕ
  | [] => 0
  | link :: links => (if on = true ∧ link = false then minDetach else 0) + behind link links

/-- Of two values that differ only one takes the device off the bus. -/
theorem behind_le (on : Bool) (links : List Bool) :
    behind on links ≤ minDetach * ((links.length + if on then 1 else 0) / 2) := by
  induction links generalizing on with
  | nil => exact Nat.zero_le _
  | cons link links ih =>
    have hrest := ih link
    unfold minDetach at hrest ⊢
    cases on <;> cases link <;> simp [behind, minDetach] at hrest ⊢ <;> omega

section CatchingUp

variable {s : Bridge}

/-- Steps of the device task alone lead from `s` to `t`. -/
def Bridge.Leads (s t : Bridge) : Prop :=
  ∃ as es, (∀ a ∈ as, a.ofFollow = true) ∧ bridge.run s as = some (t, es)

theorem Bridge.Leads.refl (s : Bridge) : s.Leads s := ⟨[], [], by simp, rfl⟩

theorem Bridge.Leads.step {t u : Bridge} {a : BridgeAct} {es : List BridgeEffect}
    (h : s.Leads t) (ha : a.ofFollow = true) (hstep : bridge.step t a = some (u, es)) :
    s.Leads u := by
  obtain ⟨as, fs, has, hrun⟩ := h
  refine ⟨as ++ [a], fs ++ es, ?_, Machine.run_append hrun (Machine.run_single hstep)⟩
  intro b hb
  rcases List.mem_append.mp hb with hb | hb
  · exact has b hb
  · exact List.mem_singleton.mp hb ▸ ha

theorem Bridge.Leads.trans {t u : Bridge} (h : s.Leads t) (h' : t.Leads u) : s.Leads u := by
  obtain ⟨as, es, has, hrun⟩ := h
  obtain ⟨bs, fs, hbs, hrun'⟩ := h'
  refine ⟨as ++ bs, es ++ fs, ?_, Machine.run_append hrun hrun'⟩
  intro b hb
  exact (List.mem_append.mp hb).elim (has b) (hbs b)

/-- The sleep ends. -/
theorem leads_awake (s : Bridge) : ∃ t, s.Leads t ∧ t.now = s.now + s.follow.rest s.now ∧
    t.wheelLink = s.wheelLink ∧ t.follow.onBus = s.follow.onBus ∧
    ∀ wake, t.follow ≠ .sleeping wake := by
  cases hf : s.follow with
  | boot =>
    exact ⟨s, .refl s, rfl, rfl, by rw [hf], by simp [hf]⟩
  | waiting attached =>
    exact ⟨s, .refl s, rfl, rfl, by rw [hf], by simp [hf]⟩
  | sleeping wake =>
    let slept : Bridge := { s with now := s.now + (wake - s.now) }
    have helapse : bridge.step s (.elapse (wake - s.now)) = some (slept, []) := rfl
    have hwoke : bridge.step slept .followTimer =
        some ({ slept with follow := .waiting false }, []) := by
      change slept.step .followTimer = _
      have hover : ¬ slept.now < wake := by
        change ¬ s.now + (wake - s.now) < wake
        omega
      have hf' : slept.follow = .sleeping wake := hf
      simp only [Bridge.step, hf', if_neg hover]
    exact ⟨_, ((Bridge.Leads.refl s).step rfl helapse).step rfl hwoke, rfl, rfl, rfl, by simp⟩

/-- A value of `WHEEL_LINK` is taken. -/
theorem takes_link {link : Bool} {q : Channel Bool wheelLinkLen}
    (hawake : ∀ wake, s.follow ≠ .sleeping wake) (hq : s.wheelLink.receive = some (link, q)) :
    ∃ t es, bridge.step s .follow = some (t, es) ∧ t.now = s.now ∧ t.wheelLink = q ∧
      t.follow.onBus = link ∧
      t.follow.rest t.now = if s.follow.onBus = true ∧ link = false then minDetach else 0 := by
  have hstep : bridge.step s .follow = s.followStep := rfl
  rw [hstep]
  unfold Bridge.followStep
  rw [hq]
  cases hf : s.follow with
  | boot =>
    cases link with
    | true => exact ⟨_, _, rfl, rfl, rfl, rfl, rfl⟩
    | false => exact ⟨_, _, rfl, rfl, rfl, rfl, rfl⟩
  | waiting attached =>
    cases attached with
    | true =>
      cases link with
      | true => exact ⟨_, _, rfl, rfl, rfl, rfl, rfl⟩
      | false => exact ⟨_, _, rfl, rfl, rfl, rfl, Nat.add_sub_cancel_left ..⟩
    | false =>
      cases link with
      | true => exact ⟨_, _, rfl, rfl, rfl, rfl, rfl⟩
      | false => exact ⟨_, _, rfl, rfl, rfl, rfl, rfl⟩
  | sleeping wake => exact absurd hf (hawake wake)

/-- Taking all that waits takes no longer than the sleep under way and those to come. -/
theorem leads_empty {links : List Bool} (hlinks : s.wheelLink.items = links) :
    ∃ t, s.Leads t ∧ t.now ≤ s.now + s.follow.rest s.now + behind s.follow.onBus links ∧
      t.wheelLink.items = [] ∧ t.follow.onBus = links.getLastD s.follow.onBus := by
  induction links generalizing s with
  | nil => exact ⟨s, .refl s, by omega, hlinks, rfl⟩
  | cons link links ih =>
    obtain ⟨u, hu, hnow, hqueue, hon, hawake⟩ := leads_awake s
    have hfits : links.length ≤ wheelLinkLen := by
      have hlength := s.wheelLink.length_le
      rw [hlinks, List.length_cons] at hlength
      omega
    have hq : u.wheelLink.receive = some (link, ⟨links, hfits⟩) := by
      rw [hqueue]
      exact Channel.receive_eq_some.mpr hlinks
    obtain ⟨v, es, hstep, hnow', hqueue', hon', hsleep⟩ := takes_link hawake hq
    obtain ⟨t, ht, hlate, hempty, hlast⟩ := ih (congrArg Channel.items hqueue')
    refine ⟨t, (hu.step rfl hstep).trans ht, ?_, hempty, ?_⟩
    · rw [hsleep, hon', hon] at hlate
      unfold behind
      omega
    · rw [hlast, hon', List.getLastD_cons]

end CatchingUp

/-- Within three times `minDetach` the device task has taken all values of `WHEEL_LINK`, if it
runs, and the device is on the bus if the last one says so. -/
def Bridge.CatchesUp (s : Bridge) : Prop :=
  ∃ t, s.Leads t ∧ t.now ≤ s.now + 3 * minDetach ∧ t.wheelLink.items = [] ∧
    t.follow.onBus = s.wheelLink.items.getLastD s.follow.onBus

theorem Plugged.catchesUp {s : Bridge} {m : PullupSeen} (h : Plugged s m) : s.CatchesUp := by
  obtain ⟨t, ht, hlate, hempty, hlast⟩ := leads_empty (s := s) rfl
  refine ⟨t, ht, ?_, hempty, hlast⟩
  have hlength : s.wheelLink.items.length ≤ 4 := s.wheelLink.length_le
  have hbehind := behind_le s.follow.onBus s.wheelLink.items
  unfold minDetach at hbehind ⊢
  cases hf : s.follow with
  | sleeping wake =>
    have hnear : wake ≤ s.now + 500 := h.near wake hf
    rw [hf] at hlate hbehind
    simp only [Follow.onBus, Follow.rest, Bool.false_eq_true, if_false] at hlate hbehind
    omega
  | boot =>
    rw [hf] at hlate hbehind
    simp only [Follow.onBus, Follow.rest, Bool.false_eq_true, if_false] at hlate hbehind
    omega
  | waiting attached =>
    rw [hf] at hlate hbehind
    simp only [Follow.onBus, Follow.rest] at hlate hbehind
    cases attached <;> simp only [Bool.false_eq_true, if_false, if_true] at hbehind <;> omega

/-- Whatever the sessions report and however the tasks run: the pull-up is switched off only
when it is on, and is then off for at least 500 ms, so that the console sees the device go; and
whenever its task runs alone from there, it is done with all reports that wait within 1.5 s,
with the device on the bus if the last of them says so. -/
theorem pullup_in_time (as : List BridgeAct) :
    bridge.recorded.Along PullupSeen.watch
      (fun _ m es t => Each PullupSeen.watch OffLongEnough m es ∧ t.CatchesUp)
      Bridge.init PullupSeen.start as := by
  have hinit : Plugged Bridge.init PullupSeen.start := by
    refine ⟨rfl, rfl, fun t ht => ?_, fun wake hw => ?_⟩
    · cases ht
    · cases hw
  refine Machine.along_always Plugged ?_ as _ _ hinit
  intro s m a es t h hstep
  obtain ⟨fs, hfs, rfl⟩ := Machine.recorded_step.mp hstep
  obtain ⟨hplugged, heach⟩ := plugged_step h hfs
  exact ⟨hplugged, heach, hplugged.catchesUp⟩

end WheelBridge
