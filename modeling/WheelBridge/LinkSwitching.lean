import WheelBridge.BridgeSteps
import WheelBridge.Merging

/-!
Whether the pull-up follows the wheel. What the sessions report goes to `follow_wheel`
through a queue of four; a value that does not fit is dropped, and `follow_wheel` may
sleep for half a second while the values come in.
-/
namespace WheelBridge

/-- What was reported with `wheel_link`, and how the pull-up was switched. -/
structure Switching where
  reported : List Bool
  switches : List Bool

namespace Switching

def init : Switching := ⟨[], []⟩

def watch (m : Switching) : BridgeEffect → Switching
  | .linked attached => { m with reported := m.reported ++ [attached] }
  | .pullup on => { m with switches := m.switches ++ [on] }
  | _ => m

/-- The switches made and those still queued are the reports merged; with an empty queue
the switches made are all of them, and the device is on the bus iff the last report says
so. -/
def Follows (m : Switching) (s : Bridge) : Prop :=
  merged false m.reported = merged false (m.switches ++ s.wheelLink.items) ∧
    (s.wheelLink.items = [] →
      merged false m.reported = false :: m.switches ∧
        s.follow.onBus = m.reported.getLastD false)

instance (m : Switching) (s : Bridge) : Decidable (m.Follows s) :=
  inferInstanceAs (Decidable (_ ∧ _))

end Switching

def PullupFollows (_ : Bridge) (m : Switching) (es : List BridgeEffect) (t : Bridge) : Prop :=
  (es.foldl Switching.watch m).Follows t

instance (s : Bridge) (m : Switching) (es : List BridgeEffect) (t : Bridge) :
    Decidable (PullupFollows s m es t) :=
  inferInstanceAs (Decidable (Switching.Follows _ _))

/-- A report that finds the queue full repeats the last value in it. -/
def LosesNothing (s : Bridge) (_ : Switching) (es : List BridgeEffect) (_ : Bridge) : Prop :=
  ∀ attached, .linked attached ∈ es → s.wheelLink.items.length = wheelLinkLen →
    s.wheelLink.items.getLast? = some attached

/-- What holds of the switches whatever is lost. -/
structure Switched (s : Bridge) (m : Switching) : Prop where
  chain : (false :: m.switches).IsChain (· ≠ ·)
  onBus : s.follow.onBus = m.switches.getLastD false

namespace Switched

variable {s t : Bridge} {m : Switching}

/-- The second part of `Follows` is a consequence of the first. -/
theorem follows_iff (h : Switched s m) : m.Follows s ↔
    merged false m.reported = merged false (m.switches ++ s.wheelLink.items) := by
  refine ⟨fun hf => hf.1, fun hf => ⟨hf, fun hempty => ?_⟩⟩
  rw [hempty, List.append_nil] at hf
  have hchain : merged false m.switches = false :: m.switches :=
    List.destutter'_of_isChain_cons _ _ h.chain
  refine ⟨hf.trans hchain, ?_⟩
  have hlast : some (m.reported.getLastD false) = some (m.switches.getLastD false) := by
    rw [← getLast?_merged, ← getLast?_merged, hf]
  rw [h.onBus, Option.some.inj hlast]

/-- A value in force is not switched to again. -/
theorem same (h : Switched s m) (hf : m.Follows s) {link : Bool}
    {q : Channel Bool wheelLinkLen} (hq : s.wheelLink.receive = some (link, q))
    (hlink : s.follow.onBus = link) (hlt : t.wheelLink = q) (hft : t.follow = s.follow) :
    Switched t m ∧ m.Follows t := by
  have ht : Switched t m := ⟨h.chain, by rw [hft]; exact h.onBus⟩
  refine ⟨ht, ht.follows_iff.mpr ?_⟩
  rw [hf.1, Channel.receive_eq_some.mp hq, hlt]
  exact merged_append_cons false m.switches q.items (h.onBus.symm.trans hlink)

/-- Any other value is. -/
theorem switch (h : Switched s m) (hf : m.Follows s) {link : Bool}
    {q : Channel Bool wheelLinkLen} (hq : s.wheelLink.receive = some (link, q))
    (hlink : s.follow.onBus ≠ link) (hlt : t.wheelLink = q) (hft : t.follow.onBus = link) :
    Switched t (m.watch (.pullup link)) ∧ (m.watch (.pullup link)).Follows t := by
  have ht : Switched t (m.watch (.pullup link)) := by
    refine ⟨?_, ?_⟩
    · change (false :: m.switches ++ [link]).IsChain (· ≠ ·)
      rw [List.isChain_append]
      refine ⟨h.chain, List.isChain_singleton _, ?_⟩
      intro x hx y hy
      simp only [List.getLast?_cons, ← List.getLastD_eq_getLast?, Option.mem_def,
        Option.some.injEq, List.head?_cons] at hx hy
      rw [← hx, ← hy, ← h.onBus]
      exact hlink
    · rw [hft]
      exact (List.getLastD_concat ..).symm
  refine ⟨ht, ht.follows_iff.mpr ?_⟩
  change merged false m.reported = merged false (m.switches ++ [link] ++ t.wheelLink.items)
  rw [hf.1, Channel.receive_eq_some.mp hq, hlt, List.append_assoc, List.singleton_append]

/-- A report is followed if there is room for it, or if it repeats the last one queued. -/
theorem link (h : Switched s m) (hf : m.Follows s) (attached : Bool)
    (hlt : t.wheelLink = (s.link attached).wheelLink) (hft : t.follow = s.follow) :
    Switched t (m.watch (.linked attached)) ∧
      ((m.watch (.linked attached)).Follows t ↔
        (s.wheelLink.items.length = wheelLinkLen →
          s.wheelLink.items.getLast? = some attached)) := by
  have ht : Switched t (m.watch (.linked attached)) :=
    ⟨h.chain, by rw [hft]; exact h.onBus⟩
  refine ⟨ht, ht.follows_iff.trans ?_⟩
  change merged false (m.reported ++ [attached]) =
    merged false (m.switches ++ t.wheelLink.items) ↔ _
  rw [merged_concat_congr hf.1, hlt, Bridge.link]
  cases hq : s.wheelLink.trySend attached with
  | some q =>
    obtain ⟨hlen, hitems⟩ := Channel.trySend_eq_some.mp hq
    have hroom : s.wheelLink.items.length ≠ wheelLinkLen := Nat.ne_of_lt hlen
    simp only [Option.getD_some, hitems, List.append_assoc, hroom, false_implies]
  | none =>
    have hlen := Channel.trySend_eq_none.mp hq
    simp only [Option.getD_none, merged_concat_eq_iff, hlen, true_implies]
    rw [List.getLastD_eq_getLast?, List.getLast?_append]
    cases hlast : s.wheelLink.items.getLast? with
    | none =>
      rw [List.getLast?_eq_none_iff.mp hlast] at hlen
      cases hlen
    | some last => simp

/-- Neither the queue nor the pull-up is touched. -/
theorem frame (h : Switched s m) (hf : m.Follows s) (hlt : t.wheelLink = s.wheelLink)
    (hft : t.follow.onBus = s.follow.onBus) : Switched t m ∧ m.Follows t := by
  have ht : Switched t m := ⟨h.chain, by rw [hft]; exact h.onBus⟩
  refine ⟨ht, ht.follows_iff.mpr ?_⟩
  rw [hlt]
  exact hf.1

end Switched

/-- The values a step reports. -/
theorem link_step {s t : Bridge} {m : Switching} {es : List BridgeEffect} (h : Switched s m)
    (hf : m.Follows s) (hstep : Moved s t es) :
    Switched t (es.foldl Switching.watch m) ∧
      ((es.foldl Switching.watch m).Follows t ↔ LosesNothing s m es t) := by
  have hframe : ∀ {t es}, t.wheelLink = s.wheelLink → t.follow.onBus = s.follow.onBus →
      es.foldl Switching.watch m = m → (∀ attached, .linked attached ∉ es) →
      Switched t (es.foldl Switching.watch m) ∧
        ((es.foldl Switching.watch m).Follows t ↔ LosesNothing s m es t) := by
    intro t es hlt hft hm hes
    obtain ⟨ht, htf⟩ := h.frame hf hlt hft
    rw [hm]
    exact ⟨ht, iff_of_true htf fun attached hmem => absurd hmem (hes attached)⟩
  have hlink : ∀ {t es} attached, t.wheelLink = (s.link attached).wheelLink →
      t.follow = s.follow → es.foldl Switching.watch m = m.watch (.linked attached) →
      (∀ v, .linked v ∈ es ↔ v = attached) →
      Switched t (es.foldl Switching.watch m) ∧
        ((es.foldl Switching.watch m).Follows t ↔ LosesNothing s m es t) := by
    intro t es attached hlt hft hm hes
    simpa only [hm, LosesNothing, hes, forall_eq] using h.link hf attached hlt hft
  cases hstep with
  | boots q hq hfollow =>
    have hoff : s.follow.onBus ≠ true := by simp [hfollow, Follow.onBus]
    exact And.imp_right (fun htf => iff_of_true htf (by simp [LosesNothing]))
      (h.switch hf hq hoff rfl rfl)
  | linkOff q hq hfollow =>
    have hon : s.follow.onBus ≠ false := by simp [hfollow, Follow.onBus]
    exact And.imp_right (fun htf => iff_of_true htf (by simp [LosesNothing]))
      (h.switch hf hq hon rfl rfl)
  | linkOn q hq hfollow =>
    have hoff : s.follow.onBus ≠ true := by simp [hfollow, Follow.onBus]
    exact And.imp_right (fun htf => iff_of_true htf (by simp [LosesNothing]))
      (h.switch hf hq hoff rfl rfl)
  | linkSame link q hq hsame =>
    exact And.imp_right (fun htf => iff_of_true htf (by simp [LosesNothing]))
      (h.same hf hq hsame rfl rfl)
  | followWoke wake hfollow => exact hframe rfl (by rw [hfollow]; rfl) rfl (by simp)
  | message p packet =>
    obtain ⟨q, n, heq⟩ := s.hidppMessage_eq packet
    rw [heq]
    exact hframe rfl rfl rfl (by simp)
  | detach | recovers => exact hlink false rfl rfl rfl (by simp)
  | awake | recovered | givesUp => exact hlink true rfl rfl rfl (by simp)
  | _ => exact hframe rfl rfl rfl (by simp)

/-- In every run, the pull-up follows the reports if and only if no report that differs
from the one before it is lost to a full queue. -/
theorem pullup_follows_iff (as : List BridgeAct) :
    bridge.Along Switching.watch PullupFollows Bridge.init Switching.init as ↔
      bridge.Along Switching.watch LosesNothing Bridge.init Switching.init as := by
  apply Machine.along_iff (fun s m => Switched s m ∧ m.Follows s)
  · intro s m a es t hi hstep hq
    obtain ⟨h, hf⟩ := hi
    exact ⟨(link_step h hf (moved hstep)).1, hq⟩
  · intro s m a es t hi hstep
    obtain ⟨h, hf⟩ := hi
    exact (link_step h hf (moved hstep)).2
  · refine ⟨⟨List.isChain_singleton _, rfl⟩, rfl, fun _ => ⟨rfl, rfl⟩⟩

/-- A wheel comes and goes three times more while `follow_wheel` sleeps; the last report
that it is there finds the queue full. -/
def flappingRun : List BridgeAct :=
  wakeUp 0x03 ++ [.follow, .detach, .follow] ++ wakeUp 0x03 ++ (.detach :: wakeUp 0x03) ++
    (.detach :: wakeUp 0x03) ++ [.elapse minDetach, .followTimer, .follow, .follow,
      .elapse minDetach, .followTimer, .follow, .follow, .elapse minDetach, .followTimer]

theorem last_attach_lost :
    (bridge.run Bridge.init flappingRun).isSome = true ∧
      ¬ bridge.Along Switching.watch PullupFollows Bridge.init Switching.init flappingRun := by
  decide +kernel

end WheelBridge
