import Mathlib.Data.List.FinRange
import WheelBridge.Hub
import WheelBridge.Ownership

/-!
Everything the events loop of a hub can do in one poll, stated once, and what holds of its
two tables whatever happens on the ports.
-/
namespace WheelBridge

/-- Where one element alone yields something, the rest of the list does not matter. -/
theorem flatMap_only {α β : Type*} {f : α → List β} {x : α} {l : List α} (hl : l.Nodup)
    (hx : x ∈ l) (hf : ∀ y, y ≠ x → f y = []) : l.flatMap f = f x := by
  induction l with
  | nil => cases hx
  | cons y l ih =>
    obtain ⟨hy, hl⟩ := List.nodup_cons.mp hl
    rw [List.flatMap_cons]
    rcases List.mem_cons.mp hx with rfl | hx
    · have hrest : l.flatMap f = [] := by
        apply List.flatMap_eq_nil_iff.mpr
        intro z hz
        apply hf
        intro heq
        rw [heq] at hz
        exact hy hz
      rw [hrest, List.append_nil]
    · have hne : y ≠ x := by
        intro heq
        rw [heq] at hy
        exact hy hx
      rw [hf y hne, List.nil_append, ih hl hx]

namespace EventsPhase

/-- The port being enumerated and the child that is to have its device. -/
def claim : EventsPhase → Option (Port × ChildId)
  | .enumerating port c _ | .logging port c _ _ => some (port, c)
  | .registering | .waiting | .backoff | .stopped | .returned => none

/-- The device that has been enumerated and not yet handed over. -/
def logged : EventsPhase → Option EnumerationInfo
  | .logging _ _ info _ => some info
  | .enumerating _ _ _ | .registering | .waiting | .backoff | .stopped | .returned => none

end EventsPhase

/-- Which device a child holds after a poll that found `slot` in its slot. -/
def Event.next (slot : Signal Event) (device : Option Attached) : Option Attached :=
  match slot with
  | none => device
  | some .detached => none
  | some (.attached dev) => device.or (some dev)

/-- What such a poll does: an event that does not fit the child's phase is discarded. -/
def Event.effects (c : ChildId) (slot : Signal Event) (device : Option Attached) :
    List HubEffect :=
  match slot, device with
  | none, _ | some (.attached _), none => []
  | some .detached, some dev => [.freed dev.info.deviceAddress]
  | some ev, _ => [.discarded c ev]

theorem Child.poll_device (c : ChildId) (done : Bool) (slot : Signal Event) (x : Child) :
    (x.poll c done slot).1.device = Event.next slot x.device := by
  rcases slot with _ | ev
  · cases x <;> cases done <;> rfl
  · cases ev <;> cases x <;> cases done <;> rfl

theorem Child.poll_effects (c : ChildId) (done : Bool) (slot : Signal Event) (x : Child) :
    (x.poll c done slot).2 = Event.effects c slot x.device := by
  rcases slot with _ | ev
  · cases x <;> cases done <;> rfl
  · cases ev <;> cases x <;> cases done <;> rfl

theorem Event.mem_effects {c : ChildId} {slot : Signal Event} {device : Option Attached}
    {e : HubEffect} (he : e ∈ Event.effects c slot device) :
    (∃ dev, slot = some .detached ∧ device = some dev ∧ e = .freed dev.info.deviceAddress) ∨
      ∃ ev, slot = some ev ∧ e = .discarded c ev := by
  rcases slot with _ | ev
  · cases he
  · cases ev with
    | attached dev =>
      cases device with
      | none => cases he
      | some held => exact Or.inr ⟨_, rfl, List.mem_singleton.mp he⟩
    | detached =>
      cases device with
      | none => exact Or.inr ⟨_, rfl, List.mem_singleton.mp he⟩
      | some dev => exact Or.inl ⟨dev, rfl, rfl, List.mem_singleton.mp he⟩

theorem EventsPhase.claim_of_logged {phase : EventsPhase} {info : EnumerationInfo}
    (hl : phase.logged = some info) : ∃ port c, phase.claim = some (port, c) := by
  cases phase with
  | logging port c _ _ => exact ⟨port, c, rfl⟩
  | _ => cases hl

/-- A device is ready to be handed over: since an earlier poll, or enumerated in this one. -/
inductive EventsPhase.Ready (phase : EventsPhase) (port : Port) (c : ChildId)
    (info : EnumerationInfo) (config : List UInt8) : List HubEffect → Prop
  | earlier (hp : phase = .logging port c info config) : Ready phase port c info config []
  | now (attempt : ℕ) (hp : phase = .enumerating port c attempt) :
      Ready phase port c info config [.enumerated port info.deviceAddress]

theorem EventsPhase.Ready.claim {phase : EventsPhase} {port : Port} {c : ChildId}
    {info : EnumerationInfo} {config : List UInt8} {es : List HubEffect}
    (hr : phase.Ready port c info config es) : phase.claim = some (port, c) := by
  cases hr with
  | earlier hp => rw [hp]; rfl
  | now attempt hp => rw [hp]; rfl

namespace Hub

inductive Advanced (role : Role) (h : Hub) : Hub → List HubEffect → Prop
  | goesOn (phase : EventsPhase) (hc : phase.claim = none ∨ phase.claim = h.phase.claim)
      (hl : phase.logged = h.phase.logged)
      (hf : phase = .registering ∨ phase = .returned → h.phase = .registering) :
      Advanced role h { h with phase := phase } []
  | ignored (port : Port) (hw : h.phase = .waiting) : Advanced role h h [.detected port]
  | begins (port : Port) (c : ChildId) (hw : h.phase = .waiting) (hf : h.busy c = false) :
      Advanced role h { h with phase := .enumerating port c 1 } [.detected port]
  | unserved (port : Port) (hw : h.phase = .waiting) (hp : h.portChild port = none) :
      Advanced role h h [.removed port]
  | removes (port : Port) (c : ChildId) (hw : h.phase = .waiting)
      (hp : h.portChild port = some c) :
      Advanced role h { h with
        portChild := Function.update h.portChild port none
        busy := Function.update h.busy c false
        slots := Function.update h.slots c (some .detached) }
        (.removed port :: (h.signal c .detached).2)
  | logs (port : Port) (c : ChildId) (attempt : ℕ) (info : EnumerationInfo)
      (config : List UInt8) (hp : h.phase = .enumerating port c attempt) :
      Advanced role h { h with phase := .logging port c info config }
        [.enumerated port info.deviceAddress]
  | rejects (port : Port) (c : ChildId) (info : EnumerationInfo) (config : List UInt8)
      (es : List HubEffect) (hr : h.phase.Ready port c info config es)
      (hk : classify role info = .hub) :
      Advanced role h { h with phase := .waiting } (es ++ [.rejected port])
  | handsOver (port : Port) (c : ChildId) (info : EnumerationInfo) (config : List UInt8)
      (es : List HubEffect) (hr : h.phase.Ready port c info config es)
      (hk : classify role info ≠ .hub) :
      Advanced role h { h with
        phase := .waiting
        portChild := Function.update h.portChild port (some c)
        busy := Function.update h.busy c true
        slots := Function.update h.slots c
          (some (.attached ⟨info, config, classify role info⟩)) }
        (es ++ .handedOver port c :: (h.signal c (.attached ⟨info, config, classify role info⟩)).2)

theorem busy_of_free {h : Hub} {c : ChildId} (hf : h.free = some c) : h.busy c = false := by
  have hc := List.find?_some hf
  simpa using hc

variable {role : Role} {h t : Hub} {es : List HubEffect}

theorem advanced_handOver {port : Port} {c : ChildId} {info : EnumerationInfo}
    {config : List UInt8} {fs : List HubEffect} (hr : h.phase.Ready port c info config fs)
    (ht : h.handOver role port c info config = (t, es)) : Advanced role h t (fs ++ es) := by
  unfold handOver at ht
  dsimp only at ht
  split at ht
  · next hk =>
    cases ht
    exact .rejects port c info config fs hr hk
  · next hk =>
    cases ht
    exact .handsOver port c info config fs hr hk

theorem advanced {progress : Progress} (ht : h.advance role progress = some (t, es)) :
    Advanced role h t es := by
  cases progress <;> simp only [advance] at ht
  case idle =>
    split at ht
    · cases ht
    · next hp =>
      cases ht
      exact .goesOn h.phase (Or.inr rfl) rfl fun hf => hf.resolve_right hp
  case registered ok opened =>
    split at ht
    · next hp =>
      cases ht
      refine .goesOn _ (Or.inl ?_) ?_ fun _ => hp
      · cases ok <;> cases opened <;> rfl
      · rw [hp]
        cases ok <;> cases opened <;> rfl
    · cases ht
  case detected port =>
    split at ht
    · next hw =>
      unfold detected at ht
      split at ht <;> cases ht
      · exact .ignored port hw
      · next c hf => exact .begins port c hw (busy_of_free hf)
    · cases ht
  case removed port =>
    split at ht
    · next hw =>
      unfold removed at ht
      split at ht <;> cases ht
      · next hp => exact .unserved port hw hp
      · next c hp => exact .removes port c hw hp
    · cases ht
  case otherEvent =>
    split at ht <;> cases ht
    next hw => exact .goesOn h.phase (Or.inr rfl) rfl (by rw [hw]; nofun)
  case error =>
    split at ht <;> cases ht
    next hw => exact .goesOn .backoff (Or.inl rfl) (by rw [hw]; rfl) nofun
  case backoffOver =>
    split at ht <;> cases ht
    next hw => exact .goesOn .waiting (Or.inl rfl) (by rw [hw]; rfl) nofun
  case attemptFailed =>
    split at ht
    · next port c attempt hp =>
      cases ht
      split
      · exact .goesOn _ (Or.inr (by rw [hp]; rfl)) (by rw [hp]; rfl) nofun
      · exact .goesOn _ (Or.inl rfl) (by rw [hp]; rfl) nofun
    · cases ht
  case enumerated info config opened =>
    split at ht
    · next port c attempt hp =>
      split at ht
      · cases ht
        exact .logs port c attempt info config hp
      · cases ht
        exact advanced_handOver (.now attempt hp) rfl
    · cases ht
  case logged =>
    split at ht
    · next port c info config hp => exact advanced_handOver (.earlier hp) (Option.some.inj ht)
    · cases ht

/-- A poll is what the events loop does, then what the children do. -/
theorem step_eq_some {a : HubAct} (ht : (hub role).step h a = some (t, es)) :
    ∃ u fs, Advanced role h u fs ∧ (u.pollChildren a.done).1 = t ∧
      fs ++ (u.pollChildren a.done).2 = es := by
  change h.step role a = some (t, es) at ht
  unfold step at ht
  cases hu : h.advance role a.progress with
  | none =>
    simp only [hu] at ht
    cases ht
  | some r =>
    simp only [hu] at ht
    cases ht
    exact ⟨r.1, r.2, advanced hu, rfl, rfl⟩

/-- The devices the children hold. -/
def device (h : Hub) (c : ChildId) : Option Attached := (h.child c).device

theorem device_pollChildren (h : Hub) (done : ChildId → Bool) (c : ChildId) :
    (h.pollChildren done).1.device c = Event.next (h.slots c) (h.device c) :=
  Child.poll_device c (done c) (h.slots c) (h.child c)

theorem mem_pollChildren {h : Hub} {done : ChildId → Bool} {e : HubEffect}
    (he : e ∈ (h.pollChildren done).2) :
    ∃ c, e ∈ Event.effects c (h.slots c) (h.device c) := by
  obtain ⟨c, -, hc⟩ := List.mem_flatMap.mp he
  rw [Child.poll_effects] at hc
  exact ⟨c, hc⟩

/-- With an event in one slot at most, what happens is what its child does. -/
theorem pollChildren_effects {h : Hub} {c : ChildId} (hs : ∀ d, d ≠ c → h.slots d = none)
    (done : ChildId → Bool) :
    (h.pollChildren done).2 = Event.effects c (h.slots c) (h.device c) := by
  have hpolls : (h.pollChildren done).2 =
      (List.finRange children).flatMap fun d => Event.effects d (h.slots d) (h.device d) := by
    unfold pollChildren
    simp only [Child.poll_effects]
    rfl
  rw [hpolls]
  apply flatMap_only (List.nodup_finRange children) (List.mem_finRange c)
  intro d hd
  rw [hs d hd]
  rfl

/-- Every port that is served has a child of its own, and the child is busy; a child that
waits for an enumeration is not. -/
structure Tables (h : Hub) : Prop where
  busy : ∀ port c, h.portChild port = some c → h.busy c = true
  unshared : ∀ p q c, h.portChild p = some c → h.portChild q = some c → p = q
  free : ∀ port c, h.phase.claim = some (port, c) → h.busy c = false

theorem tables_init : Tables init where
  busy port c hp := by cases hp
  unshared p q c hp := by cases hp
  free port c hp := by cases hp

theorem Tables.pollChildren (ht : Tables h) (done : ChildId → Bool) :
    Tables (h.pollChildren done).1 :=
  ⟨ht.busy, ht.unshared, ht.free⟩

namespace Tables

/-- The loop goes on, or waits again. -/
theorem phase (ht : Tables h) {phase : EventsPhase}
    (hc : phase.claim = none ∨ phase.claim = h.phase.claim) : Tables { h with phase := phase } where
  busy := ht.busy
  unshared := ht.unshared
  free port c hp := by
    rcases hc with hc | hc
    · change phase.claim = some (port, c) at hp
      rw [hc] at hp
      cases hp
    · exact ht.free port c (hc.symm.trans hp)

theorem begin (ht : Tables h) {port : Port} {c : ChildId} (hf : h.busy c = false) :
    Tables { h with phase := .enumerating port c 1 } where
  busy := ht.busy
  unshared := ht.unshared
  free port' c' hp := by
    cases hp
    exact hf

theorem remove (ht : Tables h) {port : Port} {c : ChildId} (hw : h.phase = .waiting)
    (hp : h.portChild port = some c) (slots : ChildId → Signal Event) :
    Tables { h with
      portChild := Function.update h.portChild port none
      busy := Function.update h.busy c false
      slots := slots } where
  busy port' c' hp' := by
    obtain ⟨hne, hkept⟩ := update_none_eq_some.mp hp'
    have hc : c' ≠ c := by
      intro heq
      rw [heq] at hkept
      exact hne (ht.unshared port' port c hkept hp)
    change Function.update h.busy c false c' = true
    rw [Function.update_of_ne hc]
    exact ht.busy port' c' hkept
  unshared p q c' hp' hq' :=
    ht.unshared p q c' (update_none_eq_some.mp hp').2 (update_none_eq_some.mp hq').2
  free port' c' hp' := by
    change h.phase.claim = _ at hp'
    rw [hw] at hp'
    cases hp'

theorem handOver (ht : Tables h) {port : Port} {c : ChildId} (hc : h.busy c = false)
    (slots : ChildId → Signal Event) :
    Tables { h with
      phase := .waiting
      portChild := Function.update h.portChild port (some c)
      busy := Function.update h.busy c true
      slots := slots } where
  busy port' c' hp' := by
    change Function.update h.busy c true c' = true
    rcases update_some_eq_some.mp hp' with ⟨-, rfl⟩ | ⟨-, hp'⟩
    · rw [Function.update_self]
    · rw [Function.update_apply, ht.busy port' c' hp', ite_self]
  unshared p q c' hp' hq' := by
    -- The child was free, so no other port has it.
    have hother : ∀ r, h.portChild r ≠ some c := by
      intro r hr
      have hbusy := ht.busy r c hr
      rw [hc] at hbusy
      cases hbusy
    rcases update_some_eq_some.mp hp' with ⟨rfl, rfl⟩ | ⟨-, hp⟩
    · rcases update_some_eq_some.mp hq' with ⟨rfl, -⟩ | ⟨-, hq⟩
      · rfl
      · exact absurd hq (hother q)
    · rcases update_some_eq_some.mp hq' with ⟨-, rfl⟩ | ⟨-, hq⟩
      · exact absurd hp (hother p)
      · exact ht.unshared p q c' hp hq
  free port' c' hp' := by cases hp'

theorem advanced (ht : Tables h) (ha : Advanced role h t es) : Tables t := by
  cases ha with
  | goesOn phase hc hl hf => exact ht.phase hc
  | ignored port hw => exact ht
  | begins port c hw hf => exact ht.begin hf
  | unserved port hw hp => exact ht
  | removes port c hw hp => exact ht.remove hw hp _
  | logs port c attempt info config hp => exact ht.phase (Or.inr (by rw [hp]; rfl))
  | rejects port c info config es hr hk => exact ht.phase (Or.inl rfl)
  | handsOver port c info config es hr hk => exact ht.handOver (ht.free port c hr.claim) _

end Tables

end Hub

end WheelBridge
