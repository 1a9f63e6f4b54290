import WheelBridge.HubSteps

/-!
The hand-over between the events loop and the children. The slot holds one event and the
child reads it differently in each phase, so the two sides have to agree on which child
has which device whenever an event is put into a slot. Then a poll is what it would be
without slots: the child has a device, or has it no more, at once.
-/
namespace WheelBridge

/-- A hub without slots. -/
structure HubView where
  phase : EventsPhase
  portChild : Port → Option ChildId
  device : ChildId → Option Attached

def Hub.view (h : Hub) : HubView := ⟨h.phase, h.portChild, h.device⟩

/-- One poll of it. -/
inductive HubView.Polled (role : Role) (v : HubView) : HubView → List HubEffect → Prop
  | goesOn (phase : EventsPhase) (hc : phase.claim = none ∨ phase.claim = v.phase.claim)
      (hl : phase.logged = v.phase.logged)
      (hf : phase = .registering ∨ phase = .returned → v.phase = .registering) :
      Polled role v { v with phase := phase } []
  | ignored (port : Port) (hw : v.phase = .waiting) : Polled role v v [.detected port]
  | begins (port : Port) (c : ChildId) (hw : v.phase = .waiting) (hf : v.device c = none) :
      Polled role v { v with phase := .enumerating port c 1 } [.detected port]
  | unserved (port : Port) (hw : v.phase = .waiting) (hp : v.portChild port = none) :
      Polled role v v [.removed port]
  | removes (port : Port) (c : ChildId) (dev : Attached) (hw : v.phase = .waiting)
      (hp : v.portChild port = some c) (hd : v.device c = some dev) :
      Polled role v { v with
        portChild := Function.update v.portChild port none
        device := Function.update v.device c none }
        [.removed port, .signalled c .detached, .freed dev.info.deviceAddress]
  | logs (port : Port) (c : ChildId) (attempt : ℕ) (info : EnumerationInfo)
      (config : List UInt8) (hp : v.phase = .enumerating port c attempt) :
      Polled role v { v with phase := .logging port c info config }
        [.enumerated port info.deviceAddress]
  | rejects (port : Port) (c : ChildId) (info : EnumerationInfo) (config : List UInt8)
      (es : List HubEffect) (hr : v.phase.Ready port c info config es)
      (hk : classify role info = .hub) :
      Polled role v { v with phase := .waiting } (es ++ [.rejected port])
  | handsOver (port : Port) (c : ChildId) (info : EnumerationInfo) (config : List UInt8)
      (es : List HubEffect) (hr : v.phase.Ready port c info config es)
      (hk : classify role info ≠ .hub) (hf : v.device c = none) :
      Polled role v { v with
        phase := .waiting
        portChild := Function.update v.portChild port (some c)
        device := Function.update v.device c (some ⟨info, config, classify role info⟩) }
        (es ++ [.handedOver port c,
          .signalled c (.attached ⟨info, config, classify role info⟩)])

/-- Between two polls the slots are empty, and the busy children are those with a device. -/
structure Settled (h : Hub) : Prop where
  taken : ∀ c, h.slots c = none
  busy : ∀ c, h.busy c = true ↔ (h.device c).isSome = true

namespace Settled

variable {role : Role} {h : Hub}

theorem free_iff (hs : Settled h) (c : ChildId) : h.busy c = false ↔ h.device c = none := by
  have hbusy := hs.busy c
  cases hb : h.busy c <;> cases hd : h.device c <;> simp_all

/-- The children are polled and find nothing. -/
theorem poll_quiet {u : Hub} (hs : Settled u) (done : ChildId → Bool) :
    (u.pollChildren done).1.view = u.view ∧ (u.pollChildren done).2 = [] ∧
      Settled (u.pollChildren done).1 := by
  have hdevice : (u.pollChildren done).1.device = u.device := by
    funext c
    rw [Hub.device_pollChildren, hs.taken c]
    rfl
  have heffects : (u.pollChildren done).2 = Event.effects 0 (u.slots 0) (u.device 0) :=
    Hub.pollChildren_effects (fun d _ => hs.taken d) done
  rw [hs.taken 0] at heffects
  refine ⟨?_, heffects, fun _ => rfl, ?_⟩
  · unfold Hub.view
    rw [hdevice]
    rfl
  · intro c
    rw [hdevice]
    exact hs.busy c

/-- One child finds an event. -/
theorem poll_signalled {u : Hub} {slots : ChildId → Signal Event} (hs : ∀ d, slots d = none)
    {c : ChildId} {ev : Event} (hu : u.slots = Function.update slots c (some ev))
    (hbusy : ∀ d, u.busy d = true ↔
      (Function.update u.device c (Event.next (some ev) (u.device c)) d).isSome = true)
    (done : ChildId → Bool) :
    (u.pollChildren done).1.view =
        { u.view with
          device := Function.update u.device c (Event.next (some ev) (u.device c)) } ∧
      (u.pollChildren done).2 = Event.effects c (some ev) (u.device c) ∧
      Settled (u.pollChildren done).1 := by
  have hdevice : (u.pollChildren done).1.device =
      Function.update u.device c (Event.next (some ev) (u.device c)) := by
    funext d
    rw [Hub.device_pollChildren, hu]
    by_cases hd : d = c
    · subst hd
      rw [Function.update_self, Function.update_self]
    · rw [Function.update_of_ne hd, Function.update_of_ne hd, hs d]
      rfl
  have heffects : (u.pollChildren done).2 = Event.effects c (u.slots c) (u.device c) := by
    apply Hub.pollChildren_effects
    intro d hd
    rw [hu, Function.update_of_ne hd]
    exact hs d
  rw [hu, Function.update_self] at heffects
  refine ⟨?_, heffects, fun _ => rfl, ?_⟩
  · unfold Hub.view
    rw [hdevice]
    rfl
  · intro d
    rw [hdevice]
    exact hbusy d

/-- An event put into a slot that is empty. -/
theorem signal (hs : Settled h) (c : ChildId) (ev : Event) :
    (h.signal c ev).2 = [.signalled c ev] := by
  unfold Hub.signal
  rw [hs.taken c]

end Settled

/-- A poll of the hub is one of the hub without slots, and the sides agree again after it. -/
theorem polled {role : Role} {h t : Hub} {a : HubAct} {es : List HubEffect} (ht : h.Tables)
    (hs : Settled h) (hstep : (hub role).step h a = some (t, es)) :
    h.view.Polled role t.view es ∧ Settled t := by
  obtain ⟨u, fs, hu, rfl, rfl⟩ := Hub.step_eq_some hstep
  -- Nothing has been put into a slot: `u` differs from `h` in its phase at most.
  have hquiet : ∀ {v : Hub}, Settled v → h.view.Polled role v.view fs →
      h.view.Polled role (v.pollChildren a.done).1.view (fs ++ (v.pollChildren a.done).2) ∧
        Settled (v.pollChildren a.done).1 := by
    intro v hv hp
    obtain ⟨hview, heffects, hsettled⟩ := hv.poll_quiet a.done
    rw [hview, heffects, List.append_nil]
    exact ⟨hp, hsettled⟩
  cases hu with
  | goesOn phase hc hl hf => exact hquiet ⟨hs.taken, hs.busy⟩ (.goesOn phase hc hl hf)
  | ignored port hw => exact hquiet ⟨hs.taken, hs.busy⟩ (.ignored port hw)
  | begins port c hw hf =>
    exact hquiet ⟨hs.taken, hs.busy⟩ (.begins port c hw ((hs.free_iff c).mp hf))
  | unserved port hw hp => exact hquiet ⟨hs.taken, hs.busy⟩ (.unserved port hw hp)
  | logs port c attempt info config hp =>
    exact hquiet ⟨hs.taken, hs.busy⟩ (.logs port c attempt info config hp)
  | rejects port c info config es hr hk =>
    exact hquiet ⟨hs.taken, hs.busy⟩ (.rejects port c info config es hr hk)
  | removes port c hw hp =>
    obtain ⟨dev, hdev⟩ := Option.isSome_iff_exists.mp ((hs.busy c).mp (ht.busy port c hp))
    rw [hs.signal c]
    have hpoll := Settled.poll_signalled (u := { h with
      portChild := Function.update h.portChild port none
      busy := Function.update h.busy c false
      slots := Function.update h.slots c (some .detached) }) hs.taken rfl ?_ a.done
    · obtain ⟨hview, heffects, hsettled⟩ := hpoll
      have hfreed : Event.effects c (some .detached) (h.device c) =
          [.freed dev.info.deviceAddress] := by
        rw [hdev]
        rfl
      rw [hview, heffects]
      refine ⟨?_, hsettled⟩
      change h.view.Polled role _ (_ ++ Event.effects c (some .detached) (h.device c))
      rw [hfreed]
      exact .removes port c dev hw hp hdev
    · intro d
      change Function.update h.busy c false d = true ↔
        (Function.update h.device c none d).isSome = true
      by_cases hd : d = c
      · subst hd
        simp
      · rw [Function.update_of_ne hd, Function.update_of_ne hd]
        exact hs.busy d
  | handsOver port c info config es hr hk =>
    have hfree := (hs.free_iff c).mp (ht.free port c hr.claim)
    rw [hs.signal c]
    have hpoll := Settled.poll_signalled (u := { h with
      phase := .waiting
      portChild := Function.update h.portChild port (some c)
      busy := Function.update h.busy c true
      slots := Function.update h.slots c
        (some (.attached ⟨info, config, classify role info⟩)) }) hs.taken rfl ?_ a.done
    · obtain ⟨hview, heffects, hsettled⟩ := hpoll
      have hnext : Event.next (some (.attached ⟨info, config, classify role info⟩))
          (h.device c) = some ⟨info, config, classify role info⟩ := by
        rw [hfree]
        rfl
      have hnone : Event.effects c (some (.attached ⟨info, config, classify role info⟩))
          (h.device c) = [] := by
        rw [hfree]
        rfl
      rw [hview, heffects]
      refine ⟨?_, hsettled⟩
      change h.view.Polled role { h.view with
          phase := .waiting
          portChild := Function.update h.portChild port (some c)
          device := Function.update h.device c (Event.next _ (h.device c)) }
        (_ ++ Event.effects c _ (h.device c))
      rw [hnext, hnone, List.append_nil]
      exact .handsOver port c info config es hr hk hfree
    · intro d
      change Function.update h.busy c true d = true ↔
        (Function.update h.device c (Event.next _ (h.device c)) d).isSome = true
      by_cases hd : d = c
      · subst hd
        simp [hfree, Event.next]
      · rw [Function.update_of_ne hd, Function.update_of_ne hd]
        exact hs.busy d

/-- The device the events loop attached last to each child, until it detached it. -/
abbrev Attachments := ChildId → Option Attached

def Attachments.watch (m : Attachments) : HubEffect → Attachments
  | .signalled c (.attached dev) => Function.update m c (some dev)
  | .signalled c .detached => Function.update m c none
  | _ => m

/-- No event is overwritten in a slot, or discarded by a child; after the poll the children
that hold a device are the busy ones, and it is the one attached to them last. -/
structure NoEventLost (m : Attachments) (es : List HubEffect) (t : Hub) : Prop where
  kept : ∀ c ev, .overwritten c ev ∉ es
  used : ∀ c ev, .discarded c ev ∉ es
  taken : ∀ c, t.slots c = none
  busy : ∀ c, t.busy c = true ↔ ((t.child c).device).isSome = true
  attached : ∀ c, (t.child c).device = es.foldl Attachments.watch m c

theorem ready_watch {phase : EventsPhase} {port : Port} {c : ChildId} {info : EnumerationInfo}
    {config : List UInt8} {es : List HubEffect} (hr : phase.Ready port c info config es)
    (m : Attachments) : es.foldl Attachments.watch m = m := by
  cases hr <;> rfl

/-- Without slots no event can be lost. -/
theorem polled_spec {role : Role} {v w : HubView} {es : List HubEffect}
    (hp : v.Polled role w es) :
    (∀ c ev, .overwritten c ev ∉ es) ∧ (∀ c ev, .discarded c ev ∉ es) ∧
      w.device = es.foldl Attachments.watch v.device := by
  cases hp with
  | goesOn phase hc hl hf => exact ⟨by simp, by simp, rfl⟩
  | ignored port hw => exact ⟨by simp, by simp, rfl⟩
  | begins port c hw hf => exact ⟨by simp, by simp, rfl⟩
  | unserved port hw hp => exact ⟨by simp, by simp, rfl⟩
  | logs port c attempt info config hp => exact ⟨by simp, by simp, rfl⟩
  | removes port c dev hw hp hd => exact ⟨by simp, by simp, rfl⟩
  | rejects port c info config es hr hk =>
    rw [List.foldl_append, ready_watch hr]
    cases hr <;> exact ⟨by simp, by simp, rfl⟩
  | handsOver port c info config es hr hk hf =>
    rw [List.foldl_append, ready_watch hr]
    cases hr <;> exact ⟨by simp, by simp, rfl⟩

/-- In every run no event is lost between the events loop and the children, and after every
poll a child holds a device if and only if it is busy, the one attached to it last. -/
theorem no_event_lost (role : Role) (as : List HubAct) :
    (hub role).Along Attachments.watch (fun _ m es t => NoEventLost m es t) Hub.init
      (fun _ => none) as := by
  apply Machine.along_always (fun h m => h.Tables ∧ Settled h ∧ h.device = m)
  · intro h m a es t hi hstep
    obtain ⟨htables, hs, rfl⟩ := hi
    obtain ⟨hp, hsettled⟩ := polled htables hs hstep
    obtain ⟨hkept, hused, hdevice⟩ := polled_spec hp
    obtain ⟨u, fs, hu, rfl, rfl⟩ := Hub.step_eq_some hstep
    refine ⟨⟨(htables.advanced hu).pollChildren a.done, hsettled, hdevice⟩, ?_⟩
    exact ⟨hkept, hused, hsettled.taken, hsettled.busy, fun c => congrFun hdevice c⟩
  · refine ⟨Hub.tables_init, ⟨fun _ => rfl, fun c => ?_⟩, rfl⟩
    simp [Hub.init, Hub.device, Child.device]

end WheelBridge
