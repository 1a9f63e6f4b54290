import WheelBridge.HubSteps

/-!
The table of the ports that are served and the list of the children that are busy. A
device that is handed over on a port takes the port's entry; the entry's old child, if
its device was never reported removed, is then busy for no port.
-/
namespace WheelBridge

/-- A child is busy if and only if exactly one port has it, and no two ports share one. -/
structure SlotTable (h : Hub) : Prop where
  busy_iff : ∀ c, h.busy c = true ↔ ∃! port, h.portChild port = some c
  unshared : ∀ p q c, h.portChild p = some c → h.portChild q = some c → p = q

instance (h : Hub) : Decidable (SlotTable h) :=
  decidable_of_iff
    ((∀ c, h.busy c = true ↔ ∃ p, h.portChild p = some c ∧ ∀ q, h.portChild q = some c → q = p) ∧
      ∀ p q c, h.portChild p = some c → h.portChild q = some c → p = q)
    ⟨fun h => ⟨h.1, h.2⟩, fun h => ⟨h.busy_iff, h.unshared⟩⟩

/-- Every busy child serves a port. -/
def AllServed (h : Hub) : Prop := ∀ c, h.busy c = true → ∃ port, h.portChild port = some c

/-- No device is handed over on a port that still has an earlier one. -/
def HandsOverFree (h : Hub) (es : List HubEffect) : Prop :=
  ∀ port c, .handedOver port c ∈ es → h.portChild port = none

theorem slotTable_iff {h : Hub} (ht : h.Tables) : SlotTable h ↔ AllServed h := by
  constructor
  · intro hs c hc
    exact ((hs.busy_iff c).mp hc).exists
  · intro hs
    refine ⟨?_, ht.unshared⟩
    intro c
    constructor
    · intro hc
      obtain ⟨port, hp⟩ := hs c hc
      exact ⟨port, hp, fun q hq => ht.unshared q port c hq hp⟩
    · intro hex
      obtain ⟨port, hp, -⟩ := hex
      exact ht.busy port c hp

theorem handedOver_not_mem_signal (h : Hub) (c d : ChildId) (ev : Event) (port : Port) :
    .handedOver port c ∉ (h.signal d ev).2 := by
  unfold Hub.signal
  dsimp only
  split <;> simp

theorem handedOver_not_mem_ready {phase : EventsPhase} {port p : Port} {c d : ChildId}
    {info : EnumerationInfo} {config : List UInt8} {es : List HubEffect}
    (hr : phase.Ready port c info config es) : .handedOver p d ∉ es := by
  cases hr <;> simp

theorem handedOver_not_mem_poll (h : Hub) (done : ChildId → Bool) (port : Port) (c : ChildId) :
    .handedOver port c ∉ (h.pollChildren done).2 := by
  intro hmem
  obtain ⟨d, hd⟩ := Hub.mem_pollChildren hmem
  rcases Event.mem_effects hd with ⟨dev, -, -, he⟩ | ⟨ev, -, he⟩
  · cases he
  · cases he

theorem allServed_remove {h : Hub} {port : Port} {c : ChildId} (hs : AllServed h)
    (hp : h.portChild port = some c) (slots : ChildId → Signal Event) :
    AllServed { h with
      portChild := Function.update h.portChild port none
      busy := Function.update h.busy c false
      slots := slots } := by
  intro c' hc'
  change Function.update h.busy c false c' = true at hc'
  have hne : c' ≠ c := by
    intro heq
    rw [heq, Function.update_self] at hc'
    cases hc'
  rw [Function.update_of_ne hne] at hc'
  obtain ⟨q, hq⟩ := hs c' hc'
  refine ⟨q, update_none_eq_some.mpr ⟨?_, hq⟩⟩
  intro heq
  rw [heq, hp] at hq
  exact hne (Option.some.inj hq).symm

theorem allServed_handOver_iff {h : Hub} {port : Port} {c : ChildId} (ht : h.Tables)
    (hs : AllServed h) (hc : h.busy c = false) (slots : ChildId → Signal Event) :
    AllServed { h with
      phase := .waiting
      portChild := Function.update h.portChild port (some c)
      busy := Function.update h.busy c true
      slots := slots } ↔ h.portChild port = none := by
  constructor
  · intro hall
    by_contra hne
    obtain ⟨old, hold⟩ := Option.ne_none_iff_exists'.mp hne
    -- The entry's old child is still busy, and no other port had it.
    have hbusy := ht.busy port old hold
    have hoc : old ≠ c := by
      intro heq
      rw [heq, hc] at hbusy
      cases hbusy
    have hstill : Function.update h.busy c true old = true := by
      rw [Function.update_of_ne hoc, hbusy]
    obtain ⟨q, hq⟩ := hall old hstill
    rcases update_some_eq_some.mp hq with ⟨-, heq⟩ | ⟨hqp, hq⟩
    · exact hoc heq.symm
    · exact hqp (ht.unshared q port old hq hold)
  · intro hnone c' hc'
    change Function.update h.busy c true c' = true at hc'
    by_cases heq : c' = c
    · exact ⟨port, update_some_eq_some.mpr (Or.inl ⟨rfl, heq.symm⟩)⟩
    · rw [Function.update_of_ne heq] at hc'
      obtain ⟨q, hq⟩ := hs c' hc'
      refine ⟨q, update_some_eq_some.mpr (Or.inr ⟨?_, hq⟩)⟩
      intro hqp
      rw [hqp, hnone] at hq
      cases hq

/-- After the events loop's part of a poll every busy child serves a port, if and only if
nothing was handed over on a port that was taken. -/
theorem allServed_iff {role : Role} {h t : Hub} {es : List HubEffect} (ht : h.Tables)
    (hs : AllServed h) (ha : h.Advanced role t es) : AllServed t ↔ HandsOverFree h es := by
  have hquiet : AllServed t → (∀ port c, .handedOver port c ∉ es) →
      (AllServed t ↔ HandsOverFree h es) := by
    intro hall hnot
    exact iff_of_true hall fun port c hmem => absurd hmem (hnot port c)
  cases ha with
  | goesOn phase hc hl hf => exact hquiet hs fun _ _ => List.not_mem_nil
  | ignored port hw => exact hquiet hs (by simp)
  | begins port c hw hf => exact hquiet hs (by simp)
  | unserved port hw hp => exact hquiet hs (by simp)
  | logs port c attempt info config hp => exact hquiet hs (by simp)
  | rejects port c info config es hr hk =>
    apply hquiet hs
    intro p d hmem
    rcases List.mem_append.mp hmem with hmem | hmem
    · exact handedOver_not_mem_ready hr hmem
    · simp at hmem
  | removes port c hw hp =>
    apply hquiet (allServed_remove hs hp _)
    intro p d hmem
    rcases List.mem_cons.mp hmem with hmem | hmem
    · cases hmem
    · exact handedOver_not_mem_signal h d c .detached p hmem
  | handsOver port c info config es hr hk =>
    rw [allServed_handOver_iff ht hs (ht.free port c hr.claim)]
    constructor
    · intro hnone p d hmem
      rcases List.mem_append.mp hmem with hmem | hmem
      · exact absurd hmem (handedOver_not_mem_ready hr)
      · rcases List.mem_cons.mp hmem with hmem | hmem
        · cases hmem
          exact hnone
        · exact absurd hmem (handedOver_not_mem_signal h d c _ p)
    · intro hfree
      exact hfree port c (List.mem_append_right _ (List.mem_cons_self ..))

theorem poll_slotTable_iff {role : Role} {h t : Hub} {a : HubAct} {es : List HubEffect}
    (ht : h.Tables) (hs : AllServed h) (hstep : (hub role).step h a = some (t, es)) :
    t.Tables ∧ (SlotTable t ↔ HandsOverFree h es) := by
  obtain ⟨u, fs, hu, rfl, rfl⟩ := Hub.step_eq_some hstep
  have htables := (ht.advanced hu).pollChildren a.done
  refine ⟨htables, ?_⟩
  rw [slotTable_iff htables]
  have hsame : AllServed (u.pollChildren a.done).1 ↔ AllServed u := Iff.rfl
  rw [hsame, allServed_iff ht hs hu]
  constructor
  · intro hfree port c hmem
    rcases List.mem_append.mp hmem with hmem | hmem
    · exact hfree port c hmem
    · exact absurd hmem (handedOver_not_mem_poll u a.done port c)
  · intro hfree port c hmem
    exact hfree port c (List.mem_append_left _ hmem)

/-- In every run the table is in order after each poll, if and only if no device is handed
over on a port whose entry is taken. -/
theorem slot_table_iff (role : Role) (as : List HubAct) :
    (hub role).Along (fun _ _ => ()) (fun _ _ _ t => SlotTable t) Hub.init () as ↔
      (hub role).Along (fun _ _ => ()) (fun h _ es _ => HandsOverFree h es) Hub.init () as := by
  apply Machine.along_iff (fun h _ => h.Tables ∧ AllServed h)
  · intro h _ a es t hi hstep hq
    have ht := (poll_slotTable_iff hi.1 hi.2 hstep).1
    exact ⟨ht, (slotTable_iff ht).mp hq⟩
  · intro h _ a es t hi hstep
    exact (poll_slotTable_iff hi.1 hi.2 hstep).2
  · exact ⟨Hub.tables_init, fun c hc => by cases hc⟩

/-- A gamepad at address 5, without strings. -/
def gamepad : EnumerationInfo := ⟨5, 0x0f0d, 0x00ee, 0x00, ⟨0, 0, 0⟩⟩

/-- It is taken off port 0 and put back between two polls of the hub. -/
def replugged : List HubAct :=
  [.registered true true, .detected 0, .enumerated gamepad [] true, .detected 0,
    .enumerated { gamepad with deviceAddress := 6 } [] true, .removed 0].map
      fun progress => ⟨progress, fun _ => false⟩

theorem replugged_child_lost :
    ((hub .wheel).run Hub.init replugged).isSome = true ∧
      ¬ (hub .wheel).Along (fun _ _ => ()) (fun _ _ _ t => SlotTable t) Hub.init () replugged := by
  decide +kernel

end WheelBridge
