import WheelBridge.HostTask
import WheelBridge.HubHandover
import WheelBridge.HubTable

/-!
The life of a USB address: given out when a device is enumerated, it is to be freed once,
by the time the device is removed or rejected, or the hub that carried it is gone.
-/
namespace WheelBridge

/-- What is seen from outside: the addresses not freed, those that may still be, and the
ports with a device on them. -/
structure Addresses where
  outstanding : Finset ℕ
  root : Option ℕ
  port : Port → Option ℕ
  present : Port → Bool

namespace Addresses

def init : Addresses := ⟨∅, none, fun _ => none, fun _ => false⟩

def watch (m : Addresses) : HostEffect → Addresses
  | .enumerated a => { m with outstanding := insert a m.outstanding, root := some a }
  | .hub (.detected p) => { m with present := Function.update m.present p true }
  | .hub (.removed p) =>
    { m with
      port := Function.update m.port p none
      present := Function.update m.present p false }
  | .hub (.enumerated p a) =>
    { m with
      outstanding := insert a m.outstanding
      port := Function.update m.port p (some a) }
  | .hub (.rejected p) => { m with port := Function.update m.port p none }
  | .hub (.freed a) | .freed a => { m with outstanding := m.outstanding.erase a }
  | .hub _ => m
  | .gone => { m with root := none, port := fun _ => none, present := fun _ => false }

/-- The device with the address is still there. -/
def Owes (m : Addresses) (a : ℕ) : Prop := m.root = some a ∨ ∃ p, m.port p = some a

instance (m : Addresses) (a : ℕ) : Decidable (m.Owes a) :=
  inferInstanceAs (Decidable (_ ∨ _))

end Addresses

/-- An address is freed only while it is given out. -/
def FreesGiven (m : Addresses) : HostEffect → Prop
  | .hub (.freed a) | .freed a => a ∈ m.outstanding
  | _ => True

instance (m : Addresses) : (e : HostEffect) → Decidable (FreesGiven m e)
  | .hub (.freed a) | .freed a => inferInstanceAs (Decidable (a ∈ m.outstanding))
  | .hub (.detected _) | .hub (.removed _) | .hub (.enumerated _ _) | .hub (.rejected _)
  | .hub (.handedOver _ _) | .hub (.signalled _ _) | .hub (.overwritten _ _)
  | .hub (.discarded _ _) | .enumerated _ | .gone => isTrue trivial

/-- The hub reports a device on a port that has none, and its removal when it has one. -/
def Alternates (m : Addresses) : HostEffect → Prop
  | .hub (.detected p) => m.present p = false
  | .hub (.removed p) => m.present p = true
  | _ => True

instance (m : Addresses) : (e : HostEffect) → Decidable (Alternates m e)
  | .hub (.detected p) => inferInstanceAs (Decidable (m.present p = false))
  | .hub (.removed p) => inferInstanceAs (Decidable (m.present p = true))
  | .hub (.enumerated _ _) | .hub (.rejected _) | .hub (.handedOver _ _)
  | .hub (.signalled _ _) | .hub (.overwritten _ _) | .hub (.discarded _ _) | .hub (.freed _)
  | .enumerated _ | .gone | .freed _ => isTrue trivial

/-- Each address is freed at most once, and by the end of its device. -/
def FreesInTime (m : Addresses) (es : List HostEffect) : Prop :=
  Each Addresses.watch FreesGiven m es ∧
    ∀ a ∈ (es.foldl Addresses.watch m).outstanding, (es.foldl Addresses.watch m).Owes a

instance (m : Addresses) (es : List HostEffect) : Decidable (FreesInTime m es) :=
  inferInstanceAs (Decidable (_ ∧ _))

/-- No hub is found behind the hub, and when the root device goes, a hub has no device
that is served or being logged. -/
structure ReleasesAll (s : Host) (es : List HostEffect) : Prop where
  noHub : ∀ p, .hub (.rejected p) ∉ es
  empty : .gone ∈ es → ∀ info h, s.phase = .hub info h →
    (∀ c, h.device c = none) ∧ h.phase.logged = none

/-- Who can hold an address. -/
inductive Holder
  | root
  | child (c : ChildId)
  | logging
deriving DecidableEq

def Attached.address (dev : Attached) : ℕ := dev.info.deviceAddress

/-- The addresses held while the hub at `root` is served. -/
def HubView.holds (root : ℕ) (v : HubView) : Holder → Option ℕ
  | .root => some root
  | .child c => (v.device c).map Attached.address
  | .logging => v.phase.logged.map EnumerationInfo.deviceAddress

/-- The root device's address. -/
def HostPhase.root : HostPhase → Option ℕ
  | .waiting | .enumerating => none
  | .logging info _ | .hub info _ | .served info => some info.deviceAddress
  | .serving dev => some dev.address

def HostPhase.holds : HostPhase → Holder → Option ℕ
  | .hub info h => h.view.holds info.deviceAddress
  | phase => Function.update (fun _ => none) .root phase.root

/-- A port's device has the address: a child serves it, or it is being logged. -/
inductive HubView.Has (v : HubView) (p : Port) : ℕ → Prop
  | served (c : ChildId) (dev : Attached) (hp : v.portChild p = some c)
      (hd : v.device c = some dev) : Has v p dev.address
  | logged (c : ChildId) (info : EnumerationInfo) (hc : v.phase.claim = some (p, c))
      (hl : v.phase.logged = some info) : Has v p info.deviceAddress

/-- The ports as they are seen from outside, and the children. -/
structure Behind (v : HubView) (m : Addresses) : Prop where
  serves : ∀ p c, v.portChild p = some c → ∃ dev, v.device c = some dev
  unshared : ∀ p q c, v.portChild p = some c → v.portChild q = some c → p = q
  served : ∀ c dev, v.device c = some dev → ∃ p, v.portChild p = some c
  claimed : ∀ p c, v.phase.claim = some (p, c) →
    v.portChild p = none ∧ v.device c = none ∧ m.present p = true
  present : ∀ p c, v.portChild p = some c → m.present p = true
  has_iff : ∀ p a, m.port p = some a ↔ v.Has p a
  early : v.phase = .registering ∨ v.phase = .returned → ∀ c, v.device c = none

namespace Behind

variable {role : Role} {v w : HubView} {m : Addresses} {es : List HubEffect}

/-- A port that nobody serves and that is not being logged has no address. -/
theorem port_none (hb : Behind v m) {p : Port} (hp : v.portChild p = none)
    (hl : v.phase.logged = none) : m.port p = none := by
  by_contra hne
  obtain ⟨a, ha⟩ := Option.ne_none_iff_exists'.mp hne
  cases (hb.has_iff p a).mp ha with
  | served c dev hc hd =>
    rw [hp] at hc
    cases hc
  | logged c info hc hlog =>
    rw [hl] at hlog
    cases hlog

/-- The loop goes on without a device. -/
theorem phase (hb : Behind v m) {phase : EventsPhase}
    (hc : phase.claim = none ∨ phase.claim = v.phase.claim) (hl : phase.logged = v.phase.logged)
    (hf : phase = .registering ∨ phase = .returned → v.phase = .registering) :
    Behind { v with phase := phase } m where
  serves := hb.serves
  unshared := hb.unshared
  served := hb.served
  claimed p c hp := by
    rcases hc with hc | hc
    · change phase.claim = _ at hp
      rw [hc] at hp
      cases hp
    · exact hb.claimed p c (hc.symm.trans hp)
  present := hb.present
  has_iff p a := by
    rw [hb.has_iff p a]
    -- A claim is given up only if nothing is logged for it.
    have hclaim : ∀ info, v.phase.logged = some info → phase.claim = v.phase.claim := by
      intro info hlog
      obtain ⟨q, d, hq⟩ := EventsPhase.claim_of_logged (hl.trans hlog)
      rcases hc with hc | hc
      · rw [hc] at hq
        cases hq
      · exact hc
    constructor
    · intro h
      cases h with
      | served c dev hp hd => exact .served c dev hp hd
      | logged c info hcl hlog =>
        exact .logged c info ((hclaim info hlog).trans hcl) (hl.trans hlog)
    · intro h
      cases h with
      | served c dev hp hd => exact .served c dev hp hd
      | logged c info hcl hlog =>
        have hlog' := hl.symm.trans hlog
        exact .logged c info ((hclaim info hlog').symm.trans hcl) hlog'
  early hp := hb.early (Or.inl (hf hp))

/-- A device is reported on a port, or its removal where nobody served it. -/
theorem mark (hb : Behind v m) {p : Port} {present : Bool}
    (hp : present = true ∨ v.portChild p = none) (hw : v.phase = .waiting) :
    Behind v { m with present := Function.update m.present p present } where
  serves := hb.serves
  unshared := hb.unshared
  served := hb.served
  claimed q c hq := by
    rw [hw] at hq
    cases hq
  present q c hq := by
    change Function.update m.present p present q = true
    by_cases hqp : q = p
    · subst hqp
      rw [Function.update_self]
      rcases hp with hp | hp
      · exact hp
      · rw [hp] at hq
        cases hq
    · rw [Function.update_of_ne hqp]
      exact hb.present q c hq
  has_iff := hb.has_iff
  early := hb.early

/-- An enumeration begins on a port where nobody is served. -/
theorem begin (hb : Behind v m) {p : Port} {c : ChildId} (hw : v.phase = .waiting)
    (hp : v.portChild p = none) (hc : v.device c = none) :
    Behind { v with phase := .enumerating p c 1 }
      { m with present := Function.update m.present p true } := by
  have hmark : Behind v { m with present := Function.update m.present p true } :=
    hb.mark (Or.inl rfl) hw
  refine ⟨hmark.serves, hmark.unshared, hmark.served, ?_, hmark.present, ?_, nofun⟩
  · intro q d hq
    cases hq
    exact ⟨hp, hc, Function.update_self ..⟩
  · intro q a
    rw [hmark.has_iff q a]
    constructor
    · intro h
      cases h with
      | served d dev hpd hd => exact .served d dev hpd hd
      | logged d info hcl hlog =>
        rw [hw] at hlog
        cases hlog
    · intro h
      cases h with
      | served d dev hpd hd => exact .served d dev hpd hd
      | logged d info hcl hlog => cases hlog

/-- A device is enumerated and logged. -/
theorem log (hb : Behind v m) {p : Port} {c : ChildId} {attempt : ℕ} {info : EnumerationInfo}
    {config : List UInt8} (hp : v.phase = .enumerating p c attempt) (given : Finset ℕ) :
    Behind { v with phase := .logging p c info config }
      { m with
        outstanding := given
        port := Function.update m.port p (some info.deviceAddress) } := by
  have hclaim : v.phase.claim = some (p, c) := by rw [hp]; rfl
  obtain ⟨hnone, hdevice, hpresent⟩ := hb.claimed p c hclaim
  refine ⟨hb.serves, hb.unshared, hb.served, ?_, hb.present, ?_, nofun⟩
  · intro q d hq
    cases hq
    exact ⟨hnone, hdevice, hpresent⟩
  · intro q a
    change Function.update m.port p _ q = some a ↔ _
    rw [update_some_eq_some]
    constructor
    · intro h
      rcases h with ⟨rfl, rfl⟩ | ⟨hne, ha⟩
      · exact .logged c info rfl rfl
      · cases (hb.has_iff q a).mp ha with
        | served d dev hpd hd => exact .served d dev hpd hd
        | logged d info' hcl hlog =>
          rw [hp] at hlog
          cases hlog
    · intro h
      cases h with
      | served d dev hpd hd =>
        refine Or.inr ⟨?_, (hb.has_iff q _).mpr (.served d dev hpd hd)⟩
        intro heq
        rw [heq, hnone] at hpd
        cases hpd
      | logged d info' hcl hlog =>
        cases hcl
        cases hlog
        exact Or.inl ⟨rfl, rfl⟩

/-- The device of a port that is served is gone. -/
theorem remove (hb : Behind v m) {p : Port} {c : ChildId} (hw : v.phase = .waiting)
    (hp : v.portChild p = some c) (given : Finset ℕ) :
    Behind { v with
        portChild := Function.update v.portChild p none
        device := Function.update v.device c none }
      { m with
        outstanding := given
        port := Function.update m.port p none
        present := Function.update m.present p false } := by
  have hother : ∀ q d, v.portChild q = some d → q ≠ p → d ≠ c := by
    intro q d hq hne heq
    rw [heq] at hq
    exact hne (hb.unshared q p c hq hp)
  refine ⟨?_, ?_, ?_, ?_, ?_, ?_, ?_⟩
  · intro q d hq
    obtain ⟨hne, hq⟩ := update_none_eq_some.mp hq
    obtain ⟨dev, hdev⟩ := hb.serves q d hq
    exact ⟨dev, update_none_eq_some.mpr ⟨hother q d hq hne, hdev⟩⟩
  · intro q r d hq hr
    exact hb.unshared q r d (update_none_eq_some.mp hq).2 (update_none_eq_some.mp hr).2
  · intro d dev hd
    obtain ⟨hne, hd⟩ := update_none_eq_some.mp hd
    obtain ⟨q, hq⟩ := hb.served d dev hd
    refine ⟨q, update_none_eq_some.mpr ⟨?_, hq⟩⟩
    intro heq
    rw [heq, hp] at hq
    exact hne (Option.some.inj hq).symm
  · intro q d hq
    change v.phase.claim = _ at hq
    rw [hw] at hq
    cases hq
  · intro q d hq
    obtain ⟨hne, hq⟩ := update_none_eq_some.mp hq
    change Function.update m.present p false q = true
    rw [Function.update_of_ne hne]
    exact hb.present q d hq
  · intro q a
    change Function.update m.port p none q = some a ↔ _
    rw [update_none_eq_some, hb.has_iff q a]
    constructor
    · intro h
      obtain ⟨hne, h⟩ := h
      cases h with
      | served d dev hpd hd =>
        exact .served d dev (update_none_eq_some.mpr ⟨hne, hpd⟩)
          (update_none_eq_some.mpr ⟨hother q d hpd hne, hd⟩)
      | logged d info hcl hlog => exact .logged d info hcl hlog
    · intro h
      cases h with
      | served d dev hpd hd =>
        obtain ⟨hne, hpd⟩ := update_none_eq_some.mp hpd
        exact ⟨hne, .served d dev hpd (update_none_eq_some.mp hd).2⟩
      | logged d info hcl hlog =>
        change v.phase.logged = _ at hlog
        rw [hw] at hlog
        cases hlog
  · intro hearly d
    change v.phase = _ ∨ v.phase = _ at hearly
    rw [hw] at hearly
    rcases hearly with hearly | hearly <;> cases hearly

/-- The device of a claim is handed over. -/
theorem handOver (hb : Behind v m) {p : Port} {c : ChildId} (hclaim : v.phase.claim = some (p, c))
    (dev : Attached) (given : Finset ℕ) :
    Behind { v with
        phase := .waiting
        portChild := Function.update v.portChild p (some c)
        device := Function.update v.device c (some dev) }
      { m with
        outstanding := given
        port := Function.update m.port p (some dev.address) } := by
  obtain ⟨hnone, hdevice, hpresent⟩ := hb.claimed p c hclaim
  have hidle : ∀ q, v.portChild q ≠ some c := by
    intro q hq
    obtain ⟨held, hheld⟩ := hb.serves q c hq
    rw [hdevice] at hheld
    cases hheld
  refine ⟨?_, ?_, ?_, nofun, ?_, ?_, nofun⟩
  · intro q d hq
    rcases update_some_eq_some.mp hq with ⟨-, rfl⟩ | ⟨-, hq⟩
    · exact ⟨dev, Function.update_self ..⟩
    · obtain ⟨held, hheld⟩ := hb.serves q d hq
      refine ⟨held, update_some_eq_some.mpr (Or.inr ⟨?_, hheld⟩)⟩
      intro heq
      rw [heq] at hq
      exact hidle q hq
  · intro q r d hq hr
    rcases update_some_eq_some.mp hq with ⟨rfl, rfl⟩ | ⟨-, hq⟩
    · rcases update_some_eq_some.mp hr with ⟨rfl, -⟩ | ⟨-, hr⟩
      · rfl
      · exact absurd hr (hidle r)
    · rcases update_some_eq_some.mp hr with ⟨-, rfl⟩ | ⟨-, hr⟩
      · exact absurd hq (hidle q)
      · exact hb.unshared q r d hq hr
  · intro d held hd
    rcases update_some_eq_some.mp hd with ⟨rfl, -⟩ | ⟨-, hd⟩
    · exact ⟨p, Function.update_self ..⟩
    · obtain ⟨q, hq⟩ := hb.served d held hd
      refine ⟨q, update_some_eq_some.mpr (Or.inr ⟨?_, hq⟩)⟩
      intro heq
      rw [heq, hnone] at hq
      cases hq
  · intro q d hq
    rcases update_some_eq_some.mp hq with ⟨rfl, -⟩ | ⟨-, hq⟩
    · exact hpresent
    · exact hb.present q d hq
  · intro q a
    change Function.update m.port p (some dev.address) q = some a ↔ _
    rw [update_some_eq_some, hb.has_iff q a]
    constructor
    · intro h
      rcases h with ⟨rfl, rfl⟩ | ⟨hne, h⟩
      · exact .served c dev (Function.update_self ..) (Function.update_self ..)
      · cases h with
        | served d held hpd hd =>
          refine .served d held (update_some_eq_some.mpr (Or.inr ⟨hne, hpd⟩))
            (update_some_eq_some.mpr (Or.inr ⟨?_, hd⟩))
          intro heq
          rw [heq] at hpd
          exact hidle q hpd
        | logged d info hcl hlog =>
          rw [hclaim] at hcl
          cases hcl
          exact absurd rfl hne
    · intro h
      cases h with
      | served d held hpd hd =>
        rcases update_some_eq_some.mp hpd with ⟨rfl, rfl⟩ | ⟨hne, hold⟩
        · change Function.update v.device c (some dev) c = some held at hd
          rw [Function.update_self] at hd
          cases hd
          exact Or.inl ⟨rfl, rfl⟩
        · refine Or.inr ⟨hne, ?_⟩
          rcases update_some_eq_some.mp hd with ⟨rfl, -⟩ | ⟨-, hd⟩
          · exact absurd hold (hidle q)
          · exact .served d held hold hd
      | logged d info hcl hlog => cases hlog

end Behind

/-- The watcher on the effects of a hub. -/
def Addresses.watchHub (m : Addresses) (e : HubEffect) : Addresses := m.watch (.hub e)

theorem foldl_hub (es : List HubEffect) (m : Addresses) :
    (es.map HostEffect.hub).foldl Addresses.watch m = es.foldl Addresses.watchHub m :=
  List.foldl_map

theorem behind_polled {role : Role} {v w : HubView} {m : Addresses} {es : List HubEffect}
    (hb : Behind v m) (hp : v.Polled role w es)
    (halt : Each Addresses.watch Alternates m (es.map .hub)) (hno : ∀ p, .rejected p ∉ es) :
    Behind w (es.foldl Addresses.watchHub m) := by
  cases hp with
  | goesOn phase hc hl hf => exact hb.phase hc hl hf
  | ignored port hw => exact hb.mark (Or.inl rfl) hw
  | begins port c hw hf =>
    have hnone : v.portChild port = none := by
      by_contra hne
      obtain ⟨d, hd⟩ := Option.ne_none_iff_exists'.mp hne
      have hpresent := hb.present port d hd
      have habsent : m.present port = false := halt.1
      rw [habsent] at hpresent
      cases hpresent
    exact hb.begin hw hnone hf
  | unserved port hw hp =>
    have hport : m.port port = none := hb.port_none hp (by rw [hw]; rfl)
    have hsame : Function.update m.port port none = m.port := by
      rw [← hport, Function.update_eq_self]
    change Behind v { m with
      port := Function.update m.port port none
      present := Function.update m.present port false }
    rw [hsame]
    exact hb.mark (Or.inr hp) hw
  | removes port c dev hw hp hd => exact hb.remove hw hp _
  | logs port c attempt info config hp => exact hb.log hp _
  | rejects port c info config es hr hk =>
    exact absurd (List.mem_append_right es (List.mem_singleton_self _)) (hno port)
  | handsOver port c info config es hr hk hf =>
    have hover := hb.handOver hr.claim ⟨info, config, classify role info⟩
    cases hr with
    | now attempt hp => exact hover _
    | earlier hp =>
      -- The address has been the port's since it was logged.
      have hhas : m.port port = some info.deviceAddress :=
        (hb.has_iff port _).mpr (.logged c info (by rw [hp]; rfl) (by rw [hp]; rfl))
      have hsame : Function.update m.port port (some info.deviceAddress) = m.port := by
        rw [← hhas, Function.update_eq_self]
      have hover := hover m.outstanding
      rw [show Attached.address ⟨info, config, classify role info⟩ = info.deviceAddress from rfl,
        hsame] at hover
      exact hover

theorem watchHub_outstanding (es : List HubEffect) (m : Addresses) :
    (es.foldl Addresses.watchHub m).outstanding = es.foldl Host.account m.outstanding := by
  induction es generalizing m with
  | nil => rfl
  | cons e es ih =>
    rw [List.foldl_cons, List.foldl_cons, ih]
    cases e <;> rfl

theorem watchHub_root (es : List HubEffect) (m : Addresses) :
    (es.foldl Addresses.watchHub m).root = m.root := by
  induction es generalizing m with
  | nil => rfl
  | cons e es ih =>
    rw [List.foldl_cons, ih]
    cases e <;> rfl

/-- The holders change with the devices of the children and the device that is logged. -/
theorem holds_congr {v w : HubView} (root : ℕ) (hd : w.device = v.device)
    (hl : w.phase.logged = v.phase.logged) : w.holds root = v.holds root := by
  funext x
  cases x with
  | root => rfl
  | child c => simp only [HubView.holds, hd]
  | logging => simp only [HubView.holds, hl]

theorem holds_child {v w : HubView} (root : ℕ) {c : ChildId} (dev : Option Attached)
    (hd : w.device = Function.update v.device c dev) (hl : w.phase.logged = v.phase.logged) :
    w.holds root = Function.update (v.holds root) (.child c) (dev.map Attached.address) := by
  funext x
  by_cases hx : x = .child c
  · subst hx
    rw [Function.update_self]
    simp only [HubView.holds, hd, Function.update_self]
  · rw [Function.update_of_ne hx]
    cases x with
    | root => rfl
    | logging => simp only [HubView.holds, hl]
    | child d =>
      have hne : d ≠ c := fun heq => hx (heq ▸ rfl)
      simp only [HubView.holds, hd, Function.update_of_ne hne]

theorem holds_logging {v w : HubView} (root : ℕ) (info : Option EnumerationInfo)
    (hd : w.device = v.device) (hl : w.phase.logged = info) :
    w.holds root =
      Function.update (v.holds root) .logging (info.map EnumerationInfo.deviceAddress) := by
  funext x
  by_cases hx : x = .logging
  · subst hx
    rw [Function.update_self]
    simp only [HubView.holds, hl]
  · rw [Function.update_of_ne hx]
    cases x with
    | root => rfl
    | logging => exact absurd rfl hx
    | child d => simp only [HubView.holds, hd]

theorem owned_polled {role : Role} {v w : HubView} {es : List HubEffect} {given : Finset ℕ}
    {root : ℕ} (ho : Owned given (v.holds root)) (hp : v.Polled role w es)
    (hfresh : ∀ p a, .enumerated p a ∈ es → a ∉ given) (hno : ∀ p, .rejected p ∉ es) :
    Owned (es.foldl Host.account given) (w.holds root) := by
  cases hp with
  | goesOn phase hc hl hf => exact ho.of_eq (holds_congr root rfl hl)
  | ignored port hw => exact ho
  | unserved port hw hp => exact ho
  | begins port c hw hf => exact ho.of_eq (holds_congr root rfl (by rw [hw]; rfl))
  | removes port c dev hw hp hd =>
    have hholds : v.holds root (.child c) = some dev.address := by
      simp only [HubView.holds, hd, Option.map_some]
    exact (ho.release hholds).of_eq (holds_child root none rfl rfl)
  | logs port c attempt info config hp =>
    have hempty : v.holds root .logging = none := by
      simp only [HubView.holds, hp]
      rfl
    have hfree := hfresh port _ (List.mem_singleton_self _)
    exact (ho.acquire hfree hempty).of_eq (holds_logging root (some info) rfl rfl)
  | rejects port c info config es hr hk =>
    exact absurd (List.mem_append_right es (List.mem_singleton_self _)) (hno port)
  | handsOver port c info config es hr hk hf =>
    have hidle : v.holds root (.child c) = none := by
      simp only [HubView.holds, hf, Option.map_none]
    cases hr with
    | now attempt hp =>
      have hfree := hfresh port info.deviceAddress (by simp)
      apply (ho.acquire hfree hidle).of_eq
      exact holds_child root (some ⟨info, config, classify role info⟩) rfl (by rw [hp]; rfl)
    | earlier hp =>
      have hlogging : v.holds root .logging = some info.deviceAddress := by
        simp only [HubView.holds, hp]
        rfl
      have hbefore : HubView.holds root { v with phase := .waiting } =
          Function.update (v.holds root) .logging none :=
        holds_logging root none rfl rfl
      apply (ho.move hlogging hidle).of_eq
      rw [← hbefore]
      exact holds_child root (some ⟨info, config, classify role info⟩) rfl rfl

/-- A port's address is held for its device. -/
theorem Behind.holder {v : HubView} {m : Addresses} (hb : Behind v m) (root : ℕ) {p : Port}
    {a : ℕ} (hp : m.port p = some a) :
    (∃ c, v.holds root (.child c) = some a) ∨
      (∃ c, v.phase.claim = some (p, c)) ∧ v.holds root .logging = some a := by
  cases (hb.has_iff p a).mp hp with
  | served c dev hpc hd => exact Or.inl ⟨c, by simp only [HubView.holds, hd, Option.map_some]⟩
  | logged c info hc hl =>
    exact Or.inr ⟨⟨c, hc⟩, by simp only [HubView.holds, hl, Option.map_some]⟩

/-- Whoever holds an address does so for a device that is still there. -/
theorem Behind.owes {v : HubView} {m : Addresses} (hb : Behind v m) {root : ℕ}
    (hroot : m.root = some root) {x : Holder} {a : ℕ} (hx : v.holds root x = some a) :
    m.Owes a := by
  cases x with
  | root =>
    cases hx
    exact Or.inl hroot
  | child c =>
    obtain ⟨dev, hd, rfl⟩ := Option.map_eq_some_iff.mp hx
    obtain ⟨p, hp⟩ := hb.served c dev hd
    exact Or.inr ⟨p, (hb.has_iff p _).mpr (.served c dev hp hd)⟩
  | logging =>
    obtain ⟨info, hl, rfl⟩ := Option.map_eq_some_iff.mp hx
    obtain ⟨p, c, hc⟩ := EventsPhase.claim_of_logged hl
    exact Or.inr ⟨p, (hb.has_iff p _).mpr (.logged c info hc hl)⟩

theorem frees_nothing {es : List HubEffect} (hnone : ∀ a, .freed a ∉ es) (m : Addresses) :
    Each Addresses.watch FreesGiven m (es.map .hub) := by
  apply Each.of_forall
  intro e he m
  obtain ⟨f, hf, rfl⟩ := List.mem_map.mp he
  cases f with
  | freed a => exact absurd hf (hnone a)
  | _ => trivial

/-- A device that is freed had been given its address. -/
theorem frees_polled {role : Role} {v w : HubView} {m : Addresses} {es : List HubEffect}
    {root : ℕ} (ho : Owned m.outstanding (v.holds root)) (hp : v.Polled role w es) :
    Each Addresses.watch FreesGiven m (es.map .hub) := by
  cases hp with
  | removes port c dev hw hp hd =>
    have hholds : v.holds root (.child c) = some dev.address := by
      simp only [HubView.holds, hd, Option.map_some]
    exact ⟨trivial, trivial, ho.mem hholds, trivial⟩
  | rejects port c info config es hr hk =>
    apply frees_nothing
    intro a
    cases hr <;> simp
  | handsOver port c info config es hr hk hf =>
    apply frees_nothing
    intro a
    cases hr <;> simp
  | _ =>
    apply frees_nothing
    simp

/-- The address of a hub that is found behind the hub is not freed when it is rejected. -/
theorem rejected_kept {role : Role} {v w : HubView} {m : Addresses} {es : List HubEffect}
    {root : ℕ} (hb : Behind v m) (ho : Owned m.outstanding (v.holds root))
    (hroot : m.root = some root) (hp : v.Polled role w es)
    (hfresh : ∀ p a, .enumerated p a ∈ es → a ∉ m.outstanding) {p : Port}
    (hrej : .rejected p ∈ es) :
    ∃ a ∈ (es.foldl Addresses.watchHub m).outstanding,
      ¬ (es.foldl Addresses.watchHub m).Owes a := by
  cases hp with
  | rejects port c info config es hr hk =>
    refine ⟨info.deviceAddress, ?_, ?_⟩
    · rw [watchHub_outstanding]
      cases hr with
      | now attempt hp => exact Finset.mem_insert_self ..
      | earlier hp =>
        have hlogging : v.holds root .logging = some info.deviceAddress := by
          simp only [HubView.holds, hp]
          rfl
        exact ho.mem hlogging
    · intro howes
      -- It is no other port's and not the root's: it is held for the log, or it is new.
      have hother : m.root ≠ some info.deviceAddress ∧
          ∀ q, q ≠ port → m.port q ≠ some info.deviceAddress := by
        cases hr with
        | now attempt hp =>
          have hnew : ∀ x, v.holds root x ≠ some info.deviceAddress :=
            fun x hx => hfresh port _ (by simp) (ho.mem hx)
          refine ⟨fun heq => hnew .root (hroot.symm.trans heq), ?_⟩
          intro q hne hq
          rcases hb.holder root hq with ⟨d, hd⟩ | ⟨-, hl⟩
          · exact hnew _ hd
          · exact hnew _ hl
        | earlier hp =>
          have hlogging : v.holds root .logging = some info.deviceAddress := by
            simp only [HubView.holds, hp]
            rfl
          refine ⟨?_, ?_⟩
          · intro heq
            cases ho.distinct .root .logging _ (hroot.symm.trans heq) hlogging
          · intro q hne hq
            rcases hb.holder root hq with ⟨d, hd⟩ | ⟨⟨d, hc⟩, -⟩
            · cases ho.distinct _ _ _ hd hlogging
            · rw [hp] at hc
              cases hc
              exact hne rfl
      have hport : (List.foldl Addresses.watchHub m (es ++ [.rejected port])).port =
          Function.update m.port port none := by
        rw [List.foldl_append]
        cases hr with
        | now attempt hp => exact Function.update_idem ..
        | earlier hp => rfl
      rcases howes with heq | ⟨q, hq⟩
      · rw [watchHub_root] at heq
        exact hother.1 heq
      · rw [hport] at hq
        obtain ⟨hne, hq⟩ := update_none_eq_some.mp hq
        exact hother.2 q hne hq
  | handsOver port c info config es hr hk hf => cases hr <;> simp at hrej
  | _ => simp at hrej

/-- What is seen from outside agrees with the host's books. -/
structure Books (s : Host) (m : Addresses) : Prop where
  given : m.outstanding = s.given
  owned : Owned s.given s.phase.holds
  root : m.root = s.phase.root
  behind : match s.phase with
    | .hub _ h => h.Tables ∧ Settled h ∧ Behind h.view m
    | .waiting | .enumerating | .logging _ _ => ∀ p, m.port p = none
    | .serving _ | .served _ => True

/-- A host that has at most the root device. -/
theorem holds_root {phase : HostPhase} (h : ∀ info hub, phase ≠ .hub info hub) :
    phase.holds = Function.update (fun _ => none) .root phase.root := by
  cases phase with
  | hub info hub => exact absurd rfl (h info hub)
  | _ => rfl

theorem holds_init (info : EnumerationInfo) : (HostPhase.hub info Hub.init).holds =
    Function.update (fun _ => none) .root (some info.deviceAddress) := by
  funext x
  cases x <;> rfl

theorem behind_init {m : Addresses} (hport : ∀ p, m.port p = none) :
    Hub.init.Tables ∧ Settled Hub.init ∧ Behind Hub.init.view m := by
  refine ⟨Hub.tables_init, ⟨fun _ => rfl, fun c => ?_⟩, ?_⟩
  · simp [Hub.init, Hub.device, Child.device]
  · have hserves : ∀ p, Hub.init.view.portChild p = none := fun _ => rfl
    have hdevice : ∀ c, Hub.init.view.device c = none := fun _ => rfl
    have hclaim : Hub.init.view.phase.claim = none := rfl
    constructor
    · simp [hserves]
    · simp [hserves]
    · simp [hdevice]
    · simp [hclaim]
    · simp [hserves]
    · intro p a
      rw [hport p]
      constructor
      · intro h
        cases h
      · intro h
        cases h with
        | served c dev hp hd => rw [hserves] at hp; cases hp
        | logged c info hc hl => rw [hclaim] at hc; cases hc
    · exact fun _ => hdevice

namespace Books

variable {role : Role} {s : Host} {m : Addresses}

/-- Nothing that is given out is overdue. -/
theorem in_time (hb : Books s m) : ∀ a ∈ m.outstanding, m.Owes a := by
  intro a ha
  rw [hb.given] at ha
  obtain ⟨x, hx⟩ := (hb.owned.given_iff a).mp ha
  have hroot := hb.root
  have hbehind := hb.behind
  cases hphase : s.phase with
  | hub info h =>
    rw [hphase] at hx hroot hbehind
    exact hbehind.2.2.owes hroot hx
  | _ =>
    rw [hphase] at hroot hx
    rw [holds_root (by nofun)] at hx
    by_cases hxr : x = .root
    · rw [hxr, Function.update_self] at hx
      exact Or.inl (hroot.trans hx)
    · rw [Function.update_of_ne hxr] at hx
      cases hx

/-- The root device is served, or the hub it is. -/
theorem serve {info : EnumerationInfo} (hgiven : m.outstanding = s.given)
    (howned : Owned s.given
      (Function.update (fun _ : Holder => none) .root (some info.deviceAddress)))
    (hroot : m.root = some info.deviceAddress) (hport : ∀ p, m.port p = none)
    (config : List UInt8) :
    Books (s.serve role info config) m := by
  unfold Host.serve
  dsimp only
  split
  · exact ⟨hgiven, howned.of_eq (holds_init info), hroot, behind_init hport⟩
  · exact ⟨hgiven, howned.of_eq (holds_root (by nofun)), hroot, trivial⟩

/-- The hub's part of the books after a poll that rejects nothing. -/
theorem hub (hb : Books s m) {info : EnumerationInfo} {h t : Hub} (hphase : s.phase = .hub info h)
    {a : HubAct} {es : List HubEffect} (hstep : (WheelBridge.hub role).step h a = some (t, es))
    (hfresh : ∀ p a, .enumerated p a ∈ es → a ∉ s.given)
    (halt : Each Addresses.watch Alternates m (es.map .hub)) (hno : ∀ p, .rejected p ∉ es) :
    Books ⟨es.foldl Host.account s.given,
        if t.phase = .returned then .served info else .hub info t⟩
      (es.foldl Addresses.watchHub m) := by
  have hbehind := hb.behind
  have howned := hb.owned
  have hroot := hb.root
  rw [hphase] at hbehind howned hroot
  obtain ⟨htables, hsettled, hbehind⟩ := hbehind
  obtain ⟨hpolled, hsettled'⟩ := polled htables hsettled hstep
  have hbehind' := behind_polled hbehind hpolled halt hno
  have howned' := owned_polled howned hpolled hfresh hno
  have hgiven : (es.foldl Addresses.watchHub m).outstanding = es.foldl Host.account s.given := by
    rw [watchHub_outstanding, hb.given]
  have hroot' : (es.foldl Addresses.watchHub m).root = some info.deviceAddress := by
    rw [watchHub_root]
    exact hroot
  have htables' : t.Tables := by
    obtain ⟨u, fs, hu, rfl, rfl⟩ := Hub.step_eq_some hstep
    exact (htables.advanced hu).pollChildren a.done
  split
  · next hret =>
    -- Nothing was served: the hub could not be registered.
    have hempty : t.view.holds info.deviceAddress =
        Function.update (fun _ => none) .root (some info.deviceAddress) := by
      funext x
      cases x with
      | root => rfl
      | child c =>
        have hnone := hbehind'.early (Or.inr hret) c
        simp [HubView.holds, hnone]
      | logging =>
        have hlogged : t.view.phase.logged = none := by
          change t.phase.logged = none
          rw [hret]
          rfl
        simp [HubView.holds, hlogged]
    exact ⟨hgiven, howned'.of_eq ((holds_root (by nofun)).trans hempty.symm), hroot', trivial⟩
  · exact ⟨hgiven, howned', hroot', htables', hsettled', hbehind'⟩

end Books

/-- The root device goes: its address is freed, and no other is left exactly when nothing
else was held. -/
theorem disconnected_iff {s : Host} {m : Addresses} (hb : Books s m) {info : EnumerationInfo}
    (hroot : s.phase.holds .root = some info.deviceAddress) :
    (FreesInTime m (s.disconnected info).2 ↔
        ∀ x, x ≠ .root → s.phase.holds x = none) ∧
      (FreesInTime m (s.disconnected info).2 →
        Books (s.disconnected info).1 ((s.disconnected info).2.foldl Addresses.watch m)) := by
  have hmem := hb.owned.mem hroot
  have hgiven : m.outstanding.erase info.deviceAddress = s.given.erase info.deviceAddress := by
    rw [hb.given]
  have hlate : FreesInTime m (s.disconnected info).2 ↔ s.given.erase info.deviceAddress = ∅ := by
    constructor
    · intro h
      apply Finset.eq_empty_of_forall_notMem
      intro a ha
      have howes := h.2 a (by rw [← hgiven] at ha; exact ha)
      rcases howes with howes | ⟨p, hp⟩
      · cases howes
      · cases hp
    · intro hempty
      refine ⟨⟨trivial, ?_, trivial⟩, ?_⟩
      · change info.deviceAddress ∈ m.outstanding
        rw [hb.given]
        exact hmem
      · intro a ha
        change a ∈ m.outstanding.erase info.deviceAddress at ha
        rw [hgiven, hempty] at ha
        exact absurd ha (Finset.notMem_empty a)
  constructor
  · rw [hlate]
    exact hb.owned.erase_eq_empty_iff hroot
  · intro h
    have hempty := hlate.mp h
    refine ⟨hgiven, ?_, rfl, fun _ => rfl⟩
    change Owned (s.given.erase info.deviceAddress) _
    rw [hempty]
    apply Owned.empty.of_eq
    funext x
    cases x <;> rfl

/-- Only a hub can have more than the root device. -/
theorem alone_iff (phase : HostPhase) :
    (∀ x, x ≠ .root → phase.holds x = none) ↔
      ∀ info h, phase = .hub info h → (∀ c, h.device c = none) ∧ h.phase.logged = none := by
  cases phase with
  | hub info h =>
    constructor
    · intro hall info' h' heq
      cases heq
      refine ⟨fun c => ?_, ?_⟩
      · exact Option.map_eq_none_iff.mp (hall (.child c) nofun)
      · exact Option.map_eq_none_iff.mp (hall .logging nofun)
    · intro hnone x hx
      obtain ⟨hdevice, hlogged⟩ := hnone info h rfl
      cases x with
      | root => exact absurd rfl hx
      | child c => exact Option.map_eq_none_iff.mpr (hdevice c)
      | logging => exact Option.map_eq_none_iff.mpr hlogged
  | _ =>
    refine iff_of_true ?_ (by nofun)
    intro x hx
    rw [holds_root (by nofun), Function.update_of_ne hx]

theorem disconnected_step {s : Host} {m : Addresses} (hb : Books s m) {info : EnumerationInfo}
    (hroot : s.phase.holds .root = some info.deviceAddress) :
    (FreesInTime m (s.disconnected info).2 ↔ ReleasesAll s (s.disconnected info).2) ∧
      (FreesInTime m (s.disconnected info).2 →
        Books (s.disconnected info).1 ((s.disconnected info).2.foldl Addresses.watch m)) := by
  obtain ⟨hiff, hbooks⟩ := disconnected_iff hb hroot
  refine ⟨hiff.trans ((alone_iff s.phase).trans ?_), hbooks⟩
  constructor
  · exact fun h => ⟨by simp [Host.disconnected], fun _ => h⟩
  · exact fun h => h.empty (List.mem_cons_self ..)

/-- A step frees in time exactly under the condition, and then the books are kept. -/
theorem step_frees_iff {role : Role} {s t : Host} {m : Addresses} {a : HostAct}
    {es : List HostEffect} (hb : Books s m) (hstep : (host role).step s a = some (t, es))
    (halt : Each Addresses.watch Alternates m es) :
    (FreesInTime m es ↔ ReleasesAll s es) ∧
      (FreesInTime m es → Books t (es.foldl Addresses.watch m)) := by
  -- A step that frees nothing and keeps the books.
  have hplain : Books t (es.foldl Addresses.watch m) → Each Addresses.watch FreesGiven m es →
      ReleasesAll s es → (FreesInTime m es ↔ ReleasesAll s es) ∧
        (FreesInTime m es → Books t (es.foldl Addresses.watch m)) := by
    intro hbooks heach hrel
    exact ⟨iff_of_true ⟨heach, hbooks.in_time⟩ hrel, fun _ => hbooks⟩
  have hnothing : ReleasesAll s [] := ⟨fun _ => List.not_mem_nil, fun h => by cases h⟩
  change s.step role a = some (t, es) at hstep
  obtain ⟨hgiven, howned, hroot, hbehind⟩ := id hb
  cases a <;> simp only [Host.step] at hstep
  case connected =>
    split at hstep <;> cases hstep
    next hphase =>
    rw [hphase] at howned hroot hbehind
    exact hplain ⟨hgiven, howned, hroot, hbehind⟩ trivial hnothing
  case attemptFailed =>
    split at hstep <;> cases hstep
    exact hplain hb trivial hnothing
  case enumerated info config opened =>
    split at hstep
    · next hphase =>
      rw [hphase] at howned hroot hbehind
      split at hstep
      · cases hstep
      · next hfresh =>
        cases hstep
        have howned' := howned.acquire (x := .root) hfresh rfl
        rw [holds_root (by nofun), Function.update_idem] at howned'
        have hgiven' : insert info.deviceAddress m.outstanding =
            insert info.deviceAddress s.given := by rw [hgiven]
        have hrel : ReleasesAll s [.enumerated info.deviceAddress] :=
          ⟨by simp, fun h => by simp at h⟩
        apply hplain _ ⟨trivial, trivial⟩ hrel
        split
        · exact ⟨hgiven', howned'.of_eq (holds_root (by nofun)), rfl, hbehind⟩
        · apply Books.serve
          · exact hgiven'
          · exact howned'
          · rfl
          · exact hbehind
    · cases hstep
  case logged =>
    split at hstep <;> cases hstep
    next info config hphase =>
    rw [hphase] at howned hroot hbehind
    rw [holds_root (by nofun)] at howned
    exact hplain (Books.serve hgiven howned hroot hbehind config) trivial hnothing
  case serveEnded =>
    split at hstep <;> cases hstep
    next dev hphase =>
    rw [hphase] at howned hroot
    exact hplain ⟨hgiven, howned, hroot, trivial⟩ trivial hnothing
  case hub act =>
    split at hstep
    · next info h hphase =>
      split at hstep
      · cases hstep
      · next u fs hpoll =>
        split at hstep
        · next hfresh =>
          cases hstep
          have hnew : ∀ p address, .enumerated p address ∈ fs → address ∉ s.given := by
            intro p address hmem
            simpa [Host.fresh] using List.all_eq_true.mp hfresh _ hmem
          rw [foldl_hub]
          have hgone : HostEffect.gone ∉ fs.map HostEffect.hub := by simp
          by_cases hrej : ∃ p, .rejected p ∈ fs
          · obtain ⟨p, hp⟩ := hrej
            rw [hphase] at howned hroot hbehind
            rw [← hgiven] at howned hnew
            obtain ⟨hpolled, -⟩ := polled hbehind.1 hbehind.2.1 hpoll
            obtain ⟨address, hmem, hlate⟩ :=
              rejected_kept hbehind.2.2 howned hroot hpolled hnew hp
            have hnot : ¬ FreesInTime m (fs.map .hub) := by
              intro h
              rw [FreesInTime, foldl_hub] at h
              exact hlate (h.2 address hmem)
            have hbad : ¬ ReleasesAll s (fs.map .hub) :=
              fun h => h.noHub p (List.mem_map_of_mem hp)
            exact ⟨iff_of_false hnot hbad, fun h => absurd h hnot⟩
          · have hno : ∀ p, .rejected p ∉ fs := fun p hp => hrej ⟨p, hp⟩
            have hbooks := hb.hub hphase hpoll hnew halt hno
            rw [← foldl_hub] at hbooks ⊢
            have hrel : ReleasesAll s (fs.map .hub) :=
              ⟨by simpa using hno, fun h => absurd h hgone⟩
            rw [hphase] at howned hbehind
            rw [← hgiven] at howned
            obtain ⟨hpolled, -⟩ := polled hbehind.1 hbehind.2.1 hpoll
            exact hplain hbooks (frees_polled howned hpolled) hrel
        · cases hstep
    · cases hstep
  case disconnected =>
    split at hstep
    · next dev hphase =>
      cases hstep
      exact disconnected_step hb (by rw [hphase]; rfl)
    · next info h hphase =>
      cases hstep
      exact disconnected_step hb (by rw [hphase]; rfl)
    · next info hphase =>
      cases hstep
      exact disconnected_step hb (by rw [hphase]; rfl)
    all_goals cases hstep

/-- In every run in which each port reports devices and removals in turn, every address is
freed once and in time, if and only if no hub is found behind the hub and the root device
goes only while its hub has no device. -/
theorem addresses_freed_iff (role : Role) (as : List HostAct)
    (halt : (host role).Along Addresses.watch
      (fun _ m es _ => Each Addresses.watch Alternates m es) Host.init Addresses.init as) :
    (host role).Along Addresses.watch (fun _ m es _ => FreesInTime m es) Host.init
        Addresses.init as ↔
      (host role).Along Addresses.watch (fun s _ es _ => ReleasesAll s es) Host.init
        Addresses.init as := by
  refine Machine.along_iff_of Books ?_ ?_ as _ _ ?_ halt
  · intro s m a es t hb hstep he hq
    exact (step_frees_iff hb hstep he).2 hq
  · intro s m a es t hb hstep he
    exact (step_frees_iff hb hstep he).1
  · exact ⟨rfl, Owned.empty.of_eq (funext fun x => by cases x <;> rfl), rfl, fun _ => rfl⟩

/-- A hub at address 1, without strings. -/
def plainHub : EnumerationInfo := ⟨1, 0x1a40, 0x0101, classHub, ⟨0, 0, 0⟩⟩

/-- The hub is unplugged while a gamepad behind it is served. -/
def hubUnplugged : List HostAct :=
  [.connected, .enumerated plainHub [] true,
    .hub ⟨.registered true true, fun _ => false⟩,
    .hub ⟨.detected 0, fun _ => false⟩,
    .hub ⟨.enumerated gamepad [] true, fun _ => false⟩,
    .disconnected]

theorem gamepad_address_lost :
    ((host .wheel).run Host.init hubUnplugged).isSome = true ∧
      (host .wheel).Along Addresses.watch (fun _ m es _ => Each Addresses.watch Alternates m es)
        Host.init Addresses.init hubUnplugged ∧
      ¬ (host .wheel).Along Addresses.watch (fun _ m es _ => FreesInTime m es) Host.init
        Addresses.init hubUnplugged := by
  decide +kernel

/-- The gamepad is unplugged before the hub. -/
def unpluggedInOrder : List HostAct :=
  [.connected, .enumerated plainHub [] true,
    .hub ⟨.registered true true, fun _ => false⟩,
    .hub ⟨.detected 0, fun _ => false⟩,
    .hub ⟨.enumerated gamepad [] true, fun _ => false⟩,
    .hub ⟨.removed 0, fun _ => false⟩,
    .disconnected]

theorem unplugged_in_order_iff :
    ((host .wheel).run Host.init unpluggedInOrder).isSome = true ∧
      ((host .wheel).Along Addresses.watch (fun _ m es _ => FreesInTime m es) Host.init
          Addresses.init unpluggedInOrder ↔
        (host .wheel).Along Addresses.watch (fun s _ es _ => ReleasesAll s es) Host.init
          Addresses.init unpluggedInOrder) :=
  ⟨by decide +kernel, addresses_freed_iff .wheel unpluggedInOrder (by decide +kernel)⟩

end WheelBridge
