import WheelBridge.BridgeSteps

/-!
The data toggle of the force feedback pipe in a recovery. Clearing the halt resets the
device's toggle, so the host's is to be reset exactly once before the next packet. The
recovery asks the EP0 task for the clear through one signal and is answered through
another; neither says which recovery it is about, and the wait may time out.
-/
namespace WheelBridge

/-- What the two ends of the pipe have done with their toggles since the last packet. -/
inductive Toggle
  | inStep
  /-- The halt was cleared; and the host's toggle reset; and more of either. -/
  | cleared
  | reset
  | outOfStep
deriving DecidableEq

structure Halts where
  toggle : Toggle
  /-- A recovery was asked for in this session. -/
  asked : Bool
  /-- How many recoveries were asked for; had been when a clear was sent last. -/
  recoveries : ℕ
  clearFor : ℕ

namespace Halts

def init : Halts := ⟨.inStep, false, 0, 0⟩

def watch (m : Halts) : BridgeEffect → Halts
  | .attached => { m with toggle := .inStep, asked := false }
  | .recoverAsked => { m with asked := true, recoveries := m.recoveries + 1 }
  | .clearHalt _ => { m with clearFor := m.recoveries }
  | .haltCleared true =>
    { m with
      toggle := match m.toggle with
        | .inStep | .cleared => .cleared
        | .reset | .outOfStep => .outOfStep }
  | .toggleReset =>
    { m with
      toggle := match m.toggle with
        | .cleared => .reset
        | .inStep | .reset | .outOfStep => .outOfStep }
  | .ffbWrite _ => { m with toggle := .inStep }
  | _ => m

theorem cleared_of_inStep {m : Halts} (h : m.toggle = .inStep) :
    (m.watch (.haltCleared true)).toggle = .cleared := by
  unfold watch
  rw [h]

theorem reset_of_cleared {m : Halts} (h : m.toggle = .cleared) :
    (m.watch .toggleReset).toggle = .reset := by
  unfold watch
  rw [h]

end Halts

/-- Every clear is followed by exactly one reset before the next packet, the toggle is
not reset without a clear, and a clear is sent only if a recovery was asked for. -/
def KeepsInStep (m : Halts) : BridgeEffect → Prop
  | .ffbWrite _ => m.toggle = .inStep ∨ m.toggle = .reset
  | .toggleReset => m.toggle ≠ .inStep
  | .clearHalt _ => m.asked = true
  | _ => True

instance (m : Halts) (e : BridgeEffect) : Decidable (KeepsInStep m e) :=
  match e with
  | .ffbWrite _ => inferInstanceAs (Decidable (_ ∨ _))
  | .toggleReset => inferInstanceAs (Decidable (m.toggle ≠ .inStep))
  | .clearHalt _ => inferInstanceAs (Decidable (m.asked = true))
  | .pullup _ | .linked _ | .queued _ | .took _ | .cleared | .inputGiven _ | .wheelInput _
  | .attached | .detached | .request _ | .message _ _ | .returned _ _ | .repeated _
  | .revLights _ | .haltCleared _ | .recoverAsked => isTrue trivial

/-- `recover_ffb` of the session is waiting for its answer. -/
def Bridge.recovering (s : Bridge) : Bool :=
  match s.session with
  | some p =>
    match p.ffbOut with
    | .recover _ => true
    | .receive | .write | .stopped => false
  | none => false

/-- The EP0 task takes a request for a clear, and succeeds with it, only while the
recovery that asked for it is waiting. -/
def InTime (s : Bridge) (m : Halts) : BridgeEffect → Prop
  | .clearHalt _ => s.recovering = true
  | .haltCleared true => s.recovering = true ∧ m.clearFor = m.recoveries
  | _ => True

instance (s : Bridge) (m : Halts) (e : BridgeEffect) : Decidable (InTime s m e) :=
  match e with
  | .clearHalt _ => inferInstanceAs (Decidable (_ = true))
  | .haltCleared true => inferInstanceAs (Decidable (_ ∧ _))
  | .haltCleared false | .pullup _ | .linked _ | .queued _ | .took _ | .cleared
  | .inputGiven _ | .wheelInput _ | .attached | .detached | .request _ | .message _ _
  | .returned _ _ | .repeated _ | .revLights _ | .ffbWrite _ | .recoverAsked
  | .toggleReset => isTrue trivial

def ClearsInTime (s : Bridge) (m : Halts) (es : List BridgeEffect) (_ : Bridge) : Prop :=
  ∀ e ∈ es, InTime s m e

instance (s : Bridge) (m : Halts) (es : List BridgeEffect) (t : Bridge) :
    Decidable (ClearsInTime s m es t) :=
  inferInstanceAs (Decidable (∀ e ∈ es, _))

def Ep0.Clearing (e : Ep0) : Prop := ∃ ep tick, e = .clearHalt ep tick

/-- Where a session is with its toggle, as long as clears are in time. -/
structure InStep (s : Bridge) (m : Halts) (p : Session) : Prop where
  resting : p.ffbOut = .receive ∨ p.ffbOut = .stopped → m.toggle = .inStep ∨ m.toggle = .reset
  writing : p.ffbOut = .write → m.toggle = .inStep
  recovering : ∀ deadline, p.ffbOut = .recover deadline → m.asked = true ∧
    (m.toggle = .inStep ∧ s.ffbHaltCleared ≠ some true ∨
      m.toggle = .cleared ∧ s.ffbHaltCleared = some true ∧ s.ffbRecover = none ∧
        ¬ p.ep0.Clearing)
  clearing : p.ep0.Clearing → m.clearFor = m.recoveries → s.ffbRecover = none

structure InSteps (s : Bridge) (m : Halts) : Prop where
  clearFor_le : m.clearFor ≤ m.recoveries
  session : ∀ p, s.session = some p → InStep s m p

namespace InSteps

variable {s t : Bridge} {m : Halts} {p p' : Session}

/-- Nothing of the recovery changes. -/
theorem keep (h : InSteps s m) (ht : t.session = s.session) (hr : t.ffbRecover = s.ffbRecover)
    (hc : t.ffbHaltCleared = s.ffbHaltCleared) : InSteps t m := by
  refine ⟨h.clearFor_le, ?_⟩
  intro p hp
  rw [ht] at hp
  obtain ⟨hrest, hwrite, hrec, hclear⟩ := h.session p hp
  exact ⟨hrest, hwrite, by rw [hr, hc]; exact hrec, by rw [hr]; exact hclear⟩

/-- The EP0 task goes on with something else. -/
theorem ep0 (h : InSteps s m) (hs : s.session = some p) (ht : t.session = some p')
    (hf : p'.ffbOut = p.ffbOut) (he : ¬ p'.ep0.Clearing) (hr : t.ffbRecover = s.ffbRecover)
    (hc : t.ffbHaltCleared = s.ffbHaltCleared) : InSteps t m := by
  refine ⟨h.clearFor_le, ?_⟩
  intro r hr'
  rw [ht] at hr'
  obtain rfl := Option.some.inj hr'
  obtain ⟨hrest, hwrite, hrec, hclear⟩ := h.session p hs
  refine ⟨by rw [hf]; exact hrest, by rw [hf]; exact hwrite, ?_, fun hcl => absurd hcl he⟩
  intro deadline hd
  rw [hf] at hd
  obtain ⟨hasked, hstate⟩ := hrec deadline hd
  rw [hr, hc]
  refine ⟨hasked, ?_⟩
  rcases hstate with hclean | ⟨htog, hhalt, hrecov, -⟩
  · exact Or.inl hclean
  · exact Or.inr ⟨htog, hhalt, hrecov, he⟩

end InSteps

theorem Bridge.recovering_iff {s : Bridge} {p : Session} (hs : s.session = some p) :
    s.recovering = true ↔ ∃ deadline, p.ffbOut = .recover deadline := by
  unfold Bridge.recovering
  rw [hs]
  cases hf : p.ffbOut <;> simp [hf]

theorem Ep0.Moves.not_clearing {s : Bridge} {e e' : Ep0} (h : Ep0.Moves s e e') :
    ¬ e'.Clearing := by
  intro hc
  obtain ⟨ep, tick, rfl⟩ := hc
  cases h

theorem not_clearing {e : Ep0} (h : ∀ ep tick, e ≠ .clearHalt ep tick) : ¬ e.Clearing := by
  intro hc
  obtain ⟨ep, tick, heq⟩ := hc
  exact h ep tick heq

namespace InSteps

variable {s t : Bridge} {m : Halts} {p : Session}

/-- The EP0 task takes a request for a clear from the recovery that waits. -/
theorem clears (h : InSteps s m) (hs : s.session = some p) {ep : UInt8} {tick : ℕ}
    (hr : s.ffbRecover = some ep) (hrec : s.recovering = true) :
    InSteps { s with ffbRecover := none, session := some { p with ep0 := .clearHalt ep tick } }
      (m.watch (.clearHalt ep)) ∧ m.asked = true := by
  obtain ⟨deadline, hd⟩ := (Bridge.recovering_iff hs).mp hrec
  obtain ⟨hrest, hwrite, hrecov, -⟩ := h.session p hs
  obtain ⟨hasked, hstate⟩ := hrecov deadline hd
  refine ⟨⟨Nat.le_refl _, ?_⟩, hasked⟩
  intro r hr'
  obtain rfl := Option.some.inj hr'
  refine ⟨hrest, hwrite, fun _ _ => ⟨hasked, ?_⟩, fun _ _ => rfl⟩
  rcases hstate with hclean | ⟨-, -, hnone, -⟩
  · exact Or.inl hclean
  · rw [hr] at hnone
    cases hnone

/-- A clear ends. -/
theorem cleared (h : InSteps s m) (hs : s.session = some p) {ep : UInt8} {tick : ℕ}
    (he : p.ep0 = .clearHalt ep tick) (ok : Bool)
    (hok : ok = true → s.recovering = true ∧ m.clearFor = m.recoveries) :
    InSteps { s with ffbHaltCleared := some ok, session := some { p with ep0 := .select tick } }
      (m.watch (.haltCleared ok)) := by
  have hcl : p.ep0.Clearing := ⟨ep, tick, he⟩
  have hnot : ¬ (Ep0.select tick).Clearing := not_clearing (by simp)
  obtain ⟨hrest, hwrite, hrecov, hclear⟩ := h.session p hs
  cases ok with
  | false =>
    refine ⟨h.clearFor_le, ?_⟩
    intro r hr
    obtain rfl := Option.some.inj hr
    refine ⟨hrest, hwrite, ?_, fun hc => absurd hc hnot⟩
    intro deadline hd
    obtain ⟨hasked, hstate⟩ := hrecov deadline hd
    rcases hstate with ⟨htog, -⟩ | ⟨-, -, -, hno⟩
    · exact ⟨hasked, Or.inl ⟨htog, by simp⟩⟩
    · exact absurd hcl hno
  | true =>
    obtain ⟨hrec, hfor⟩ := hok rfl
    obtain ⟨deadline, hd⟩ := (Bridge.recovering_iff hs).mp hrec
    obtain ⟨hasked, hstate⟩ := hrecov deadline hd
    rcases hstate with ⟨htog, -⟩ | ⟨-, -, -, hno⟩
    · refine ⟨h.clearFor_le, ?_⟩
      intro r hr
      obtain rfl := Option.some.inj hr
      refine ⟨?_, ?_, fun _ _ => ⟨hasked, Or.inr ?_⟩, fun hc => absurd hc hnot⟩
      · intro hf
        rw [show p.ffbOut = _ from hd] at hf
        rcases hf with hf | hf <;> exact absurd hf (by simp)
      · intro hf
        rw [show p.ffbOut = _ from hd] at hf
        cases hf
      · exact ⟨Halts.cleared_of_inStep htog, rfl, hclear hcl hfor, hnot⟩
    · exact absurd hcl hno

/-- The FFB OUT task rests, the host's toggle being in step or just reset. -/
theorem rests (h : InSteps s m) (hs : s.session = some p) {f : FfbOut}
    (hf : f = .receive ∨ f = .stopped) (ht : t.session = some { p with ffbOut := f })
    {m' : Halts} (hm : m'.toggle = .inStep ∨ m'.toggle = .reset)
    (hfor : m'.clearFor = m.clearFor) (hrecs : m'.recoveries = m.recoveries)
    (hr : t.ffbRecover = s.ffbRecover) : InSteps t m' := by
  refine ⟨by rw [hfor, hrecs]; exact h.clearFor_le, ?_⟩
  intro r hr'
  rw [ht] at hr'
  obtain rfl := Option.some.inj hr'
  refine ⟨fun _ => hm, ?_, ?_, ?_⟩
  · intro hw
    rcases hf with rfl | rfl <;> cases hw
  · intro deadline hd
    rcases hf with rfl | rfl <;> cases hd
  · rw [hfor, hrecs, hr]
    exact (h.session p hs).clearing

end InSteps

theorem FfbOut.Moves.spec {f f' : FfbOut} (h : FfbOut.Moves f f') :
    f = .write ∧ (f' = .receive ∨ f' = .stopped) := by
  cases h with
  | next => exact ⟨rfl, Or.inl rfl⟩
  | stop => exact ⟨rfl, Or.inr rfl⟩

theorem toggle_step {s t : Bridge} {m : Halts} {es : List BridgeEffect} (h : InSteps s m)
    (hstep : Moved s t es) (hc : ClearsInTime s m es t) :
    InSteps t (es.foldl Halts.watch m) ∧ Each Halts.watch KeepsInStep m es := by
  cases hstep with
  | attach ep hs =>
    refine ⟨⟨h.clearFor_le, ?_⟩, trivial, trivial⟩
    intro r hr
    obtain rfl := Option.some.inj hr
    refine ⟨fun _ => Or.inl rfl, fun _ => rfl, fun _ hd => (by cases hd), ?_⟩
    exact fun hcl => absurd hcl (not_clearing (by simp [Session.start]))
  | detach p hs => exact ⟨⟨h.clearFor_le, fun r hr => by cases hr⟩, trivial, trivial, trivial⟩
  | message p packet answers hs =>
    obtain ⟨q, n, heq⟩ := s.hidppMessage_eq packet
    rw [heq]
    exact ⟨h.keep rfl rfl rfl, trivial, trivial⟩
  | ep0 p e hs hm => exact ⟨h.ep0 hs rfl rfl hm.not_clearing rfl rfl, trivial⟩
  | wakes p iface hs | pingsOn p start tick hs | queries p wake hs =>
    exact ⟨h.ep0 hs rfl rfl (not_clearing (by simp)) rfl rfl, trivial, trivial⟩
  | queriesOn p q q' answer led hs hr | awake p q answer b led hs hr
  | repeats p msg q tick hs | lights p report q tick lit msg hs =>
    exact ⟨h.ep0 hs rfl rfl (not_clearing (by simp)) rfl rfl, trivial, trivial, trivial⟩
  | clears p ep tick hs he hr =>
    obtain ⟨hin, hasked⟩ := h.clears hs hr (hc _ List.mem_cons_self)
    exact ⟨hin, hasked, trivial⟩
  | cleared p ep tick ok hs he =>
    refine ⟨h.cleared hs he ok ?_, trivial, trivial⟩
    intro hok
    subst hok
    exact hc _ List.mem_cons_self
  | ffbTakes p packet q hs hf hq =>
    have hp := h.session p hs
    refine ⟨⟨h.clearFor_le, ?_⟩, trivial, hp.resting (Or.inl hf), trivial⟩
    intro r hr
    obtain rfl := Option.some.inj hr
    exact ⟨fun _ => Or.inl rfl, fun _ => rfl, fun _ hd => (by cases hd), hp.clearing⟩
  | ffb p f hs hm =>
    obtain ⟨hw, hf⟩ := hm.spec
    have htog := (h.session p hs).writing hw
    exact ⟨h.rests hs hf rfl (Or.inl htog) rfl rfl rfl, trivial⟩
  | recovers p hs hf =>
    have hp := h.session p hs
    refine ⟨⟨Nat.le_succ_of_le h.clearFor_le, ?_⟩, trivial, trivial, trivial⟩
    intro r hr
    obtain rfl := Option.some.inj hr
    have htog : m.toggle = .inStep := hp.writing hf
    refine ⟨fun _ => Or.inl htog, fun _ => htog, fun _ _ => ⟨rfl, Or.inl ⟨htog, by simp⟩⟩, ?_⟩
    intro _ heq
    have hle := h.clearFor_le
    change m.clearFor = m.recoveries + 1 at heq
    omega
  | recovered p deadline hs hf hcl =>
    obtain ⟨-, hstate⟩ := (h.session p hs).recovering deadline hf
    have htog : m.toggle = .cleared := by
      rcases hstate with ⟨-, hne⟩ | ⟨htog, -⟩
      · exact absurd hcl hne
      · exact htog
    refine ⟨?_, by simp [KeepsInStep, htog], trivial, trivial⟩
    exact h.rests hs (Or.inl rfl) rfl (Or.inr (Halts.reset_of_cleared htog)) rfl rfl rfl
  | givesUp p deadline hs hf hcl =>
    obtain ⟨-, hstate⟩ := (h.session p hs).recovering deadline hf
    rcases hstate with ⟨htog, -⟩ | ⟨-, heq, -⟩
    · exact ⟨h.rests hs (Or.inl rfl) rfl (Or.inl htog) rfl rfl rfl, trivial, trivial⟩
    · exact absurd heq hcl
  | polls p i j f hs =>
    refine ⟨⟨h.clearFor_le, ?_⟩, trivial⟩
    intro r hr
    obtain rfl := Option.some.inj hr
    obtain ⟨hrest, hwrite, hrec, hclear⟩ := h.session p hs
    exact ⟨hrest, hwrite, hrec, hclear⟩
  | _ => exact ⟨h.keep rfl rfl rfl, by simp [KeepsInStep]⟩

/-- In every run whose clears are all in time, every clear is followed by exactly one
reset of the toggle before the next packet, and nothing is reset or cleared without need. -/
theorem keeps_in_step (as : List BridgeAct)
    (h : bridge.Along Halts.watch ClearsInTime Bridge.init Halts.init as) :
    bridge.Along Halts.watch (fun _ m es _ => Each Halts.watch KeepsInStep m es)
      Bridge.init Halts.init as := by
  refine Machine.along_of_invariant InSteps ?_ as Bridge.init Halts.init ?_ h
  · intro s m a es t hi hstep hc
    exact toggle_step hi (moved hstep) hc
  · exact ⟨Nat.le_refl 0, fun p hp => by cases hp⟩

/-- The wheel STALLs a packet, the halt is cleared at once, and the next packet is written. -/
def recoveredRun : List BridgeAct :=
  wakeUp 0x03 ++ [.follow, .ffbPacket [0x01], .ffbTake, .ffbReply (some .stall), .ep0Recover,
    .ep0Done true, .ffbCleared, .follow, .elapse minDetach, .followTimer, .follow,
    .ffbPacket [0x01], .ffbTake]

theorem recovered_in_step :
    (bridge.run Bridge.init recoveredRun).isSome = true ∧
      bridge.Along Halts.watch (fun _ m es _ => Each Halts.watch KeepsInStep m es)
        Bridge.init Halts.init recoveredRun :=
  ⟨by decide +kernel, keeps_in_step recoveredRun (by decide +kernel)⟩

/-- The wheel STALLs while it is being woken up; the wait for the clear times out, and
the clear is made when the wake-up is over. -/
def lateClearRun : List BridgeAct :=
  wakeUp 0x03 ++ [.follow, .detach, .ffbPacket [0x01], .attach 0x03, .ffbTake,
    .ffbReply (some .stall), .follow, .elapse ffbRecoveryTimeout, .ffbTimeout, .followTimer,
    .follow, .follow] ++ (wakeUp 0x03).tail ++
  [.follow, .ep0Recover, .ep0Done true, .ffbPacket [0x01], .ffbTake]

theorem late_clear_out_of_step :
    (bridge.run Bridge.init lateClearRun).isSome = true ∧
      ¬ bridge.Along Halts.watch (fun _ m es _ => Each Halts.watch KeepsInStep m es)
        Bridge.init Halts.init lateClearRun := by
  decide +kernel

end WheelBridge
