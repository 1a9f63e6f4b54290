import WheelBridge.Ep0Steps

/-!
Which rev-light levels are left out. The level of the last command is kept as soon as it is
sent, whether or not the transfer goes through, so the level of a command that failed is not
tried again until another one has been sent.
-/
namespace WheelBridge

/-- The level that an IF0 report `30 f8 12 <mask>` asks for. -/
def levelAsked (report : List UInt8) : Option ℕ :=
  match report with
  | 0x30 :: a :: b :: mask :: _ =>
    if [a, b] = revLights then some (countOnes (mask &&& 0x1f) * 2) else none
  | _ => none

/-- The level that the next report in the queue asks for. -/
def Bridge.asked (s : Bridge) : Option ℕ := s.if0Out.receive.bind fun r => levelAsked r.1.bytes

/-- The level in a rev-light command. -/
def levelSent (msg : List UInt8) : ℕ := (msg.getD 9 0).toNat

/-- The rev-light commands of a session. -/
structure Lights where
  /-- The level of the last one; it is on its way, or its transfer failed. -/
  sent : Option ℕ
  pending : Bool
  failed : Bool
  /-- The level of the last one that the wheel accepted. -/
  accepted : Option ℕ

namespace Lights

def init : Lights := ⟨none, false, false, none⟩

def watch (m : Lights) : BridgeAct ⊕ BridgeEffect → Lights
  | .inr .attached => init
  | .inr (.revLights msg) =>
    { m with sent := some (levelSent msg), pending := true, failed := false }
  | .inl (.ep0Done ok) =>
    if m.pending then
      { m with pending := false, failed := !ok, accepted := if ok then m.sent else m.accepted }
    else m
  | _ => m

end Lights

def takesReport (es : List (BridgeAct ⊕ BridgeEffect)) : Bool :=
  es.any fun e => e = .inr (.took .if0)

def sendsLights (es : List (BridgeAct ⊕ BridgeEffect)) : Bool :=
  es.any fun e =>
    match e with
    | .inr (.revLights _) => true
    | _ => false

/-- Where a report that asks for a level gives no command, the wheel has that level. -/
def SuppressesKnown (s : Bridge) (m : Lights) (es : List (BridgeAct ⊕ BridgeEffect))
    (_ : Bridge) : Prop :=
  takesReport es = true → sendsLights es = false →
    ∀ lit ∈ s.asked, s.ledFeature ≠ 0 → m.accepted = some lit

instance (s : Bridge) (m : Lights) (es : List (BridgeAct ⊕ BridgeEffect)) (t : Bridge) :
    Decidable (SuppressesKnown s m es t) :=
  inferInstanceAs (Decidable (_ → _ → _))

/-- A report that asks again for the level of a command that failed, with none sent since,
asks for the level that the wheel has. -/
def FailedNotAsked (s : Bridge) (m : Lights) (es : List (BridgeAct ⊕ BridgeEffect))
    (_ : Bridge) : Prop :=
  takesReport es = true → ∀ lit ∈ s.asked, s.ledFeature ≠ 0 → m.sent = some lit →
    m.failed = true → m.accepted = some lit

theorem countOnes_le (b : UInt8) : countOnes b ≤ 8 := List.length_filter_le ..

theorem levelSent_revCommand {report : List UInt8} {led : UInt8} {last : Option ℕ} {lit : ℕ}
    {msg : List UInt8} (h : revCommand report led last = some (lit, msg)) :
    levelSent msg = lit ∧ levelAsked report = some lit ∧ led ≠ 0 ∧ last ≠ some lit ∧
      msg.getD 2 0 = led := by
  unfold revCommand at h
  split at h
  · next a b mask rest =>
    split at h
    · cases h
    · next hnot =>
      obtain ⟨hrev, hled⟩ := not_or.mp hnot
      dsimp only at h
      split at h
      · cases h
      · next hlast =>
        cases h
        have hle := countOnes_le (mask &&& 0x1f)
        have hbyte : (UInt8.ofNat (countOnes (mask &&& 0x1f) * 2)).toNat =
            countOnes (mask &&& 0x1f) * 2 := UInt8.toNat_ofNat_of_lt' (by change _ < 256; omega)
        exact ⟨hbyte, if_pos (not_not.mp hrev), hled, hlast, rfl⟩
  · cases h

/-- A report that asks for a level gives no command if no LED feature is known, or if it is
the level of the last command. -/
theorem revCommand_eq_none {report : List UInt8} {led : UInt8} {last : Option ℕ} {lit : ℕ}
    (hlit : levelAsked report = some lit) (h : revCommand report led last = none)
    (hled : led ≠ 0) : last = some lit := by
  unfold levelAsked at hlit
  split at hlit
  · next a b mask rest =>
    split at hlit
    · next hrev =>
      cases hlit
      by_contra hlast
      simp [revCommand, hrev, hled, hlast] at h
    · cases hlit
  · cases hlit

/-- What the session's last level tells of its commands. -/
structure Lit (p : Session) (m : Lights) : Prop where
  sent : m.sent = p.revLevel
  waking : p.ep0.stage = .waking → m.sent = none
  pending : m.pending = true ↔ p.ep0.stage = .lighting
  accepted : m.pending = false → m.failed = false → m.accepted = m.sent

namespace Lit

variable {p p' : Session} {m : Lights}

theorem init (ep : UInt8) : Lit (Session.start ep) Lights.init where
  sent := rfl
  waking _ := rfl
  pending := iff_of_false Bool.noConfusion Ep0.Stage.noConfusion
  accepted _ _ := rfl

/-- The task goes on before or after the wheel is awake. -/
theorem frame (h : Lit p m) (hrev : p'.revLevel = p.revLevel)
    (hstage : p'.ep0.stage = p.ep0.stage) : Lit p' m where
  sent := h.sent.trans hrev.symm
  waking hw := h.waking (hstage ▸ hw)
  pending := by rw [h.pending, hstage]
  accepted := h.accepted

/-- The wheel is awake: no command has been sent yet. -/
theorem awake (h : Lit p m) (hp : p.ep0.stage = .waking) (hp' : p'.ep0.stage = .serving)
    (hrev : p'.revLevel = none) : Lit p' m where
  sent := (h.waking hp).trans hrev.symm
  waking hw := by
    rw [hp'] at hw
    cases hw
  pending := by
    rw [h.pending, hp, hp']
    decide
  accepted := h.accepted

theorem lights (m : Lights) {lit : ℕ} {msg : List UInt8} (hmsg : levelSent msg = lit)
    (hp' : p'.ep0.stage = .lighting) (hrev : p'.revLevel = some lit) :
    Lit p' (m.watch (.inr (.revLights msg))) where
  sent := by
    rw [hrev, ← hmsg]
    rfl
  waking hw := by
    rw [hp'] at hw
    cases hw
  pending := iff_of_true rfl hp'
  accepted hpend := by cases hpend

/-- The transfer of a command ends. -/
theorem done (h : Lit p m) (ok : Bool) (hp : p.ep0.stage = .lighting)
    (hp' : p'.ep0.stage = .serving) (hrev : p'.revLevel = p.revLevel) :
    Lit p' (m.watch (.inl (.ep0Done ok))) := by
  have hpend : m.pending = true := h.pending.mpr hp
  rw [Lights.watch, if_pos hpend]
  refine ⟨h.sent.trans hrev.symm, ?_, ?_, ?_⟩
  · intro hw
    rw [hp'] at hw
    cases hw
  · rw [hp']
    exact iff_of_false Bool.noConfusion Ep0.Stage.noConfusion
  · intro _ hok
    have htrue : ok = true := by simpa using hok
    simp [htrue]

end Lit

/-- Effects of others than the EP0 task, and an action that does not end its transfer. -/
theorem Lights.watch_other {m : Lights} {a : BridgeAct} {es : List BridgeEffect}
    (ha : m.pending = false ∨ ∀ ok, a ≠ .ep0Done ok)
    (hes : ∀ e ∈ es, e ≠ .attached ∧ ∀ msg, e ≠ .revLights msg) :
    (.inl a :: es.map .inr).foldl Lights.watch m = m := by
  apply foldl_unheeded
  intro e he
  rcases List.mem_cons.mp he with rfl | he
  · cases a with
    | ep0Done ok =>
      rcases ha with hpend | hne
      · rw [Lights.watch, hpend]
        rfl
      · exact absurd rfl (hne ok)
    | _ => rfl
  · obtain ⟨f, hf, rfl⟩ := List.mem_map.mp he
    obtain ⟨hatt, hrev⟩ := hes f hf
    cases f with
    | attached => exact absurd rfl hatt
    | revLights msg => exact absurd rfl (hrev msg)
    | _ => rfl

def LitIn (s : Bridge) (m : Lights) : Prop := ∀ p, s.session = some p → Lit p m

theorem lit_step {s t : Bridge} {m : Lights} {a : BridgeAct} {es : List BridgeEffect}
    (h : LitIn s m) (hstep : bridge.step s a = some (t, es)) :
    LitIn t ((.inl a :: es.map .inr).foldl Lights.watch m) := by
  rcases ep0_or_elsewhere hstep with hep0 | ⟨ha, helse⟩
  · obtain ⟨p, p', hs, ht, hmove⟩ := hep0
    have hp := h p hs
    have hidle : p.ep0.stage ≠ .lighting → m.pending = false := by
      intro hne
      cases hpend : m.pending with
      | false => rfl
      | true => exact absurd (hp.pending.mp hpend) hne
    intro r hr
    rw [ht] at hr
    obtain rfl := Option.some.inj hr
    cases hmove with
    | waking _ _ hstage hstage' hrev _ hes =>
      rw [Lights.watch_other (Or.inl (hidle (by rw [hstage]; decide))) (by
        intro e he
        obtain ⟨msg, rfl⟩ := hes e he
        simp)]
      exact hp.frame hrev (hstage'.trans hstage.symm)
    | queriesOn _ q q' answer hr _ hstage' hrev =>
      rw [Lights.watch_other (Or.inl (hidle (by rw [hr.stage]; decide))) (by simp)]
      exact hp.frame hrev (hstage'.trans hr.stage.symm)
    | awake _ q answer hr _ hstage' hrev =>
      rw [Lights.watch_other (Or.inl (hidle (by rw [hr.stage]; decide))) (by simp)]
      exact hp.awake hr.stage hstage' hrev
    | serves _ _ hstage hstage' hrev _ hes =>
      rw [Lights.watch_other (Or.inl (hidle (by rw [hstage]; decide))) (by
        intro e he
        refine ⟨(hes e he).2, ?_⟩
        rintro msg rfl
        cases (hes _ he).1)]
      exact hp.frame hrev (hstage'.trans hstage.symm)
    | ignores report q hstage hq hc hstage' hrev =>
      rw [Lights.watch_other (Or.inl (hidle (by rw [hstage]; decide))) (by simp)]
      exact hp.frame hrev (hstage'.trans hstage.symm)
    | lights report q lit msg hstage hq hc hstage' hrev =>
      exact Lit.lights m (levelSent_revCommand hc).1 hstage' hrev
    | lit ok hstage hstage' hrev => exact hp.done ok hstage hstage' hrev
  · intro r hr
    rcases helse.session r hr with ⟨rfl, ep, rfl⟩ | ⟨hatt, p, hs, hep0, hrev⟩
    · cases a with
      | ep0Done ok => exact absurd rfl (ha ok)
      | _ => exact Lit.init ep
    · rw [Lights.watch_other (Or.inr ha) (by
        intro e he
        have hof := helse.effects e he
        refine ⟨fun heq => hatt (heq ▸ he), ?_⟩
        rintro msg rfl
        cases hof)]
      exact (h p hs).frame hrev (congrArg Ep0.stage hep0)

/-- A rev-light level is left out only if the wheel has it, if and only if no report asks
again for the level of a command that failed. -/
theorem suppressed_iff (as : List BridgeAct) :
    bridge.recorded.Along Lights.watch SuppressesKnown Bridge.init Lights.init as ↔
      bridge.recorded.Along Lights.watch FailedNotAsked Bridge.init Lights.init as := by
  apply Machine.along_iff LitIn
  · intro s m a es t h hstep _
    obtain ⟨fs, hfs, rfl⟩ := Machine.recorded_step.mp hstep
    exact lit_step h hfs
  · intro s m a es t h hstep
    obtain ⟨fs, hfs, rfl⟩ := Machine.recorded_step.mp hstep
    refine imp_congr_right fun htakes => ?_
    have htook : .took .if0 ∈ fs := by simpa [takesReport] using htakes
    rcases ep0_or_elsewhere hfs with hep0 | ⟨-, helse⟩
    · obtain ⟨p, p', hs, -, hmove⟩ := hep0
      have hp := h p hs
      cases hmove with
      | ignores report q hstage hq hc =>
        have hidle : m.pending = false := by
          rw [Bool.eq_false_iff]
          intro hpend
          rw [hp.pending.mp hpend] at hstage
          cases hstage
        have hasked : s.asked = levelAsked report.bytes := by
          rw [Bridge.asked, hq, Option.bind_some]
        rw [hasked]
        constructor
        · intro hknown lit hlit hled _ _
          exact hknown rfl lit hlit hled
        · intro hcond _ lit hlit hled
          have hsent : m.sent = some lit := by rw [hp.sent, revCommand_eq_none hlit hc hled]
          cases hfailed : m.failed with
          | true => exact hcond lit hlit hled hsent hfailed
          | false => rw [hp.accepted hidle hfailed, hsent]
      | lights report q lit msg hstage hq hc =>
        have hasked : s.asked = levelAsked report.bytes := by
          rw [Bridge.asked, hq, Option.bind_some]
        obtain ⟨-, hlit, -, hlast, -⟩ := levelSent_revCommand hc
        rw [hasked, hlit]
        refine iff_of_true (fun hno => by cases hno) ?_
        intro lit' hlit' _ hsent
        obtain rfl := Option.some.inj hlit'
        exact absurd (hp.sent.symm.trans hsent) hlast
      | waking _ _ _ _ _ _ hes =>
        obtain ⟨msg, hmsg⟩ := hes _ htook
        cases hmsg
      | serves _ _ _ _ _ _ hes => cases (hes _ htook).1
      | queriesOn | awake | lit => simp at htook
    · cases helse.effects _ htook
  · exact fun p hp => by cases hp

/-- The wheel has LED effects at index 9. -/
def litWakeUp (ep : UInt8) : List BridgeAct :=
  [.attach ep, .ep0Done true, .ep0Done true, .ep0Done true, .ep0Done true,
    hidppAnswer 0x00 0x1b [0x04, 0x02, 0x5a] 0, .elapse 20, .ep0Timer, .elapse 100, .ep0Timer,
    .ep0Done true, hidppAnswer 0x00 bridgeSwid [] 1, .ep0Answer,
    .ep0Done true, hidppAnswer 0x00 bridgeSwid [0x09] 2, .ep0Answer]

/-- The first command fails, and the report comes again. -/
def failedLightsRun : List BridgeAct :=
  litWakeUp 0x03 ++ [.follow, .if0Packet [0x30, 0xf8, 0x12, 0x01], .ep0If0, .ep0Done false,
    .if0Packet [0x30, 0xf8, 0x12, 0x01], .ep0If0]

theorem failed_lights_not_sent_again :
    (bridge.run Bridge.init failedLightsRun).isSome = true ∧
      ¬ bridge.recorded.Along Lights.watch SuppressesKnown Bridge.init Lights.init
        failedLightsRun := by
  decide +kernel

end WheelBridge
