import WheelBridge.BridgeSteps

/-!
Whether the wheel is awake when it is reported so. Two tasks of a session report it: the
EP0 task at the end of its wake-up, which also ends on a timeout, and the force feedback
task at the end of a recovery, which may run while the wake-up is still going on.
-/
namespace WheelBridge

/-- What the session has heard of its wheel. -/
structure Hearing where
  /-- The bridge has sent a HID++ request in this session. -/
  asked : Bool
  /-- The wheel has sent a message with a software ID since. -/
  answered : Bool
  /-- The wait of a `hidpp_request` has ended with an answer. -/
  queryAnswered : Bool

namespace Hearing

def init : Hearing := ⟨false, false, false⟩

def watch (m : Hearing) : BridgeAct ⊕ BridgeEffect → Hearing
  | .inl .ep0Answer => { m with queryAnswered := true }
  | .inr .attached => init
  | .inr (.request _) => { m with asked := true }
  | .inr (.message b _) => { m with answered := m.answered || (m.asked && softwareId b ≠ 0) }
  | .inl _ | .inr _ => m

/-- A further request changes nothing. -/
theorem watch_request {m : Hearing} (h : m.asked = true) (msg : List UInt8) :
    m.watch (.inr (.request msg)) = m := by
  cases m
  cases h
  rfl

end Hearing

/-- The wheel has answered a request of this session whenever it is reported awake. -/
def ReportsAwake (m : Hearing) : BridgeAct ⊕ BridgeEffect → Prop
  | .inr (.linked true) => m.answered = true
  | .inl _ | .inr _ => True

instance (m : Hearing) (e : BridgeAct ⊕ BridgeEffect) : Decidable (ReportsAwake m e) := by
  unfold ReportsAwake
  split <;> infer_instance

/-- The wake-up is over. -/
def Ep0.awake : Ep0 → Bool
  | .setIdle _ | .ping _ _ | .pingTick _ _ | .lastAnswers _ | .querySend _ | .queryWait _ _ => false
  | .select _ | .control _ | .revLights _ | .clearHalt _ _ | .getStatus _ => true

def Ep0.querying : Ep0 → Bool
  | .querySend _ | .queryWait _ _ => true
  | _ => false

def FfbOut.inRecovery : FfbOut → Bool
  | .recover _ => true
  | .receive | .write | .stopped => false

namespace Bridge

/-- The EP0 task serves the wheel. -/
def serves (s : Bridge) : Bool := s.session.any fun p => p.ep0.awake

/-- The FFB OUT task is in `recover_ffb`. -/
def inRecovery (s : Bridge) : Bool := s.session.any fun p => p.ffbOut.inRecovery

end Bridge

/-- A recovery ends only when the wake-up of its session is over, and a wake-up whose pings
ended by their timeout only when one of its queries was answered. -/
def WakesFirst (s : Bridge) (m : Hearing) (es : List (BridgeAct ⊕ BridgeEffect)) (t : Bridge) :
    Prop :=
  (s.inRecovery = true → t.session.isSome = true → t.inRecovery = false → s.serves = true) ∧
    (s.serves = false → t.serves = true →
      s.wheelAnswered = true ∨ (es.foldl Hearing.watch m).queryAnswered = true)

instance (s : Bridge) (m : Hearing) (es : List (BridgeAct ⊕ BridgeEffect)) (t : Bridge) :
    Decidable (WakesFirst s m es t) :=
  inferInstanceAs (Decidable (_ ∧ _))

/-- What the EP0 task and the statics tell of what the session has heard, once it has asked. -/
structure Heard (s : Bridge) (m : Hearing) (e : Ep0) : Prop where
  asked : m.asked = true
  pings : s.wheelAnswered = true → m.answered = true
  queries : m.queryAnswered = true → m.answered = true
  signal : e.querying = true → s.bridgeAnswer ≠ none → m.answered = true
  awake : e.awake = true → m.answered = true

/-- In `set_idle_all` nothing has been asked yet. -/
def Hears (s : Bridge) (m : Hearing) : Prop :=
  ∀ p, s.session = some p → (∃ iface, p.ep0 = .setIdle iface) ∧ m = Hearing.init ∨ Heard s m p.ep0

namespace Hears

variable {s t : Bridge} {m : Hearing} {p p' : Session}

/-- In a session past `set_idle_all`. -/
theorem heard (h : Hears s m) (hs : s.session = some p) (he : ∀ iface, p.ep0 ≠ .setIdle iface) :
    Heard s m p.ep0 := by
  rcases h p hs with ⟨⟨iface, hi⟩, -⟩ | hp
  · exact absurd hi (he iface)
  · exact hp

/-- The EP0 task stays where it is. -/
theorem same (h : Hears s m) (ht : ∀ p', t.session = some p' →
      ∃ p, s.session = some p ∧ p'.ep0 = p.ep0)
    (hw : t.wheelAnswered = s.wheelAnswered) (hb : t.bridgeAnswer = s.bridgeAnswer) :
    Hears t m := by
  intro p' hp'
  obtain ⟨p, hs, he⟩ := ht p' hp'
  rw [he]
  refine (h p hs).imp_right fun hp => ⟨hp.asked, ?_, hp.queries, ?_, hp.awake⟩
  · rw [hw]
    exact hp.pings
  · rw [hb]
    exact hp.signal

/-- The EP0 task goes on, with all that is known of the answers. -/
theorem goesOn (h : Hears s m) (hs : s.session = some p) (he : ∀ iface, p.ep0 ≠ .setIdle iface)
    (ht : t.session = some p') (hw : t.wheelAnswered = s.wheelAnswered)
    (hb : p'.ep0.querying = true → t.bridgeAnswer = none ∨
      p.ep0.querying = true ∧ t.bridgeAnswer = s.bridgeAnswer)
    (ha : p'.ep0.awake = true → m.answered = true) : Hears t m := by
  intro r hr
  rw [ht] at hr
  obtain rfl := Option.some.inj hr
  have hp := h.heard hs he
  refine .inr ⟨hp.asked, ?_, hp.queries, fun hq hne => ?_, ha⟩
  · rw [hw]
    exact hp.pings
  · rcases hb hq with hnone | ⟨hq', hsame⟩
    · exact absurd hnone hne
    · exact hp.signal hq' (hsame ▸ hne)

/-- A message that comes once something was asked is an answer if it has a software ID. -/
theorem message (h : Hears s m) (packet : Packet) (answers : Option ℕ) :
    Hears (s.hidppMessage packet) (m.watch (.inr (.message packet.bytes answers))) := by
  obtain ⟨q, n, heq⟩ := s.hidppMessage_eq packet
  rw [heq]
  intro p hp
  rcases h p hp with ⟨hi, rfl⟩ | hp
  · exact .inl ⟨hi, rfl⟩
  · have hmono : m.answered = true →
        (m.answered || (m.asked && softwareId packet.bytes ≠ 0)) = true := by
      intro ha
      rw [ha]
      rfl
    refine .inr ⟨hp.asked, fun hw => ?_, fun hq => hmono (hp.queries hq), fun hq hne => ?_,
      fun ha => hmono (hp.awake ha)⟩
    · change (s.wheelAnswered || (s.waking && softwareId packet.bytes ≠ 0)) = true at hw
      change (m.answered || (m.asked && softwareId packet.bytes ≠ 0)) = true
      rcases Bool.or_eq_true_iff.mp hw with hw | hw
      · exact hmono (hp.pings hw)
      · rw [hp.asked, (Bool.and_eq_true_iff.mp hw).2]
        simp
    · change (if softwareId packet.bytes = bridgeSwid then _ else s.bridgeAnswer) ≠ none at hne
      change (m.answered || (m.asked && softwareId packet.bytes ≠ 0)) = true
      split at hne
      · next hswid =>
        rw [hp.asked, hswid]
        simp [bridgeSwid]
      · exact hmono (hp.signal hq hne)

end Hears

/-- The wait of a query ends with an answer only if the wheel has answered. -/
theorem Hears.act {s t : Bridge} {m : Hearing} {a : BridgeAct} {fs : List BridgeEffect}
    (h : Hears s m) (hstep : bridge.step s a = some (t, fs)) : Hears s (m.watch (.inl a)) := by
  cases a
  case ep0Answer =>
    obtain ⟨p, hs, hp⟩ := Bridge.inSession_eq_some.mp hstep
    unfold Bridge.ep0Answer at hp
    split at hp
    · next q deadline a he ha =>
      have hheard := h.heard hs (by simp [he])
      have hanswered : m.answered = true := hheard.signal (by rw [he]; rfl) (by simp [ha])
      intro r hr
      rw [hs] at hr
      obtain rfl := Option.some.inj hr
      exact .inr ⟨hheard.asked, fun _ => hanswered, fun _ => hanswered, fun _ _ => hanswered,
        fun _ => hanswered⟩
    · cases hp
  all_goals exact h

theorem Returns.querying {s : Bridge} {p : Session} {q : Query} {answer : Option (Bytes 20)}
    (h : Returns s p q answer) : p.ep0.querying = true := by
  cases h with
  | failed he | timedOut deadline he | answered deadline a he =>
    rw [he]
    rfl

theorem Returns.past {s : Bridge} {p : Session} {q : Query} {answer : Option (Bytes 20)}
    (h : Returns s p q answer) (iface : ℕ) : p.ep0 ≠ .setIdle iface := by
  intro he
  have hq := h.querying
  rw [he] at hq
  cases hq

theorem Ep0.Moves.phases {s : Bridge} {e e' : Ep0} (h : Ep0.Moves s e e') :
    (∃ iface, e = .setIdle iface ∧ e' = .setIdle (iface + 1)) ∨
      (∀ iface, e ≠ .setIdle iface) ∧ e'.querying = e.querying ∧ e'.awake = e.awake := by
  cases h with
  | setIdle iface => exact .inl ⟨iface, rfl, rfl⟩
  | _ => exact .inr ⟨by simp, rfl, rfl⟩

/-- A report that the wheel is awake ends the wake-up, or a recovery. -/
theorem reported {s t : Bridge} {fs : List BridgeEffect} (hstep : Moved s t fs)
    (hmem : .linked true ∈ fs) : ∃ p, s.session = some p ∧
      (p.ep0.querying = true ∧ t.serves = true ∨
        s.inRecovery = true ∧ t.session.isSome = true ∧ t.inRecovery = false) := by
  cases hstep with
  | awake p q answer b led hs hr => exact ⟨p, hs, .inl ⟨hr.querying, rfl⟩⟩
  | recovered p deadline hs hf | givesUp p deadline hs hf =>
    exact ⟨p, hs, .inr ⟨by simp [Bridge.inRecovery, hs, hf, FfbOut.inRecovery], rfl, rfl⟩⟩
  | _ => simp at hmem

theorem hears_step {s t : Bridge} {m : Hearing} {fs : List BridgeEffect} (h : Hears s m)
    (hstep : Moved s t fs) (hreports : .linked true ∈ fs → m.answered = true) :
    Hears t ((fs.map Sum.inr).foldl Hearing.watch m) := by
  have hkeep : ∀ {p p' : Session}, s.session = some p → t.session = some p' →
      p'.ep0 = p.ep0 → t.wheelAnswered = s.wheelAnswered →
      t.bridgeAnswer = s.bridgeAnswer → Hears t m := by
    intro p p' hs ht he hw hb
    refine h.same (fun r hr => ⟨p, hs, ?_⟩) hw hb
    rw [ht] at hr
    rw [← Option.some.inj hr, he]
  cases hstep with
  | attach ep hs =>
    intro p hp
    obtain rfl := Option.some.inj hp
    exact .inl ⟨⟨0, rfl⟩, rfl⟩
  | detach p hs => exact fun r hr => by cases hr
  | message p packet answers hs => exact h.message packet answers
  | wakes p iface hs he =>
    intro r hr
    obtain rfl := Option.some.inj hr
    rcases h p hs with ⟨-, rfl⟩ | hp
    · exact .inr ⟨rfl, fun hw => (by cases hw), fun hq => (by cases hq), fun hq => (by cases hq),
        fun ha => (by cases ha)⟩
    · exact .inr ⟨rfl, fun hw => (by cases hw), hp.queries, fun hq => (by cases hq),
        fun ha => (by cases ha)⟩
  | pingsOn p start tick hs he =>
    change Hears _ (m.watch (.inr (.request ping)))
    rw [Hearing.watch_request (h.heard hs (by simp [he])).asked]
    exact h.goesOn hs (by simp [he]) rfl rfl (fun hq => by cases hq) fun ha => by cases ha
  | queries p wake hs he =>
    change Hears _ (m.watch (.inr (.request Query.featureSet.msg)))
    rw [Hearing.watch_request (h.heard hs (by simp [he])).asked]
    exact h.goesOn hs (by simp [he]) rfl rfl (fun _ => .inl rfl) fun ha => by cases ha
  | queriesOn p q q' answer led hs hr =>
    change Hears _ (m.watch (.inr (.request q'.msg)))
    rw [Hearing.watch_request (h.heard hs hr.past).asked]
    exact h.goesOn hs hr.past rfl rfl (fun _ => .inl rfl) fun ha => by cases ha
  | awake p q answer b led hs hr =>
    exact h.goesOn hs hr.past rfl rfl (fun hq => by cases hq) fun _ => hreports (by simp)
  | ep0 p e hs hm =>
    rcases hm.phases with ⟨iface, he, he'⟩ | ⟨hidle, hquery, hawake⟩
    · rcases h p hs with ⟨-, rfl⟩ | hp
      · intro r hr
        obtain rfl := Option.some.inj hr
        exact .inl ⟨⟨iface + 1, he'⟩, rfl⟩
      · intro r hr
        obtain rfl := Option.some.inj hr
        rw [show e = .setIdle (iface + 1) from he']
        exact .inr ⟨hp.asked, hp.pings, hp.queries, fun hq => (by cases hq), fun ha => by cases ha⟩
    · refine h.goesOn hs hidle rfl rfl (fun hq => .inr ⟨?_, rfl⟩) fun ha => ?_
      · rw [← hquery]
        exact hq
      · rw [hawake] at ha
        exact (h.heard hs hidle).awake ha
  | repeats p msg q tick hs he | lights p report q tick lit msg hs he | clears p ep tick hs he
  | cleared p ep tick ok hs he =>
    refine h.goesOn hs (by simp [he]) rfl rfl (fun hq => by cases hq) fun _ => ?_
    exact (h.heard hs (by simp [he])).awake (by rw [he]; rfl)
  | polls p i j f hs | ffbTakes p packet q hs | ffb p f hs | recovers p hs
  | recovered p deadline hs | givesUp p deadline hs => exact hkeep hs rfl rfl rfl rfl
  | _ => exact h.same (fun r hr => ⟨r, hr, rfl⟩) rfl rfl

theorem reports_step {s t : Bridge} {m : Hearing} {a : BridgeAct}
    {es : List (BridgeAct ⊕ BridgeEffect)} (h : Hears s m)
    (hstep : bridge.recorded.step s a = some (t, es)) (hwakes : WakesFirst s m es t) :
    Hears t (es.foldl Hearing.watch m) ∧ Each Hearing.watch ReportsAwake m es := by
  obtain ⟨fs, hfs, rfl⟩ := Machine.recorded_step.mp hstep
  have hact := h.act hfs
  have hquery : ((Sum.inl a :: fs.map Sum.inr).foldl Hearing.watch m).queryAnswered = true →
      .linked true ∈ fs → (m.watch (.inl a)).queryAnswered = true := by
    intro hq hmem
    cases moved hfs with
    | awake | recovered | givesUp => exact hq
    | _ => simp at hmem
  have hreports : .linked true ∈ fs → (m.watch (.inl a)).answered = true := by
    intro hmem
    obtain ⟨p, hs, ⟨hquerying, hserves⟩ | ⟨hrec, hsession, hends⟩⟩ := reported (moved hfs) hmem
    · have hpast : ∀ iface, p.ep0 ≠ .setIdle iface := by
        intro iface he
        rw [he] at hquerying
        cases hquerying
      have hserving : s.serves = false := by
        simp only [Bridge.serves, hs, Option.any_some]
        revert hquerying
        cases p.ep0 <;> simp [Ep0.querying, Ep0.awake]
      rcases hwakes.2 hserving hserves with hw | hq
      · exact (hact.heard hs hpast).pings hw
      · exact (hact.heard hs hpast).queries (hquery hq hmem)
    · have hserves := hwakes.1 hrec hsession hends
      simp only [Bridge.serves, hs, Option.any_some] at hserves
      have hpast : ∀ iface, p.ep0 ≠ .setIdle iface := by
        intro iface he
        rw [he] at hserves
        cases hserves
      exact (hact.heard hs hpast).awake hserves
  refine ⟨hears_step hact (moved hfs) hreports, trivial, ?_⟩
  cases moved hfs with
  | awake | recovered | givesUp =>
    have hanswered := hreports (by simp)
    simpa [ReportsAwake, Hearing.watch] using hanswered
  | _ => simp [ReportsAwake]

/-- In every run in which a recovery ends only when the wake-up of its session is over, and a
wake-up whose pings timed out only when a query was answered, the wheel is reported awake only
when it has answered. -/
theorem reports_awake (as : List BridgeAct)
    (hwakes : bridge.recorded.Along Hearing.watch WakesFirst Bridge.init Hearing.init as) :
    bridge.recorded.Along Hearing.watch (fun _ m es _ => Each Hearing.watch ReportsAwake m es)
      Bridge.init Hearing.init as := by
  refine Machine.along_of_invariant Hears ?_ as Bridge.init Hearing.init ?_ hwakes
  · exact fun s m a es t h hstep hcond => reports_step h hstep hcond
  · exact fun p hp => by cases hp

theorem woken_wheel_reported :
    (bridge.run Bridge.init (wakeUp 0x03)).isSome = true ∧
      bridge.recorded.Along Hearing.watch (fun _ m es _ => Each Hearing.watch ReportsAwake m es)
        Bridge.init Hearing.init (wakeUp 0x03) :=
  ⟨by decide +kernel, reports_awake (wakeUp 0x03) (by decide +kernel)⟩

/-- Force feedback of the old connection is STALLed by a wheel that is still being
pinged; the recovery reports it awake. -/
def sleepingRun : List BridgeAct :=
  wakeUp 0x03 ++ [.follow, .detach, .ffbPacket [0x01, 0x00, 0x00, 0x00, 0x01], .follow,
    .attach 0x03, .ffbTake, .ffbReply (some .stall), .ep0Done true, .ep0Done true,
    .ep0Done true, .elapse ffbRecoveryTimeout, .ffbTimeout]

theorem sleeping_wheel_reported :
    (bridge.run Bridge.init sleepingRun).isSome = true ∧
      ¬ bridge.recorded.Along Hearing.watch
        (fun _ m es _ => Each Hearing.watch ReportsAwake m es) Bridge.init Hearing.init
        sleepingRun := by
  decide +kernel

end WheelBridge
