import WheelBridge.LedIndex
import WheelBridge.Refinement
import WheelBridge.SessionSteps

/-!
What the bridge asks of its wheel, and how often: pings until the wheel answers, then its
queries one at a time, and neither once the wheel is awake, when it checks the wheel at most
once a second. The wake-up comes to an end whatever the wheel does.
-/
namespace WheelBridge

/-- The pings that begin within `PING_TIMEOUT`. -/
def maxPings : ℕ := pingTimeout / pingInterval

/-- One for each feature that the wheel can list, and six others. -/
def maxQueries : ℕ := 261

/-- SET_IDLE, two steps for each ping and query, and the wait between them. -/
def wakeUpSteps : ℕ := 3 + 2 * maxPings + 1 + 2 * maxQueries

/-- What has been seen of a session. -/
structure SessionSeen where
  now : ℕ
  pings : ℕ
  firstPing : ℕ
  lastPing : ℕ
  queries : ℕ
  /-- The query that has not returned. -/
  asked : Option (List UInt8)
  /-- The steps of the EP0 task before the wheel was awake, and since when it is. -/
  steps : ℕ
  awake : Option ℕ
  checks : ℕ
  /-- The last recovery. -/
  recovery : Option ℕ

namespace SessionSeen

def start (now : ℕ) : SessionSeen := ⟨now, 0, 0, 0, 0, none, 0, none, 0, none⟩

def act (m : SessionSeen) (a : BridgeAct) : SessionSeen :=
  { m with
    now := m.now + a.passes
    steps := if a.ofEp0 = true ∧ m.awake = none then m.steps + 1 else m.steps
    checks := if a = .ep0Tick then m.checks + 1 else m.checks }

def request (m : SessionSeen) (msg : List UInt8) : SessionSeen :=
  if msg = ping then
    { m with
      pings := m.pings + 1
      firstPing := if m.pings = 0 then m.now else m.firstPing
      lastPing := m.now }
  else { m with queries := m.queries + 1, asked := some msg }

/-- The last query returns when the wheel is taken to be awake. -/
def returned (m : SessionSeen) (msg : List UInt8) : SessionSeen :=
  { m with
    asked := none
    awake := if msg = Query.ledFeature.msg then some m.now else m.awake }

def watch (m : SessionSeen) : BridgeAct ⊕ BridgeEffect → SessionSeen
  | .inl a => m.act a
  | .inr .attached => start m.now
  | .inr (.request msg) => m.request msg
  | .inr (.returned msg _) => m.returned msg
  | .inr .recoverAsked => { m with recovery := some m.now }
  | .inr _ => m

end SessionSeen

/-- Pings and queries end when the wheel is awake, and none is sent while a query has not
returned: pings at first, in time with their ticks, then the queries, once the last
answers to the pings can have come. The wheel is checked no more than once a second, and
recoveries are 5 s apart. -/
def InPace (m : SessionSeen) : BridgeAct ⊕ BridgeEffect → Prop
  | .inl a =>
    (a.ofEp0 = true → m.awake = none → m.steps < wakeUpSteps) ∧
      (a = .ep0Tick → ∃ since, m.awake = some since ∧
        since + (m.checks + 1) * livenessInterval ≤ m.now)
  | .inr (.request msg) => m.awake = none ∧ m.asked = none ∧
      if msg = ping then
        m.queries = 0 ∧ m.pings < maxPings ∧
          (m.pings ≠ 0 → m.firstPing + m.pings * pingInterval ≤ m.now)
      else m.pings ≠ 0 ∧ m.queries < maxQueries ∧ m.lastPing + lastAnswersTime ≤ m.now
  | .inr (.returned msg _) => m.asked = some msg
  | .inr .recoverAsked => ∀ last, m.recovery = some last → last + ffbRecoveryInterval ≤ m.now
  | .inr _ => True

/-- The EP0 task goes on, now or after some time. -/
def Bridge.Due (s : Bridge) : Prop :=
  ∃ ms a, a.ofEp0 = true ∧ (bridge.run s [.elapse ms, a]).isSome = true

namespace Query

/-- The most queries that follow. -/
def rest : Query → ℕ
  | .featureSet => maxQueries - 1
  | .count _ => maxQueries - 2
  | .featureId _ n index => n.toNat - index.toNat + 4
  | .trueforce => 3
  | .tfFunction _ function => if function = 0 then 2 else 1
  | .ledFeature => 0

theorem rest_next {q q' : Query} {answer : Option (Bytes 20)} (h : q.next answer = some q') :
    q'.rest + 1 ≤ q.rest := by
  cases q with
  | featureSet =>
    cases answer with
    | none =>
      cases h
      simp only [rest, maxQueries]
      omega
    | some a =>
      simp only [next] at h
      split at h <;> cases h <;> simp only [rest, maxQueries] <;> omega
  | count set =>
    cases answer with
    | none =>
      cases h
      simp only [rest, maxQueries]
      omega
    | some a =>
      simp only [next] at h
      split at h <;> cases h
      · simp only [rest, maxQueries]
        omega
      · have hcount := (a.byte 4).toNat_lt
        have hone : (1 : UInt8).toNat = 1 := rfl
        simp only [rest, maxQueries, hone]
        omega
  | featureId set n index =>
    simp only [next] at h
    split at h <;> cases h
    · next hlt =>
      have hlt : index.toNat < n.toNat := UInt8.lt_iff_toNat_lt.mp hlt
      have hn := n.toNat_lt
      have hnext : (index + 1).toNat = index.toNat + 1 := by
        rw [UInt8.toNat_add]
        exact Nat.mod_eq_of_lt (by change index.toNat + 1 < 256; omega)
      simp only [rest, hnext]
      omega
    · simp only [rest]
      omega
  | trueforce =>
    cases answer with
    | none =>
      cases h
      simp only [rest]
      omega
    | some a =>
      simp only [next] at h
      split at h <;> cases h
      · simp only [rest]
        omega
      · exact Nat.le_refl 3
  | tfFunction tf function =>
    simp only [next] at h
    split at h
    · next hzero =>
      cases h
      rw [rest, rest, if_pos hzero]
      exact Nat.le_refl 2
    · next hzero =>
      cases h
      exact Nat.le_of_eq (if_neg hzero).symm
  | ledFeature => cases h

/-- A query is no ping. -/
theorem msg_ne_ping (q : Query) : q.msg ≠ ping := by
  cases q <;> simp [msg, getFeature, ping, bridgeSwid]

end Query

/-- The pings so far, each in time with its tick. -/
structure SessionSeen.Pinging (m : SessionSeen) (start tick : ℕ) : Prop where
  asleep : m.awake = none ∧ m.checks = 0
  unasked : m.asked = none ∧ m.queries = 0
  first : m.firstPing = start
  tick : tick = start + m.pings * pingInterval
  some : 1 ≤ m.pings
  most : m.pings ≤ maxPings
  past : m.lastPing ≤ m.now

/-- A query is out. -/
structure SessionSeen.Querying (m : SessionSeen) (q : Query) : Prop where
  asleep : m.awake = none ∧ m.checks = 0
  asked : m.asked = some q.msg
  most : m.queries + q.rest ≤ maxQueries
  pinged : m.pings ≠ 0 ∧ m.lastPing + lastAnswersTime ≤ m.now

/-- What has been seen of a session whose EP0 task is at `e`. -/
def Ep0.Seen (m : SessionSeen) (e : Ep0) : Prop :=
  match e with
  | .setIdle iface => (m.awake = none ∧ m.checks = 0) ∧ (m.asked = none ∧ m.queries = 0) ∧
      m.pings = 0 ∧ m.steps = iface ∧ iface ≤ 2
  | .ping start tick => m.Pinging start tick ∧ m.steps = 2 * m.pings + 1
  | .pingTick start tick => m.Pinging start tick ∧ m.steps = 2 * m.pings + 2
  | .lastAnswers wake => (m.awake = none ∧ m.checks = 0) ∧ (m.asked = none ∧ m.queries = 0) ∧
      m.pings ≠ 0 ∧ m.lastPing + lastAnswersTime ≤ wake ∧ m.steps ≤ 2 * maxPings + 3
  | .querySend q => m.Querying q ∧ m.steps + 2 * q.rest + 2 ≤ wakeUpSteps
  | .queryWait q _ => m.Querying q ∧ m.steps + 2 * q.rest + 1 ≤ wakeUpSteps
  | .select tick | .control tick | .revLights tick | .clearHalt _ tick | .getStatus tick =>
    m.asked = none ∧ ∃ since, m.awake = some since ∧
      since + (m.checks + 1) * livenessInterval ≤ tick

structure Paced (s : Bridge) (m : SessionSeen) : Prop where
  clock : m.now = s.now
  session : ∀ p, s.session = some p → p.ep0.Seen m ∧ m.recovery = p.lastRecovery

section Acts

variable {m : SessionSeen} {a : BridgeAct} {e : Ep0}

/-- What has been seen is as true some time later. -/
theorem Ep0.Seen.later (h : e.Seen m) (ms : ℕ) : e.Seen { m with now := m.now + ms } := by
  cases e with
  | setIdle | lastAnswers | select | control | revLights | clearHalt | getStatus => exact h
  | ping start tick | pingTick start tick =>
    exact ⟨{ h.1 with past := Nat.le_add_right_of_le h.1.past }, h.2⟩
  | querySend q | queryWait q deadline =>
    exact ⟨{ h.1 with pinged := ⟨h.1.pinged.1, Nat.le_add_right_of_le h.1.pinged.2⟩ }, h.2⟩

theorem Ep0.Seen.recovered (h : e.Seen m) (last : Option ℕ) :
    e.Seen { m with recovery := last } := by
  cases e with
  | setIdle | lastAnswers | select | control | revLights | clearHalt | getStatus => exact h
  | ping | pingTick | querySend | queryWait => exact ⟨{ h.1 with }, h.2⟩

/-- Serving the wheel is another stage than waking it. -/
theorem Ep0.Seen.awake_iff (h : e.Seen m) : m.awake = none ↔ e.tick = none := by
  cases e with
  | setIdle | lastAnswers => exact ⟨fun _ => rfl, fun _ => h.1.1⟩
  | ping | pingTick | querySend | queryWait => exact ⟨fun _ => rfl, fun _ => h.1.asleep.1⟩
  | select | control | revLights | clearHalt | getStatus =>
    obtain ⟨-, since, hawake, -⟩ := h
    simp [hawake, Ep0.tick]

theorem Ep0.Seen.serving {tick : ℕ} (he : e.tick = some tick) :
    e.Seen m ↔ m.asked = none ∧ ∃ since, m.awake = some since ∧
      since + (m.checks + 1) * livenessInterval ≤ tick := by
  cases e <;> simp_all [Ep0.tick, Ep0.Seen]

/-- Before the wheel is awake, fewer steps were made than a wake-up can have. -/
theorem Ep0.Seen.steps_lt (h : e.Seen m) (hasleep : m.awake = none) : m.steps < wakeUpSteps := by
  have hping : maxPings = 500 := rfl
  have hsteps : wakeUpSteps = 1526 := rfl
  cases e with
  | setIdle iface =>
    obtain ⟨-, -, -, hiface, hle⟩ := h
    omega
  | ping | pingTick =>
    have hmost := h.1.most
    have hmade := h.2
    omega
  | lastAnswers wake =>
    obtain ⟨-, -, -, -, hmade⟩ := h
    omega
  | querySend | queryWait =>
    have hmade := h.2
    omega
  | select | control | revLights | clearHalt | getStatus =>
    obtain ⟨-, since, hawake, -⟩ := h
    rw [hasleep] at hawake
    cases hawake

theorem act_beside (ha : a.ofEp0 = false) : m.act a = { m with now := m.now + a.passes } := by
  have htick : a ≠ .ep0Tick := by
    rintro rfl
    cases ha
  simp only [SessionSeen.act, ha, Bool.false_eq_true, false_and, if_false, htick]

theorem passes_ep0 (ha : a.ofEp0 = true) : a.passes = 0 := by
  cases a <;> first | rfl | cases ha

theorem act_waking (ha : a.ofEp0 = true) (htick : a ≠ .ep0Tick) (hasleep : m.awake = none) :
    m.act a = { m with steps := m.steps + 1 } := by
  simp only [SessionSeen.act, passes_ep0 ha, ha, hasleep, and_self, if_true, htick, if_false,
    Nat.add_zero]

theorem act_serving (ha : a.ofEp0 = true) (htick : a ≠ .ep0Tick) (hawake : m.awake ≠ none) :
    m.act a = m := by
  simp only [SessionSeen.act, passes_ep0 ha, ha, hawake, and_false, if_false, htick, Nat.add_zero]

/-- Effects that tell nothing. -/
theorem watch_quiet {es : List BridgeEffect} (hes : ∀ x ∈ es, x.telling = false) :
    (es.map Sum.inr).foldl SessionSeen.watch m = m ∧
      Each SessionSeen.watch InPace m (es.map Sum.inr) := by
  have hone : ∀ x ∈ es, ∀ m, SessionSeen.watch m (.inr x) = m ∧ InPace m (.inr x) := by
    intro x hx m
    have hquiet := hes x hx
    cases x <;> first | exact ⟨rfl, trivial⟩ | cases hquiet
  refine ⟨foldl_unheeded ?_, Each.of_forall ?_ m⟩
  · intro x hx
    obtain ⟨y, hy, rfl⟩ := List.mem_map.mp hx
    exact (hone y hy m).1
  · intro x hx m
    obtain ⟨y, hy, rfl⟩ := List.mem_map.mp hx
    exact (hone y hy m).2

end Acts

/-- A step in pace, after which what has been seen of the session is known. -/
def KeepsPace (m : SessionSeen) (t : Bridge) (a : BridgeAct) (es : List BridgeEffect) : Prop :=
  Paced t ((Sum.inl a :: es.map Sum.inr).foldl SessionSeen.watch m) ∧
    Each SessionSeen.watch InPace m (Sum.inl a :: es.map Sum.inr)

section Steps

variable {s t : Bridge} {p p' : Session} {m : SessionSeen} {a : BridgeAct} {e : Ep0}
  {es : List BridgeEffect}

theorem Paced.of_session (hnow : m.now = t.now) (ht : t.session = some p') (he : p'.ep0.Seen m)
    (hlast : m.recovery = p'.lastRecovery) : Paced t m where
  clock := hnow
  session q hq := by
    rw [ht] at hq
    obtain rfl := Option.some.inj hq
    exact ⟨he, hlast⟩

theorem keepsPace_beside (h : Paced s m) (ha : a.ofEp0 = false) (hb : Beside s t a es) :
    KeepsPace m t a es := by
  have hact := act_beside (m := m) ha
  have hfirst : InPace m (.inl a) := by
    refine ⟨fun hep0 => ?_, ?_⟩
    · rw [ha] at hep0
      cases hep0
    · rintro rfl
      cases ha
  have hwatch : SessionSeen.watch m (.inl a) = { m with now := m.now + a.passes } := hact
  unfold KeepsPace
  rw [List.foldl_cons, Each.cons_iff, hwatch]
  cases hb with
  | quiet a es hnow hes hkept =>
    obtain ⟨hsame, hpace⟩ := watch_quiet (m := { m with now := m.now + a.passes }) hes
    rw [hsame]
    refine ⟨⟨by rw [hnow, ← h.clock], ?_⟩, hfirst, hpace⟩
    intro p' hp'
    obtain ⟨p, hs, hep0, hlast⟩ := hkept p' hp'
    obtain ⟨hseen, hrecovery⟩ := h.session p hs
    rw [hep0, hlast]
    exact ⟨hseen.later a.passes, hrecovery⟩
  | attached ep hnow ht =>
    refine ⟨.of_session ?_ ht ?_ rfl, hfirst, trivial, trivial⟩
    · rw [hnow, ← h.clock]
      rfl
    · exact ⟨⟨rfl, rfl⟩, ⟨rfl, rfl⟩, rfl, rfl, Nat.zero_le 2⟩
  | recovers err p p' hnow hs ht hep0 hdue hlast =>
    obtain ⟨hseen, hrecovery⟩ := h.session p hs
    refine ⟨.of_session ?_ ht ?_ ?_, hfirst, trivial, ?_, trivial⟩
    · rw [hnow, ← h.clock]
      rfl
    · rw [hep0]
      exact hseen.recovered (some m.now)
    · rw [hlast, ← h.clock]
      rfl
    · intro last hlast'
      have hspaced := hdue last (hrecovery ▸ hlast')
      rw [← h.clock] at hspaced
      change last + ffbRecoveryInterval ≤ m.now + 0
      unfold ffbRecoveryInterval at hspaced ⊢
      omega

/-- A step of the wake-up. -/
theorem keepsPace_waking (hseen : p.ep0.Seen m) (hp : p.ep0.tick = none) (ha : a.ofEp0 = true)
    (htick : a ≠ .ep0Tick)
    (hpaced : Paced t ((es.map Sum.inr).foldl SessionSeen.watch { m with steps := m.steps + 1 }))
    (heach : Each SessionSeen.watch InPace { m with steps := m.steps + 1 } (es.map Sum.inr)) :
    KeepsPace m t a es := by
  have hasleep := hseen.awake_iff.mpr hp
  have hwatch : SessionSeen.watch m (.inl a) = { m with steps := m.steps + 1 } :=
    act_waking ha htick hasleep
  unfold KeepsPace
  rw [List.foldl_cons, Each.cons_iff, hwatch]
  exact ⟨hpaced, ⟨fun _ _ => hseen.steps_lt hasleep, fun h => absurd h htick⟩, heach⟩

/-- What has been seen of a session with a query in `hidpp_request`. -/
theorem querying {q : Query} {answer : Option (Bytes 20)} (hr : Returns s p q answer)
    (hseen : p.ep0.Seen m) :
    m.Querying q ∧ m.steps + 2 * q.rest + 1 ≤ wakeUpSteps ∧ p.ep0.tick = none := by
  cases hr with
  | failed he =>
    rw [he] at hseen ⊢
    have hmade := hseen.2
    exact ⟨hseen.1, by omega, rfl⟩
  | timedOut deadline he | answered deadline answer he hanswer =>
    rw [he] at hseen ⊢
    exact ⟨hseen.1, hseen.2, rfl⟩

/-- A ping begins, in time with its tick. -/
theorem pinging_request {start tick : ℕ} (hasleep : m.awake = none ∧ m.checks = 0)
    (hasked : m.asked = none ∧ m.queries = 0) (hless : m.pings < maxPings)
    (hstart : (if m.pings = 0 then m.now else m.firstPing) = start)
    (htick : tick = start + (m.pings + 1) * pingInterval)
    (hdue : m.pings ≠ 0 → m.firstPing + m.pings * pingInterval ≤ m.now) :
    (m.request ping).Pinging start tick ∧ InPace m (.inr (.request ping)) := by
  have hout : m.request ping = { m with
      pings := m.pings + 1
      firstPing := if m.pings = 0 then m.now else m.firstPing
      lastPing := m.now } := if_pos rfl
  constructor
  · rw [hout]
    exact ⟨hasleep, hasked, hstart, htick, Nat.le_add_left 1 m.pings, hless, Nat.le_refl m.now⟩
  · refine ⟨hasleep.1, hasked.1, ?_⟩
    rw [if_pos rfl]
    exact ⟨hasked.2, hless, hdue⟩

/-- A query begins. -/
theorem querying_request {q : Query} (hasleep : m.awake = none ∧ m.checks = 0)
    (hasked : m.asked = none) (hmost : m.queries + 1 + q.rest ≤ maxQueries)
    (hpinged : m.pings ≠ 0 ∧ m.lastPing + lastAnswersTime ≤ m.now) :
    m.request q.msg = { m with queries := m.queries + 1, asked := some q.msg } ∧
      (m.request q.msg).Querying q ∧ InPace m (.inr (.request q.msg)) := by
  have hout : m.request q.msg = { m with queries := m.queries + 1, asked := some q.msg } :=
    if_neg q.msg_ne_ping
  refine ⟨hout, ?_, hasleep.1, hasked, ?_⟩
  · rw [hout]
    exact ⟨hasleep, rfl, hmost, hpinged⟩
  · rw [if_neg q.msg_ne_ping]
    refine ⟨hpinged.1, ?_, hpinged.2⟩
    omega

theorem keepsPace_ep0 (h : Paced s m) (ha : a.ofEp0 = true) (hs : s.session = some p)
    (hgo : p.GoesOn s t a es) : KeepsPace m t a es := by
  obtain ⟨hseen, hrecovery⟩ := h.session p hs
  obtain ⟨hnow, p', ht, hlast, hgo⟩ := hgo
  have hclock : m.now = t.now := by rw [hnow, ← h.clock]
  have hrecovery' : m.recovery = p'.lastRecovery := by rw [hlast, ← hrecovery]
  have hpings : maxPings = 500 := rfl
  have hsteps : wakeUpSteps = 1526 := rfl
  have hqueries : maxQueries = 261 := rfl
  generalize he' : p'.ep0 = e at hgo
  cases hgo with
  | setIdle ok iface he hi =>
    refine keepsPace_waking hseen (by rw [he]; rfl) ha BridgeAct.noConfusion
      (.of_session hclock ht ?_ hrecovery') trivial
    rw [he] at hseen
    obtain ⟨hasleep, hasked, hnone, hmade, hle⟩ := hseen
    rw [he']
    exact ⟨hasleep, hasked, hnone, congrArg (· + 1) hmade, hi⟩
  | firstPing ok iface he hi =>
    have hstage := hseen
    rw [he] at hstage
    obtain ⟨hasleep, hasked, hnone, hmade, hle⟩ := hstage
    have htick : s.now + pingInterval = s.now + (m.pings + 1) * pingInterval := by
      rw [hnone]
      omega
    obtain ⟨hpinging, hpace⟩ := pinging_request (m := { m with steps := m.steps + 1 }) hasleep
      hasked (by change m.pings < maxPings; omega) ((if_pos hnone).trans h.clock) htick
      fun hsome => absurd hnone hsome
    refine keepsPace_waking hseen (by rw [he]; rfl) ha BridgeAct.noConfusion
      (.of_session hclock ht ?_ hrecovery') ⟨hpace, trivial⟩
    rw [he']
    refine ⟨hpinging, ?_⟩
    change m.steps + 1 = 2 * (m.pings + 1) + 1
    omega
  | pinged ok start tick he =>
    refine keepsPace_waking hseen (by rw [he]; rfl) ha BridgeAct.noConfusion
      (.of_session hclock ht ?_ hrecovery') trivial
    rw [he] at hseen
    rw [he']
    refine ⟨{ hseen.1 with }, ?_⟩
    exact congrArg (· + 1) hseen.2
  | pingsOn start tick he htick hon =>
    have hstage := hseen
    rw [he] at hstage
    obtain ⟨hpinging, hmade⟩ := hstage
    have htick' := hpinging.tick
    have hsome := hpinging.some
    unfold pingInterval at htick'
    unfold pingTimeout at hon
    have hless : m.pings < maxPings := by omega
    have hstart : (if m.pings = 0 then m.now else m.firstPing) = start :=
      (if_neg (Nat.pos_iff_ne_zero.mp hsome)).trans hpinging.first
    have hnext : tick + pingInterval = start + (m.pings + 1) * pingInterval := by
      unfold pingInterval
      omega
    have hdue : m.firstPing + m.pings * pingInterval ≤ m.now := by
      rw [hpinging.first, h.clock]
      exact hpinging.tick ▸ htick
    obtain ⟨hpinging', hpace⟩ := pinging_request (m := { m with steps := m.steps + 1 })
      hpinging.asleep hpinging.unasked hless hstart hnext fun _ => hdue
    refine keepsPace_waking hseen (by rw [he]; rfl) ha BridgeAct.noConfusion
      (.of_session hclock ht ?_ hrecovery') ⟨hpace, trivial⟩
    rw [he']
    refine ⟨hpinging', ?_⟩
    change m.steps + 1 = 2 * (m.pings + 1) + 1
    omega
  | pingsEnd start tick he htick =>
    refine keepsPace_waking hseen (by rw [he]; rfl) ha BridgeAct.noConfusion
      (.of_session hclock ht ?_ hrecovery') trivial
    rw [he] at hseen
    obtain ⟨hpinging, hmade⟩ := hseen
    have hmost := hpinging.most
    rw [he']
    refine ⟨hpinging.asleep, hpinging.unasked, ?_, ?_, ?_⟩
    · exact Nat.pos_iff_ne_zero.mp hpinging.some
    · rw [← h.clock]
      exact Nat.add_le_add_right hpinging.past _
    · change m.steps + 1 ≤ 2 * maxPings + 3
      omega
  | queries wake he hwake =>
    have hstage := hseen
    rw [he] at hstage
    obtain ⟨hasleep, hasked, hpinged, hanswered, hmade⟩ := hstage
    have htime : m.lastPing + lastAnswersTime ≤ m.now := by
      rw [h.clock]
      exact Nat.le_trans hanswered hwake
    have hmost : m.queries + 1 + 260 ≤ maxQueries := by omega
    obtain ⟨hout, hquerying, hpace⟩ := querying_request (q := .featureSet)
      (m := { m with steps := m.steps + 1 }) hasleep hasked.1 hmost ⟨hpinged, htime⟩
    refine keepsPace_waking hseen (by rw [he]; rfl) ha BridgeAct.noConfusion
      (.of_session ((congrArg SessionSeen.now hout).trans hclock) ht ?_
        ((congrArg SessionSeen.recovery hout).trans hrecovery')) ⟨hpace, trivial⟩
    rw [he']
    refine ⟨hquerying, ?_⟩
    change (SessionSeen.request { m with steps := m.steps + 1 } Query.featureSet.msg).steps +
      2 * 260 + 2 ≤ wakeUpSteps
    rw [hout]
    change m.steps + 1 + 2 * 260 + 2 ≤ wakeUpSteps
    omega
  | sent q he =>
    refine keepsPace_waking hseen (by rw [he]; rfl) ha BridgeAct.noConfusion
      (.of_session hclock ht ?_ hrecovery') trivial
    rw [he] at hseen
    obtain ⟨hquerying, hmade⟩ := hseen
    rw [he']
    refine ⟨{ hquerying with }, ?_⟩
    change m.steps + 1 + 2 * q.rest + 1 ≤ wakeUpSteps
    omega
  | queriesOn a q q' answer htick hr hn =>
    obtain ⟨hquerying, hmade, hwaking⟩ := querying hr hseen
    have hrest := Query.rest_next hn
    have hmost := hquerying.most
    have hnot : q.msg ≠ Query.ledFeature.msg := by
      intro hled
      rw [Query.eq_ledFeature hled] at hn
      cases hn
    have hreturned : ({ m with steps := m.steps + 1 } : SessionSeen).returned q.msg =
        { m with steps := m.steps + 1, asked := none } := by
      unfold SessionSeen.returned
      rw [if_neg hnot]
    have hless : m.queries + 1 + q'.rest ≤ maxQueries := by omega
    obtain ⟨hout, hquerying', hpace⟩ := querying_request (q := q')
      (m := { m with steps := m.steps + 1, asked := none }) hquerying.asleep rfl hless
      hquerying.pinged
    refine keepsPace_waking hseen hwaking ha htick ?_ ⟨hquerying.asked, ?_, trivial⟩
    · change Paced t ((SessionSeen.returned _ _).request _)
      rw [hreturned]
      refine .of_session ((congrArg SessionSeen.now hout).trans hclock) ht ?_
        ((congrArg SessionSeen.recovery hout).trans hrecovery')
      rw [he']
      refine ⟨hquerying', ?_⟩
      rw [hout]
      change m.steps + 1 + 2 * q'.rest + 2 ≤ wakeUpSteps
      omega
    · change InPace (SessionSeen.returned _ _) _
      rw [hreturned]
      exact hpace
  | awake a q answer htick hr hn =>
    obtain ⟨hquerying, hmade, hwaking⟩ := querying hr hseen
    refine keepsPace_waking hseen hwaking ha htick ?_ ⟨hquerying.asked, trivial, trivial⟩
    refine .of_session hclock ht ?_ hrecovery'
    rw [he']
    refine ⟨rfl, m.now, ?_, ?_⟩
    · refine if_pos ?_
      rw [Query.eq_ledFeature_of_next hn]
    · change m.now + (m.checks + 1) * livenessInterval ≤ s.now + livenessInterval
      rw [hquerying.asleep.2, h.clock]
      omega
  | serves a e tick es htick he he'' hes =>
    obtain ⟨hasked, since, hawake, hchecks⟩ := (Ep0.Seen.serving he).mp hseen
    have hact : SessionSeen.watch m (.inl a) = m := act_serving ha htick (by simp [hawake])
    obtain ⟨hsame, hpace⟩ := watch_quiet (m := m) hes
    unfold KeepsPace
    rw [List.foldl_cons, Each.cons_iff, hact, hsame]
    refine ⟨.of_session hclock ht ?_ hrecovery', ⟨fun _ => hseen.steps_lt, ?_⟩, hpace⟩
    · rw [he']
      exact (Ep0.Seen.serving he'').mpr ⟨hasked, since, hawake, hchecks⟩
    · exact fun heq => absurd heq htick
  | checks tick he htick =>
    obtain ⟨hasked, since, hawake, hchecks⟩ :=
      (Ep0.Seen.serving (show p.ep0.tick = some tick by rw [he]; rfl)).mp hseen
    refine ⟨.of_session hclock ht ?_ hrecovery', ⟨fun _ => hseen.steps_lt, fun _ => ?_⟩, trivial⟩
    · rw [he']
      refine ⟨hasked, since, hawake, ?_⟩
      change since + (m.checks + 1 + 1) * livenessInterval ≤ tick + livenessInterval
      rw [Nat.succ_mul]
      omega
    · refine ⟨since, hawake, Nat.le_trans hchecks ?_⟩
      rw [h.clock]
      exact htick

end Steps

theorem keepsPace {s t : Bridge} {m : SessionSeen} {a : BridgeAct} {es : List BridgeEffect}
    (h : Paced s m) (hstep : bridge.step s a = some (t, es)) : KeepsPace m t a es := by
  cases ha : a.ofEp0 with
  | false => exact keepsPace_beside h ha (beside ha hstep)
  | true =>
    obtain ⟨p, hs, hgo⟩ := ep0_goes ha hstep
    exact keepsPace_ep0 h ha hs hgo

/-- While it wakes the wheel, the EP0 task waits for a transfer, for a time or for an answer
that has at most so long to come. -/
theorem wake_due {s : Bridge} {p : Session} (hs : s.session = some p) (hp : p.ep0.tick = none) :
    s.Due := by
  have hlater : ∀ ms a, a.ofEp0 = true →
      (bridge.step { s with now := s.now + ms } a).isSome = true → s.Due := by
    intro ms a ha hsome
    obtain ⟨r, hr⟩ := Option.isSome_iff_exists.mp hsome
    have helapse : bridge.step s (.elapse ms) = some ({ s with now := s.now + ms }, []) := rfl
    have hrun := Machine.run_append (Machine.run_single helapse) (Machine.run_single hr)
    exact ⟨ms, a, ha, Option.isSome_iff_exists.mpr ⟨_, hrun⟩⟩
  have hin : ∀ ms (f : Session → Bridge → Stepping), (f p { s with now := s.now + ms }).isSome →
      (({ s with now := s.now + ms } : Bridge).inSession f).isSome = true := by
    intro ms f hf
    have heq : ({ s with now := s.now + ms } : Bridge).inSession f =
        f p { s with now := s.now + ms } := by
      unfold Bridge.inSession
      rw [hs]
    rw [heq]
    exact hf
  cases he : p.ep0 with
  | setIdle iface =>
    refine hlater 0 (.ep0Done true) rfl (hin 0 (fun p s => s.ep0Done p true) ?_)
    simp only [Bridge.ep0Done, he]
    split <;> rfl
  | ping start tick =>
    refine hlater 0 (.ep0Done true) rfl (hin 0 (fun p s => s.ep0Done p true) ?_)
    simp only [Bridge.ep0Done, he]
    rfl
  | pingTick start tick =>
    refine hlater tick .ep0Timer rfl (hin tick (fun p s => s.ep0Timer p) ?_)
    have hnow : ¬ s.now + tick < tick := by omega
    simp only [Bridge.ep0Timer, he, if_neg hnow]
    split <;> rfl
  | lastAnswers wake =>
    refine hlater wake .ep0Timer rfl (hin wake (fun p s => s.ep0Timer p) ?_)
    have hnow : ¬ s.now + wake < wake := by omega
    simp only [Bridge.ep0Timer, he, if_neg hnow]
    rfl
  | querySend q =>
    refine hlater 0 (.ep0Done true) rfl (hin 0 (fun p s => s.ep0Done p true) ?_)
    simp only [Bridge.ep0Done, he]
    rfl
  | queryWait q deadline =>
    cases hanswer : s.bridgeAnswer with
    | none =>
      refine hlater deadline .ep0Timer rfl (hin deadline (fun p s => s.ep0Timer p) ?_)
      have hnow : ¬ s.now + deadline < deadline := by omega
      simp [Bridge.ep0Timer, he, hanswer]
    | some answer =>
      refine hlater 0 .ep0Answer rfl (hin 0 (fun p s => s.ep0Answer p) ?_)
      simp [Bridge.ep0Answer, he, hanswer]
  | select | control | revLights | clearHalt | getStatus =>
    rw [he] at hp
    cases hp

/-- Whatever the wheel and the console do: in each session no more than 500 pings go out, one
at the earliest with each tick of 20 ms, and no more than 261 queries after them, one at a
time; from then on the bridge sends no further ping or query, and checks the wheel with a
GET_STATUS, the n-th of a session no earlier than n s after it; and a recovery comes no earlier
than 5 s after another. The wake-up takes no more than 1526 steps of the EP0 task, and until it
is over one of them is due sooner or later. -/
theorem session_paced (as : List BridgeAct) :
    bridge.recorded.Along SessionSeen.watch
      (fun _ m es t => Each SessionSeen.watch InPace m es ∧
        ((es.foldl SessionSeen.watch m).awake = none → t.session ≠ none → t.Due))
      Bridge.init (SessionSeen.start 0) as := by
  have hinit : Paced Bridge.init (SessionSeen.start 0) := ⟨rfl, fun p hp => by cases hp⟩
  refine Machine.along_always Paced ?_ as _ _ hinit
  intro s m a es t h hstep
  obtain ⟨fs, hfs, rfl⟩ := Machine.recorded_step.mp hstep
  obtain ⟨hpaced, heach⟩ := keepsPace h hfs
  refine ⟨hpaced, heach, fun hasleep hsome => ?_⟩
  obtain ⟨p, hs⟩ := Option.ne_none_iff_exists'.mp hsome
  exact wake_due hs ((hpaced.session p hs).1.awake_iff.mp hasleep)

end WheelBridge
