import WheelBridge.Measure
import WheelBridge.PortReset

/-!
What is done to a port, in what order and how often. A device is only enumerated on a port
that has reported its reset done and had time to recover, no attempt polls for ever, and
`enumerate` comes to an end.
-/
namespace WheelBridge

/-- The most polls an attempt has time for. -/
def portPolls : ℕ := portResetTimeout / portPoll + 1

namespace PortEnum

variable {port : Port} {s t : PortEnum} {a : PortAct} {es : List PortEffect}

/-- Everything one step can be. -/
inductive Stepped (port : Port) (s : PortEnum) : PortAct → PortEnum → List PortEffect → Prop
  | elapse (ms : ℕ) : Stepped port s (.elapse ms) { s with now := s.now + ms } []
  | call (hs : s.task = .called) :
      Stepped port s .call (s.startAttempt port 1).1 (s.startAttempt port 1).2
  | requested (data : List UInt8) (attempt start : ℕ)
      (hs : s.task = .reset attempt (.setFeature start)) :
      Stepped port s (.reply (some data)) (s.goOn (.reset attempt (.getStatus start)))
        [.transfer port.getStatus]
  | enabled (reply : List UInt8) (attempt start : ℕ)
      (hs : s.task = .reset attempt (.getStatus start)) (hreply : portEnabled reply = true) :
      Stepped port s (.reply (some reply)) (s.goOn (.reset attempt .clearFeature))
        [.transfer port.clearReset]
  | paused (reply : List UInt8) (attempt start : ℕ)
      (hs : s.task = .reset attempt (.getStatus start)) (hreply : portEnabled reply = false)
      (hin : s.now - start < portResetTimeout) :
      Stepped port s (.reply (some reply))
        (s.goOn (.reset attempt (.pause start (s.now + portPoll)))) []
  | polled (attempt start wake : ℕ) (hs : s.task = .reset attempt (.pause start wake))
      (hwake : wake ≤ s.now) :
      Stepped port s .timer (s.goOn (.reset attempt (.getStatus start)))
        [.transfer port.getStatus]
  | cleared (data : List UInt8) (attempt : ℕ) (hs : s.task = .reset attempt .clearFeature) :
      Stepped port s (.reply (some data))
        (s.goOn (.reset attempt (.recovery (s.now + resetRecovery)))) []
  | recovered (attempt wake : ℕ) (hs : s.task = .reset attempt (.recovery wake))
      (hwake : wake ≤ s.now) :
      Stepped port s .timer (s.goOn (.enumerating attempt)) [.enumerate attempt]
  | succeeded (attempt : ℕ) (hs : s.task = .enumerating attempt) :
      Stepped port s (.enumerated true) (s.goOn (.logging attempt)) []
  | logged (attempt : ℕ) (hs : s.task = .logging attempt) :
      Stepped port s .logged (s.goOn (.returned true)) [.returned true]
  /-- A transfer fails, the port is not enabled in time, or `bus.enumerate` fails. -/
  | failed (a : PortAct) (attempt : ℕ)
      (hs : (∃ point r, s.task = .reset attempt point ∧ a = .reply r) ∨
        s.task = .enumerating attempt ∧ a = .enumerated false) :
      Stepped port s a (s.failAttempt port attempt).1 (s.failAttempt port attempt).2

theorem stepped (h : (portEnum port).step s a = some (t, es)) : Stepped port s a t es := by
  change s.step port a = some (t, es) at h
  unfold PortEnum.step at h
  split at h
  · next ms =>
    cases h
    exact .elapse ms
  · next hs =>
    cases h
    exact .call hs
  · next r attempt point hs =>
    have hfail (heq : some (s.failAttempt port attempt) = some (t, es)) :
        Stepped port s (.reply r) t es := by
      obtain ⟨rfl, rfl⟩ := Prod.mk.inj (Option.some.inj heq)
      exact .failed (.reply r) attempt (Or.inl ⟨point, r, hs, rfl⟩)
    cases point with
    | setFeature start =>
      cases r with
      | some data =>
        cases h
        exact .requested data attempt start hs
      | none => exact hfail h
    | getStatus start =>
      cases r with
      | some reply =>
        simp only [replied, statusRead] at h
        split at h
        · next hreply =>
          cases h
          exact .enabled reply attempt start hs hreply
        · next hreply =>
          split at h
          · exact hfail h
          · next hin =>
            cases h
            exact .paused reply attempt start hs (by simpa using hreply) (by omega)
      | none => exact hfail h
    | clearFeature =>
      cases r with
      | some data =>
        cases h
        exact .cleared data attempt hs
      | none => exact hfail h
    | pause start wake | recovery wake => cases h
  · next attempt point hs =>
    cases point with
    | pause start wake =>
      obtain ⟨hwake, heq⟩ := Option.ite_none_right_eq_some.mp h
      cases heq
      exact .polled attempt start wake hs hwake
    | recovery wake =>
      obtain ⟨hwake, heq⟩ := Option.ite_none_right_eq_some.mp h
      cases heq
      exact .recovered attempt wake hs hwake
    | setFeature start | getStatus start | clearFeature => cases h
  · next attempt hs =>
    cases h
    exact .succeeded attempt hs
  · next attempt hs =>
    obtain ⟨rfl, rfl⟩ := Prod.mk.inj (Option.some.inj h)
    exact .failed (.enumerated false) attempt (Or.inr ⟨hs, rfl⟩)
  · next attempt hs =>
    cases h
    exact .logged attempt hs
  · cases h

end PortEnum

/-- How far the reset of an attempt has come, by what its requests were answered. -/
inductive ResetStage
  | idle
  | requested
  | enabled
  | cleared (since : ℕ)
  | enumerating
deriving DecidableEq

/-- What has been seen of `enumerate`. -/
structure PortSeen where
  now : ℕ
  /-- The request on the hub's EP0. -/
  pending : Option (List UInt8)
  stage : ResetStage
  polls : ℕ
  failures : ℕ

namespace PortSeen

def init : PortSeen := ⟨0, none, .idle, 0, 0⟩

/-- A request of the port was answered. -/
def answer (port : Port) (m : PortSeen) (reply : List UInt8) : ResetStage :=
  if m.pending = some port.setReset then .requested
  else if m.pending = some port.getStatus then
    if portEnabled reply then .enabled else m.stage
  else if m.pending = some port.clearReset then .cleared m.now
  else m.stage

def watch (port : Port) (m : PortSeen) : PortAct ⊕ PortEffect → PortSeen
  | .inl (.elapse ms) => { m with now := m.now + ms }
  | .inl (.reply (some reply)) => { m with pending := none, stage := m.answer port reply }
  | .inl (.reply none) => { m with pending := none }
  | .inl .call | .inl .timer | .inl (.enumerated _) | .inl .logged => m
  | .inr (.transfer setup) =>
    { m with
      pending := some setup
      polls := if setup = port.getStatus then m.polls + 1 else m.polls }
  | .inr (.enumerate _) => { m with stage := .enumerating }
  | .inr (.failed _) => { m with stage := .idle, polls := 0, failures := m.failures + 1 }
  | .inr (.returned _) => m

end PortSeen

/-- The requests come one at a time and in order: the reset first, in an attempt that is left,
the status while the reset has not been reported done, at most so often, and the change is
acknowledged once it has. A device is enumerated when the acknowledgement has gone through and
the recovery time has passed since, and is given up after the last attempt. -/
def PortInOrder (port : Port) (m : PortSeen) : PortAct ⊕ PortEffect → Prop
  | .inl _ => True
  | .inr (.transfer setup) => m.pending = none ∧
      (setup = port.setReset ∧ m.stage = .idle ∧ m.failures < enumAttempts ∨
        setup = port.getStatus ∧ m.stage = .requested ∧ m.polls < portPolls ∨
        setup = port.clearReset ∧ m.stage = .enabled)
  | .inr (.enumerate attempt) => attempt = m.failures + 1 ∧ attempt ≤ enumAttempts ∧
      ∃ since, m.stage = .cleared since ∧ since + resetRecovery ≤ m.now
  | .inr (.failed attempt) => attempt = m.failures + 1 ∧ attempt ≤ enumAttempts
  | .inr (.returned true) => m.stage = .enumerating
  | .inr (.returned false) => m.failures = enumAttempts

/-- What the task has done and has been seen to do. -/
def PortEnum.Shown (port : Port) (s : PortEnum) (m : PortSeen) : Prop :=
  match s.task with
  | .called => m.pending = none ∧ m.stage = .idle ∧ m.polls = 0 ∧ m.failures = 0
  | .reset attempt (.setFeature start) => m.pending = some port.setReset ∧ m.polls = 0 ∧
      attempt = m.failures + 1 ∧ attempt ≤ enumAttempts ∧ start ≤ m.now
  | .reset attempt (.getStatus start) => m.pending = some port.getStatus ∧ m.stage = .requested ∧
      attempt = m.failures + 1 ∧ attempt ≤ enumAttempts ∧
      start + portPoll * m.polls ≤ m.now + portPoll
  | .reset attempt (.pause start wake) => m.pending = none ∧ m.stage = .requested ∧
      attempt = m.failures + 1 ∧ attempt ≤ enumAttempts ∧ m.polls < portPolls ∧
      start + portPoll * m.polls ≤ wake
  | .reset attempt .clearFeature => m.pending = some port.clearReset ∧
      attempt = m.failures + 1 ∧ attempt ≤ enumAttempts
  | .reset attempt (.recovery wake) => m.pending = none ∧
      attempt = m.failures + 1 ∧ attempt ≤ enumAttempts ∧
      ∃ since, m.stage = .cleared since ∧ since + resetRecovery ≤ wake
  | .enumerating attempt => m.pending = none ∧ m.stage = .enumerating ∧
      attempt = m.failures + 1 ∧ attempt ≤ enumAttempts
  | .logging _ => m.stage = .enumerating
  | .returned _ => True

structure PortTracked (port : Port) (s : PortEnum) (m : PortSeen) : Prop where
  clock : m.now = s.now
  shown : s.Shown port m

section Setups

variable (port : Port)

theorem getStatus_ne_setReset : port.getStatus ≠ port.setReset := by
  simp [Port.getStatus, Port.setReset]

theorem clearReset_ne_setReset : port.clearReset ≠ port.setReset := by
  simp [Port.clearReset, Port.setReset]

theorem clearReset_ne_getStatus : port.clearReset ≠ port.getStatus := by
  simp [Port.clearReset, Port.getStatus]

end Setups

section Track

variable {port : Port} {s t : PortEnum} {m : PortSeen} {a : PortAct} {es : List PortEffect}

/-- `es` are in order, and the task is shown by them where it goes on. -/
def PortFollows (port : Port) (m : PortSeen) (es : List PortEffect) (t : PortEnum) : Prop :=
  Each (PortSeen.watch port) (PortInOrder port) m (es.map .inr) ∧
    PortTracked port t ((es.map .inr).foldl (PortSeen.watch port) m)

/-- A new attempt asks for the reset. -/
theorem follows_start {attempt : ℕ} (hnow : m.now = s.now) (hpending : m.pending = none)
    (hstage : m.stage = .idle) (hpolls : m.polls = 0) (hattempt : attempt = m.failures + 1)
    (hle : attempt ≤ enumAttempts) :
    PortFollows port m (s.startAttempt port attempt).2 (s.startAttempt port attempt).1 := by
  have hne : port.setReset ≠ port.getStatus := (getStatus_ne_setReset port).symm
  refine ⟨⟨⟨hpending, Or.inl ⟨rfl, hstage, by omega⟩⟩, trivial⟩, hnow, ?_⟩
  simp only [PortEnum.startAttempt, PortEnum.goOn, PortEnum.Shown, List.map_cons, List.map_nil,
    List.foldl_cons, List.foldl_nil, PortSeen.watch, if_neg hne]
  exact ⟨trivial, hpolls, hattempt, hle, Nat.le_of_eq hnow.symm⟩

theorem follows_fail {attempt : ℕ} (hnow : m.now = s.now) (hpending : m.pending = none)
    (hattempt : attempt = m.failures + 1) (hle : attempt ≤ enumAttempts) :
    PortFollows port m (s.failAttempt port attempt).2 (s.failAttempt port attempt).1 := by
  let failed : PortSeen := PortSeen.watch port m (.inr (.failed attempt))
  unfold PortEnum.failAttempt
  split
  · next hlt =>
    have hstart : PortFollows port failed (s.startAttempt port (attempt + 1)).2
        (s.startAttempt port (attempt + 1)).1 :=
      follows_start hnow hpending rfl rfl (congrArg (· + 1) hattempt) hlt
    exact ⟨⟨⟨hattempt, hle⟩, hstart.1⟩, hstart.2⟩
  · next hlast =>
    have hfailures : failed.failures = enumAttempts := by
      change m.failures + 1 = enumAttempts
      omega
    exact ⟨⟨⟨hattempt, hle⟩, hfailures, trivial⟩, hnow, trivial⟩

/-- Time passes while the task waits. -/
theorem shown_elapse (ms : ℕ) (h : s.Shown port m) :
    ({ s with now := s.now + ms } : PortEnum).Shown port { m with now := m.now + ms } := by
  unfold PortEnum.Shown at h ⊢
  dsimp only
  split at h
  · exact h
  · obtain ⟨hpending, hpolls, hattempt, hle, hstart⟩ := h
    exact ⟨hpending, hpolls, hattempt, hle, Nat.le_add_right_of_le hstart⟩
  · obtain ⟨hpending, hstage, hattempt, hle, htime⟩ := h
    exact ⟨hpending, hstage, hattempt, hle, by omega⟩
  · exact h
  · exact h
  · exact h
  · exact h
  · exact h
  · exact h

theorem port_step (h : PortTracked port s m) (hstep : PortEnum.Stepped port s a t es) :
    Each (PortSeen.watch port) (PortInOrder port) m (.inl a :: es.map .inr) ∧
      PortTracked port t ((.inl a :: es.map .inr).foldl (PortSeen.watch port) m) := by
  have hnow := h.clock
  have hshown := h.shown
  suffices hfollows : PortFollows port (PortSeen.watch port m (.inl a)) es t from
    ⟨⟨trivial, hfollows.1⟩, hfollows.2⟩
  cases hstep with
  | elapse ms => exact ⟨trivial, congrArg (· + ms) hnow, shown_elapse ms hshown⟩
  | call hs =>
    simp only [PortEnum.Shown, hs] at hshown
    obtain ⟨hpending, hstage, hpolls, hfailures⟩ := hshown
    have hfirst : 1 = m.failures + 1 := by omega
    exact follows_start hnow hpending hstage hpolls hfirst (by decide)
  | requested data attempt start hs =>
    simp only [PortEnum.Shown, hs] at hshown
    obtain ⟨hpending, hpolls, hattempt, hle, hstart⟩ := hshown
    have hstage : m.answer port data = .requested := if_pos hpending
    have hroom : m.polls < portPolls := by
      rw [hpolls]
      decide
    refine ⟨⟨⟨rfl, Or.inr (Or.inl ⟨rfl, hstage, hroom⟩)⟩, trivial⟩, hnow, ?_⟩
    simp only [PortEnum.Shown, PortEnum.goOn, List.map_cons, List.map_nil, List.foldl_cons,
      List.foldl_nil, PortSeen.watch, if_true, hstage, hpolls]
    exact ⟨trivial, trivial, hattempt, hle, by omega⟩
  | enabled reply attempt start hs hreply =>
    simp only [PortEnum.Shown, hs] at hshown
    obtain ⟨hpending, hstage, hattempt, hle, htime⟩ := hshown
    have hanswer : m.answer port reply = .enabled := by
      unfold PortSeen.answer
      rw [hpending, if_neg (fun h => getStatus_ne_setReset port (Option.some.inj h)), if_pos rfl,
        if_pos hreply]
    refine ⟨⟨⟨rfl, Or.inr (Or.inr ⟨rfl, hanswer⟩)⟩, trivial⟩, hnow, ?_⟩
    exact ⟨rfl, hattempt, hle⟩
  | paused reply attempt start hs hreply hin =>
    simp only [PortEnum.Shown, hs] at hshown
    obtain ⟨hpending, hstage, hattempt, hle, htime⟩ := hshown
    have hanswer : m.answer port reply = .requested := by
      unfold PortSeen.answer
      rw [hpending, if_neg (fun h => getStatus_ne_setReset port (Option.some.inj h)), if_pos rfl,
        if_neg (by simp [hreply]), hstage]
    have hroom : m.polls < portPolls := by
      unfold portResetTimeout at hin
      unfold portPolls portResetTimeout portPoll
      unfold portPoll at htime
      omega
    refine ⟨trivial, hnow, ?_⟩
    exact ⟨rfl, hanswer, hattempt, hle, hroom, by
      change start + portPoll * m.polls ≤ s.now + portPoll
      omega⟩
  | polled attempt start wake hs hwake =>
    simp only [PortEnum.Shown, hs] at hshown
    obtain ⟨hpending, hstage, hattempt, hle, hpolls, htime⟩ := hshown
    refine ⟨⟨⟨hpending, Or.inr (Or.inl ⟨rfl, hstage, hpolls⟩)⟩, trivial⟩, hnow, ?_⟩
    simp only [PortEnum.Shown, PortEnum.goOn, List.map_cons, List.map_nil, List.foldl_cons,
      List.foldl_nil, PortSeen.watch, if_true]
    exact ⟨trivial, hstage, hattempt, hle, by
      rw [Nat.mul_add, Nat.mul_one, hnow]
      omega⟩
  | cleared data attempt hs =>
    simp only [PortEnum.Shown, hs] at hshown
    obtain ⟨hpending, hattempt, hle⟩ := hshown
    have hanswer : m.answer port data = .cleared m.now := by
      unfold PortSeen.answer
      rw [hpending, if_neg (fun h => clearReset_ne_setReset port (Option.some.inj h)),
        if_neg (fun h => clearReset_ne_getStatus port (Option.some.inj h)), if_pos rfl]
    refine ⟨trivial, hnow, ?_⟩
    exact ⟨rfl, hattempt, hle, m.now, hanswer, by rw [hnow]⟩
  | recovered attempt wake hs hwake =>
    simp only [PortEnum.Shown, hs] at hshown
    obtain ⟨hpending, hattempt, hle, since, hstage, hsince⟩ := hshown
    have hrested : since + resetRecovery ≤ m.now := by omega
    exact ⟨⟨⟨hattempt, hle, since, hstage, hrested⟩, trivial⟩, hnow, hpending, rfl, hattempt, hle⟩
  | succeeded attempt hs =>
    simp only [PortEnum.Shown, hs] at hshown
    exact ⟨trivial, hnow, hshown.2.1⟩
  | logged attempt hs =>
    simp only [PortEnum.Shown, hs] at hshown
    exact ⟨⟨hshown, trivial⟩, hnow, trivial⟩
  | failed a attempt hs =>
    have hattempt : attempt = m.failures + 1 ∧ attempt ≤ enumAttempts := by
      rcases hs with ⟨point, r, hs, -⟩ | ⟨hs, -⟩
      · cases point <;> simp only [PortEnum.Shown, hs] at hshown <;> tauto
      · simp only [PortEnum.Shown, hs] at hshown
        exact hshown.2.2
    rcases hs with ⟨point, r, -, rfl⟩ | ⟨hs, rfl⟩
    · cases r <;> exact follows_fail hnow rfl hattempt.1 hattempt.2
    · simp only [PortEnum.Shown, hs] at hshown
      exact follows_fail hnow hshown.1 hattempt.1 hattempt.2

end Track

/-- However long the transfers take and whatever they end with: the requests for a port come
one at a time and in order; a device is enumerated when its port has reported the reset done
and enabled, the change has been acknowledged and 10 ms have passed since; no attempt polls
the status more than 101 times, and the attempts are given up after the fourth. -/
theorem port_reset_in_order (port : Port) (as : List PortAct) :
    (portEnum port).recorded.Along (PortSeen.watch port)
      (fun _ m es _ => Each (PortSeen.watch port) (PortInOrder port) m es)
      PortEnum.init PortSeen.init as := by
  refine Machine.along_always (PortTracked port) ?_ as PortEnum.init PortSeen.init
    ⟨rfl, rfl, rfl, rfl, rfl⟩
  intro s m a es t h hstep
  obtain ⟨fs, hfs, rfl⟩ := Machine.recorded_step.mp hstep
  exact (port_step h (PortEnum.stepped hfs)).symm

/-- The most that is left to do, in transfers, pauses and calls. -/
def ResetPort.left (now : ℕ) : ResetPort → ℕ
  | .setFeature _ => 2 * portPolls + 3
  | .getStatus start => 2 * ((portResetTimeout - (now - start) + 4) / portPoll) + 4
  | .pause start wake => 2 * ((portResetTimeout - (wake - start) + 4) / portPoll) + 5
  | .clearFeature => 3
  | .recovery _ => 2

def attemptSteps : ℕ := 2 * portPolls + 3

def PortEnum.left (s : PortEnum) : ℕ :=
  match s.task with
  | .called => enumAttempts * attemptSteps + 2
  | .reset attempt point => (enumAttempts - attempt) * attemptSteps + point.left s.now + 1
  | .enumerating attempt => (enumAttempts - attempt) * attemptSteps + 2
  | .logging _ => 1
  | .returned _ => 0

def PortAct.works : PortAct → Bool
  | .elapse _ => false
  | .call | .reply _ | .timer | .enumerated _ | .logged => true

section Left

variable {port : Port} {s t : PortEnum} {a : PortAct} {es : List PortEffect}

/-- The start of an attempt is not ahead of time. -/
def PortEnum.Begun (s : PortEnum) : Prop :=
  match s.task with
  | .reset _ (.setFeature start) | .reset _ (.getStatus start) => start ≤ s.now
  | .reset _ (.pause start wake) => start ≤ wake
  | .reset _ .clearFeature | .reset _ (.recovery _) | .called | .enumerating _ | .logging _
  | .returned _ => True

theorem begun_fail (attempt : ℕ) : (s.failAttempt port attempt).1.Begun := by
  unfold PortEnum.failAttempt
  split
  · exact Nat.le_refl s.now
  · trivial

theorem begun_step (hb : s.Begun) (h : PortEnum.Stepped port s a t es) : t.Begun := by
  cases h with
  | elapse ms =>
    unfold PortEnum.Begun at hb ⊢
    dsimp only
    split at hb
    · exact Nat.le_add_right_of_le hb
    · exact Nat.le_add_right_of_le hb
    all_goals exact hb
  | call hs => exact Nat.le_refl s.now
  | requested data attempt start hs =>
    simp only [PortEnum.Begun, hs] at hb
    exact hb
  | enabled reply attempt start hs hreply => trivial
  | paused reply attempt start hs hreply hin =>
    simp only [PortEnum.Begun, hs] at hb
    exact Nat.le_add_right_of_le hb
  | polled attempt start wake hs hwake =>
    simp only [PortEnum.Begun, hs] at hb
    exact Nat.le_trans hb hwake
  | cleared data attempt hs => trivial
  | recovered attempt wake hs hwake => trivial
  | succeeded attempt hs => trivial
  | logged attempt hs => trivial
  | failed a attempt hs => exact begun_fail attempt

theorem left_fail (port : Port) (s : PortEnum) (attempt : ℕ) :
    (s.failAttempt port attempt).1.left ≤ (enumAttempts - attempt) * attemptSteps + 1 := by
  unfold PortEnum.failAttempt
  split
  · next hlt =>
    have hsplit : enumAttempts - attempt = enumAttempts - (attempt + 1) + 1 := by omega
    rw [hsplit, Nat.add_mul, Nat.one_mul]
    exact Nat.le_refl _
  · exact Nat.zero_le _

theorem left_pos (point : ResetPort) (now : ℕ) : 1 ≤ point.left now := by
  cases point <;> simp only [ResetPort.left] <;> omega

theorem left_step (hb : s.Begun) (h : PortEnum.Stepped port s a t es) :
    t.left + (if a.works then 1 else 0) ≤ s.left := by
  cases h with
  | elapse ms =>
    unfold PortEnum.left
    dsimp only
    cases s.task with
    | reset attempt point =>
      have hless : point.left (s.now + ms) ≤ point.left s.now := by
        cases point <;> simp only [ResetPort.left, portPoll] <;> omega
      simp only [PortAct.works, Bool.false_eq_true, if_false]
      omega
    | called | enumerating attempt | logging attempt | returned ok => exact Nat.le_refl _
  | call hs =>
    simp only [PortEnum.left, hs, PortEnum.startAttempt, PortEnum.goOn, ResetPort.left,
      PortAct.works, if_true, attemptSteps, enumAttempts]
    omega
  | requested data attempt start hs =>
    simp only [PortEnum.left, hs, PortEnum.goOn, ResetPort.left, PortAct.works, if_true,
      portPolls, portResetTimeout, portPoll]
    omega
  | enabled reply attempt start hs hreply =>
    simp only [PortEnum.left, hs, PortEnum.goOn, ResetPort.left, PortAct.works, if_true]
    omega
  | paused reply attempt start hs hreply hin =>
    simp only [PortEnum.Begun, hs] at hb
    simp only [PortEnum.left, hs, PortEnum.goOn, ResetPort.left, PortAct.works, if_true]
    unfold portPoll portResetTimeout at *
    omega
  | polled attempt start wake hs hwake =>
    simp only [PortEnum.left, hs, PortEnum.goOn, ResetPort.left, PortAct.works, if_true,
      portPoll]
    omega
  | cleared data attempt hs =>
    simp only [PortEnum.left, hs, PortEnum.goOn, ResetPort.left, PortAct.works, if_true]
    omega
  | recovered attempt wake hs hwake =>
    simp only [PortEnum.left, hs, PortEnum.goOn, ResetPort.left, PortAct.works, if_true]
    omega
  | succeeded attempt hs =>
    simp only [PortEnum.left, hs, PortEnum.goOn, PortAct.works, if_true]
    omega
  | logged attempt hs =>
    simp only [PortEnum.left, hs, PortEnum.goOn, PortAct.works, if_true]
    omega
  | failed a attempt hs =>
    have hfail := left_fail port s attempt
    rcases hs with ⟨point, r, hs, rfl⟩ | ⟨hs, rfl⟩
    · have hpos := left_pos point s.now
      simp only [PortAct.works, if_true]
      simp only [PortEnum.left, hs] at hfail ⊢
      omega
    · simp only [PortAct.works, if_true]
      simp only [PortEnum.left, hs] at hfail ⊢
      omega

end Left

/-- Until `enumerate` has returned there is something to wait for, and then to do. -/
theorem PortEnum.goes_on (port : Port) (s : PortEnum) :
    (∃ ok, s.task = .returned ok) ∨
      ∃ ms a, a.works = true ∧ ((portEnum port).run s [.elapse ms, a]).isSome = true := by
  obtain ⟨now, task⟩ := s
  cases task with
  | called => exact Or.inr ⟨0, .call, rfl, rfl⟩
  | reset attempt point =>
    refine Or.inr ?_
    cases point with
    | setFeature start | getStatus start | clearFeature => exact ⟨0, .reply none, rfl, rfl⟩
    | pause start wake | recovery wake =>
      refine ⟨wake, .timer, rfl, ?_⟩
      have hwake : wake ≤ now + wake := Nat.le_add_left wake now
      simp [Machine.run, portEnum, PortEnum.step, PortEnum.timer, hwake]
  | enumerating attempt => exact Or.inr ⟨0, .enumerated true, rfl, rfl⟩
  | logging attempt => exact Or.inr ⟨0, .logged, rfl, rfl⟩
  | returned ok => exact Or.inl ⟨ok, rfl⟩

/-- `enumerate` comes to an end: it takes no more than 822 transfers, pauses and calls, and in
whatever state it is, unless it has returned, one of them is due sooner or later. -/
theorem enumerate_ends (port : Port) {as : List PortAct} {s : PortEnum} {es : List PortEffect}
    (h : (portEnum port).run PortEnum.init as = some (s, es)) :
    Machine.effort PortAct.works as ≤ enumAttempts * attemptSteps + 2 ∧
      ((∃ ok, s.task = .returned ok) ∨
        ∃ ms a, a.works = true ∧ ((portEnum port).run s [.elapse ms, a]).isSome = true) := by
  have hbegun : PortEnum.init.Begun := trivial
  have hle : Machine.effort PortAct.works as + s.left ≤ PortEnum.init.left := by
    refine Machine.effort_le PortEnum.Begun ?_ hbegun h
    intro s a t es hb hstep
    have hstepped := PortEnum.stepped hstep
    exact ⟨begun_step hb hstepped, left_step hb hstepped⟩
  exact ⟨Nat.le_of_add_right_le hle, s.goes_on port⟩

/-- The first attempt fails at once, the second after a poll finds the port enabled. -/
def secondAttempt : List PortAct :=
  [.call, .reply none, .reply (some []), .reply (some [0x03, 0x01, 0x00, 0x00]), .elapse 5, .timer,
    .reply (some [0x03, 0x01, 0x10, 0x00]), .reply (some []), .elapse 10, .timer,
    .enumerated true, .logged]

theorem second_attempt_ends :
    ∃ s es, (portEnum 0).run PortEnum.init secondAttempt = some (s, es) ∧
      s.task = .returned true ∧
      Machine.effort PortAct.works secondAttempt ≤ enumAttempts * attemptSteps + 2 := by
  have hruns : ((portEnum 0).run PortEnum.init secondAttempt).map (fun r => r.1.task) =
      some (.returned true) := by
    decide +kernel
  obtain ⟨⟨s, es⟩, h, htask⟩ := Option.map_eq_some_iff.mp hruns
  exact ⟨s, es, h, htask, (enumerate_ends 0 h).1⟩

/-- The events loop of the hub, as a machine of its own. -/
def hubEvents (role : Role) : Machine Hub Progress HubEffect := ⟨fun h p => h.advance role p⟩

/-- What a failed attempt is to the events loop. -/
def PortEffect.toProgress : PortEffect → Option Progress
  | .failed _ => some .attemptFailed
  | .transfer _ | .enumerate _ | .returned _ => none

/-- Where the events loop is meanwhile, with the port and the child it is for. -/
def PortEnum.phase (port : Port) (c : ChildId) (s : PortEnum) : EventsPhase :=
  match s.task with
  | .called => .enumerating port c 1
  | .reset attempt _ | .enumerating attempt | .logging attempt => .enumerating port c attempt
  | .returned _ => .waiting

section Events

variable {port : Port} {s t : PortEnum} {a : PortAct} {es : List PortEffect} {role : Role}
  {c : ChildId}

theorem events_fail (h : Hub) {attempt : ℕ} :
    (hubEvents role).run { h with phase := .enumerating port c attempt }
        ((s.failAttempt port attempt).2.filterMap PortEffect.toProgress) =
      some ({ h with phase := (s.failAttempt port attempt).1.phase port c }, []) := by
  unfold PortEnum.failAttempt
  split
  · next hlt =>
    have hstep : (hubEvents role).step { h with phase := .enumerating port c attempt }
        .attemptFailed = some ({ h with phase := .enumerating port c (attempt + 1) }, []) := by
      simp only [hubEvents, Hub.advance, if_pos hlt]
    exact Machine.run_single hstep
  · next hlast =>
    have hstep : (hubEvents role).step { h with phase := .enumerating port c attempt }
        .attemptFailed = some ({ h with phase := .waiting }, []) := by
      simp only [hubEvents, Hub.advance, if_neg hlast]
    exact Machine.run_single hstep

/-- The attempts of the hub's events loop are those of `enumerate`, up to the one that
succeeds. -/
theorem events_attempts (h : Hub) (hstep : PortEnum.Stepped port s a t es)
    (hok : .returned true ∉ es) :
    (hubEvents role).run { h with phase := s.phase port c }
        (es.filterMap PortEffect.toProgress) =
      some ({ h with phase := t.phase port c }, []) := by
  cases hstep with
  | elapse ms => rfl
  | call hs | requested data attempt start hs | enabled reply attempt start hs hreply
  | paused reply attempt start hs hreply hin | polled attempt start wake hs hwake
  | cleared data attempt hs | recovered attempt wake hs hwake | succeeded attempt hs =>
    simp only [PortEnum.phase, hs]
    rfl
  | logged attempt hs => exact absurd (List.mem_singleton_self _) hok
  | failed a attempt hs =>
    have hphase : s.phase port c = .enumerating port c attempt := by
      rcases hs with ⟨point, r, hs, -⟩ | ⟨hs, -⟩ <;> simp only [PortEnum.phase, hs]
    rw [hphase]
    exact events_fail h

end Events

end WheelBridge
