import WheelBridge.Refinement

/-!
The monitor of an interface whose device is neither the wheel nor DriveHub: its reports are
read and the changes logged, at most ten a second, with a count of the reports now and
then. Each wait for a report is bounded, so that a change is not left unlogged. Times are
in milliseconds.
-/
namespace WheelBridge

def reportLogInterval : ℕ := 100
def monitorStatsInterval : ℕ := 5000
def maxReportLen : ℕ := 64

structure Monitor where
  now : ℕ
  /-- The timeout of the IN transfer under way. -/
  deadline : ℕ
  last : List UInt8
  unloggedChange : Bool
  lastLogged : ℕ
  reports : UInt32
  statsStart : ℕ
  stopped : Bool

/-- `monitor_interface` at its first transfer; `last_logged` is the epoch. -/
def Monitor.start (now : ℕ) : Monitor where
  now := now
  deadline := now + reportLogInterval
  last := []
  unloggedChange := false
  lastLogged := 0
  reports := 0
  statsStart := now
  stopped := false

inductive MonitorAct
  | elapse (ms : ℕ)
  | report (data : List UInt8)
  | timeout
  | error
deriving DecidableEq

inductive MonitorEffect
  | shown (data : List UInt8)
  | counted (n : UInt32)
  | stopped
deriving DecidableEq

namespace Monitor

def received (data : List UInt8) (s : Monitor) : Monitor :=
  if data ≠ s.last then
    { s with reports := s.reports + 1, last := data, unloggedChange := true }
  else { s with reports := s.reports + 1 }

def logChange (s : Monitor) : Monitor × List MonitorEffect :=
  if s.unloggedChange = true ∧ reportLogInterval ≤ s.now - s.lastLogged then
    ({ s with unloggedChange := false, lastLogged := s.now }, [.shown s.last])
  else (s, [])

def logStats (s : Monitor) : Monitor × List MonitorEffect :=
  if monitorStatsInterval ≤ s.now - s.statsStart then
    ({ s with reports := 0, statsStart := s.now },
      if 0 < s.reports then [.counted s.reports] else [])
  else (s, [])

/-- What follows a transfer or its timeout, and the next transfer. -/
def logged (s : Monitor) : Monitor × List MonitorEffect :=
  let (s, es) := s.logChange
  let (s, fs) := s.logStats
  ({ s with deadline := s.now + reportLogInterval }, es ++ fs)

def step (s : Monitor) : MonitorAct → Option (Monitor × List MonitorEffect)
  | .elapse ms => some ({ s with now := s.now + ms }, [])
  | .report data =>
    if s.stopped = false ∧ data.length ≤ maxReportLen then some (s.received data).logged else none
  | .timeout => if s.stopped = false ∧ s.deadline ≤ s.now then some s.logged else none
  | .error => if s.stopped = false then some ({ s with stopped := true }, [.stopped]) else none

end Monitor

def monitor : Machine Monitor MonitorAct MonitorEffect := ⟨Monitor.step⟩

/-- What has been seen of the interface and of its log. -/
structure MonitorSeen where
  now : ℕ
  /-- The latest report, and the latest logged. -/
  report : Option (List UInt8)
  line : Option (List UInt8)
  lineAt : ℕ
  received : ℕ
  told : UInt32

namespace MonitorSeen

def start (now : ℕ) : MonitorSeen := ⟨now, none, none, 0, 0, 0⟩

def watch (m : MonitorSeen) : MonitorAct ⊕ MonitorEffect → MonitorSeen
  | .inl (.elapse ms) => { m with now := m.now + ms }
  | .inl (.report data) => { m with report := some data, received := m.received + 1 }
  | .inl .timeout | .inl .error => m
  | .inr (.shown data) => { m with line := some data, lineAt := m.now }
  | .inr (.counted n) => { m with told := m.told + n }
  | .inr .stopped => m

/-- The log shows the latest report. An empty one at first is no change, and is not logged. -/
def UpToDate (m : MonitorSeen) : Prop :=
  m.line = m.report ∨ m.line = none ∧ m.report = some []

/-- The latest report comes once more. -/
theorem UpToDate.again {m : MonitorSeen} (h : m.UpToDate) {data : List UInt8}
    (hdata : m.report.getD [] = data) (n : ℕ) :
    ({ m with report := some data, received := n } : MonitorSeen).UpToDate := by
  unfold UpToDate at h ⊢
  cases hreport : m.report with
  | none =>
    have hempty : data = [] := by rw [← hdata, hreport]; rfl
    rcases h with h | h
    · exact Or.inr ⟨h.trans hreport, congrArg some hempty⟩
    · exact Or.inr ⟨h.1, congrArg some hempty⟩
  | some report =>
    have hsame : some report = some data := by rw [← hdata, hreport]; rfl
    rw [hreport, hsame] at h
    exact h

end MonitorSeen

/-- A line shows the latest report, and comes 100 ms after the one before it at the earliest; no
line counts zero reports. -/
def InShape (m : MonitorSeen) : MonitorAct ⊕ MonitorEffect → Prop
  | .inr (.shown data) => some data = m.report ∧ reportLogInterval ≤ m.now - m.lineAt
  | .inr (.counted n) => n ≠ 0
  | .inr .stopped | .inl _ => True

/-- The monitor knows the latest report, the time of the last line, and whether the line shows
the report. -/
structure Known (s : Monitor) (m : MonitorSeen) : Prop where
  clock : m.now = s.now
  report : m.report.getD [] = s.last
  change : s.unloggedChange = true → m.report = some s.last
  lineAt : m.lineAt = s.lastLogged
  quiet : s.unloggedChange = false → m.UpToDate
  past : s.lastLogged ≤ s.now
  told : m.told + s.reports = UInt32.ofNat m.received

/-- While it waits, its transfer ends in time for what is not shown. -/
structure Monitored (s : Monitor) (m : MonitorSeen) : Prop extends Known s m where
  pending : s.unloggedChange = true → s.lastLogged + reportLogInterval ≤ s.deadline

section Steps

variable {s t : Monitor} {m : MonitorSeen} {a : MonitorAct} {es : List MonitorEffect}

theorem logChange_spec (h : Known s m) :
    Known s.logChange.1 ((s.logChange.2.map .inr).foldl MonitorSeen.watch m) ∧
      Each MonitorSeen.watch InShape m (s.logChange.2.map .inr) ∧
      s.logChange.1.now = s.now ∧
      (s.logChange.1.unloggedChange = true → s.unloggedChange = true ∧
        s.now - s.lastLogged < reportLogInterval ∧ s.logChange.1.lastLogged = s.lastLogged) := by
  unfold Monitor.logChange
  split
  · next hdue =>
    have hlatest := (h.change hdue.1).symm
    refine ⟨⟨h.clock, h.report, fun hchange => by simp at hchange, h.clock,
      fun _ => Or.inl hlatest, Nat.le_refl s.now, h.told⟩, ⟨⟨hlatest, ?_⟩, trivial⟩, rfl, ?_⟩
    · rw [h.clock, h.lineAt]
      exact hdue.2
    · simp
  · next hnot =>
    refine ⟨h, trivial, rfl, fun hchange => ⟨hchange, ?_, rfl⟩⟩
    by_contra hlate
    exact hnot ⟨hchange, by omega⟩

theorem logStats_spec (h : Known s m) :
    Known s.logStats.1 ((s.logStats.2.map .inr).foldl MonitorSeen.watch m) ∧
      Each MonitorSeen.watch InShape m (s.logStats.2.map .inr) ∧
      s.logStats.1.now = s.now ∧ s.logStats.1.unloggedChange = s.unloggedChange ∧
      s.logStats.1.lastLogged = s.lastLogged := by
  unfold Monitor.logStats
  split
  · next hdue =>
    by_cases hsome : 0 < s.reports
    · have htold : m.told + s.reports + 0 = UInt32.ofNat m.received := by
        rw [UInt32.add_zero, h.told]
      rw [if_pos hsome]
      refine ⟨⟨h.clock, h.report, h.change, h.lineAt, h.quiet, h.past, htold⟩, ⟨?_, trivial⟩, rfl,
        rfl, rfl⟩
      rintro hzero
      rw [hzero] at hsome
      exact absurd hsome (by decide)
    · have hzero : s.reports = 0 := UInt32.le_zero_iff.mp (UInt32.not_lt.mp hsome)
      have htold := h.told
      rw [hzero] at htold
      rw [if_neg hsome]
      exact ⟨⟨h.clock, h.report, h.change, h.lineAt, h.quiet, h.past, htold⟩, trivial, rfl, rfl,
        rfl⟩
  · exact ⟨h, trivial, rfl, rfl, rfl⟩

theorem received_known (h : Known s m) (data : List UInt8) :
    Known (s.received data) (m.watch (.inl (.report data))) := by
  have htold : m.told + (s.reports + 1) = UInt32.ofNat (m.received + 1) := by
    rw [← UInt32.add_assoc, h.told, UInt32.ofNat_add]
    rfl
  unfold Monitor.received
  split
  · exact ⟨h.clock, rfl, fun _ => rfl, h.lineAt, fun hquiet => by simp at hquiet, h.past, htold⟩
  · next hsame =>
    have hdata : data = s.last := not_not.mp hsame
    exact ⟨h.clock, hdata, fun _ => congrArg some hdata, h.lineAt,
      fun hquiet => (h.quiet hquiet).again (h.report.trans hdata.symm) _, h.past, htold⟩

/-- The log is written as far as it may be; nothing is left if the last line is old enough. -/
theorem logged_spec (h : Known s m) :
    Monitored s.logged.1 ((s.logged.2.map .inr).foldl MonitorSeen.watch m) ∧
      Each MonitorSeen.watch InShape m (s.logged.2.map .inr) ∧
      ((s.unloggedChange = true → reportLogInterval ≤ s.now - s.lastLogged) →
        ((s.logged.2.map .inr).foldl MonitorSeen.watch m).UpToDate) := by
  obtain ⟨hchange, hshape, hnow, hleft⟩ := logChange_spec h
  obtain ⟨hstats, hshape', hnow', hunlogged, hlast⟩ := logStats_spec hchange
  have heffects : s.logged.2.map (Sum.inr : MonitorEffect → MonitorAct ⊕ MonitorEffect) =
      s.logChange.2.map .inr ++ s.logChange.1.logStats.2.map .inr := by
    rw [← List.map_append]
    rfl
  rw [heffects, List.foldl_append]
  refine ⟨⟨⟨hstats.clock, hstats.report, hstats.change, hstats.lineAt, hstats.quiet, hstats.past,
    hstats.told⟩, ?_⟩, ?_, ?_⟩
  · intro hpending
    change s.logChange.1.logStats.1.unloggedChange = true at hpending
    rw [hunlogged] at hpending
    change s.logChange.1.logStats.1.lastLogged + reportLogInterval ≤
      s.logChange.1.logStats.1.now + reportLogInterval
    rw [hlast, hnow', hnow, (hleft hpending).2.2]
    exact Nat.add_le_add_right h.past _
  · exact Each.append hshape hshape'
  · intro hold
    refine hstats.quiet ?_
    rw [hunlogged]
    by_contra hpending
    obtain ⟨hchange, hlate, -⟩ := hleft (by simpa using hpending)
    have hdue := hold hchange
    omega

/-- One step: the effects are in shape, and a timeout brings the log up to date. -/
theorem monitored_step (h : Monitored s m) (hstep : s.step a = some (t, es)) :
    Monitored t ((.inl a :: es.map .inr).foldl MonitorSeen.watch m) ∧
      Each MonitorSeen.watch InShape m (.inl a :: es.map .inr) ∧
      (a = .timeout → ((.inl a :: es.map .inr).foldl MonitorSeen.watch m).UpToDate) := by
  cases a with
  | elapse ms =>
    cases hstep
    exact ⟨⟨⟨congrArg (· + ms) h.clock, h.report, h.change, h.lineAt, h.quiet,
      Nat.le_add_right_of_le h.past, h.told⟩, h.pending⟩, ⟨trivial, trivial⟩,
      MonitorAct.noConfusion⟩
  | report data =>
    obtain ⟨-, heq⟩ := Option.ite_none_right_eq_some.mp hstep
    obtain ⟨rfl, rfl⟩ := Prod.mk.inj (Option.some.inj heq)
    obtain ⟨hmonitored, hshape, -⟩ := logged_spec (received_known h.toKnown data)
    exact ⟨hmonitored, ⟨trivial, hshape⟩, MonitorAct.noConfusion⟩
  | timeout =>
    obtain ⟨⟨-, hdue⟩, heq⟩ := Option.ite_none_right_eq_some.mp hstep
    obtain ⟨rfl, rfl⟩ := Prod.mk.inj (Option.some.inj heq)
    obtain ⟨hmonitored, hshape, hdone⟩ := logged_spec h.toKnown
    refine ⟨hmonitored, ⟨trivial, hshape⟩, fun _ => hdone fun hpending => ?_⟩
    have hintime := h.pending hpending
    omega
  | error =>
    obtain ⟨-, heq⟩ := Option.ite_none_right_eq_some.mp hstep
    cases heq
    exact ⟨⟨⟨h.clock, h.report, h.change, h.lineAt, h.quiet, h.past, h.told⟩, h.pending⟩,
      ⟨trivial, trivial, trivial⟩, MonitorAct.noConfusion⟩

end Steps

/-- Whatever reports come, and whenever: a line shows the latest report and comes at least
100 ms after the one before it; as often as a transfer has waited for 100 ms in vain the
log is up to date, with the latest report as its last line, or with no line while that is
empty; and the reports counted in the log, with those counted since, are all that
came, modulo `2^32`. -/
theorem monitor_shows_changes (now : ℕ) (as : List MonitorAct) :
    monitor.recorded.Along MonitorSeen.watch
      (fun _ m es t => Each MonitorSeen.watch InShape m es ∧
        (.inl .timeout ∈ es → (es.foldl MonitorSeen.watch m).UpToDate) ∧
        (es.foldl MonitorSeen.watch m).told + t.reports =
          UInt32.ofNat (es.foldl MonitorSeen.watch m).received)
      (Monitor.start now) (MonitorSeen.start now) as := by
  have hsettled : (Monitor.start now).unloggedChange ≠ true := Bool.false_ne_true
  have hstart : Monitored (Monitor.start now) (MonitorSeen.start now) :=
    ⟨⟨rfl, rfl, fun hchange => absurd hchange hsettled, rfl, fun _ => Or.inl rfl,
      Nat.zero_le now, rfl⟩, fun hpending => absurd hpending hsettled⟩
  refine Machine.along_always Monitored ?_ as _ _ hstart
  intro s m a es t h hstep
  obtain ⟨fs, hfs, rfl⟩ := Machine.recorded_step.mp hstep
  obtain ⟨hmonitored, hshape, hdone⟩ := monitored_step h hfs
  refine ⟨hmonitored, hshape, fun hmem => hdone ?_, hmonitored.told⟩
  rcases List.mem_cons.mp hmem with heq | hmem
  · exact (Sum.inl.inj heq).symm
  · obtain ⟨e, -, he⟩ := List.mem_map.mp hmem
    cases he

end WheelBridge
