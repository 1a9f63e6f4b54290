import WheelBridge.Refinement

/-!
Logs that are kept short: an event is logged with the number of those passed over since the
last line, unless that line is too recent and the event not urgent. A gauge remembers the last
line, counts the events and adds up what the lines account for.
-/
namespace WheelBridge

structure Throttle where
  last : Option ℕ
  pending : UInt32

namespace Throttle

def init : Throttle := ⟨none, 0⟩

/-- The last line is less than `interval` old. -/
def recent (interval now : ℕ) (t : Throttle) : Bool :=
  t.last.any fun since => decide (now - since < interval)

/-- The number of events passed over, if the one at `now` is logged. -/
def pass (interval now : ℕ) (urgent : Bool) (t : Throttle) : Throttle × Option UInt32 :=
  if urgent = false ∧ t.recent interval now = true then
    ({ t with pending := t.pending + 1 }, none)
  else (⟨some now, 0⟩, some t.pending)

end Throttle

inductive ThrottleAct (α : Type*)
  | elapse (ms : ℕ)
  | event (a : α)
deriving DecidableEq

/-- What becomes of an event, and when. -/
inductive ThrottleEffect (α : Type*)
  | line (now : ℕ) (a : α) (passed : UInt32)
  | passed (now : ℕ) (a : α)
deriving DecidableEq

structure Throttled where
  now : ℕ
  throttle : Throttle

namespace Throttled

variable {α : Type*}

def init : Throttled := ⟨0, .init⟩

def step (interval : ℕ) (urgent : α → Bool) (s : Throttled) :
    ThrottleAct α → Option (Throttled × List (ThrottleEffect α))
  | .elapse ms => some ({ s with now := s.now + ms }, [])
  | .event a =>
    match s.throttle.pass interval s.now (urgent a) with
    | (t, some n) => some ({ s with throttle := t }, [.line s.now a n])
    | (t, none) => some ({ s with throttle := t }, [.passed s.now a])

end Throttled

def throttled {α : Type*} (interval : ℕ) (urgent : α → Bool) :
    Machine Throttled (ThrottleAct α) (ThrottleEffect α) :=
  ⟨Throttled.step interval urgent⟩

namespace ThrottleEffect

variable {α : Type*}

def item : ThrottleEffect α → α
  | .line _ a _ | .passed _ a => a

def logged : ThrottleEffect α → Option α
  | .line _ a _ => some a
  | .passed _ _ => none

/-- The events that a line accounts for, its own included. -/
def told : ThrottleEffect α → UInt32
  | .line _ _ n => n + 1
  | .passed _ _ => 0

end ThrottleEffect

/-- The events and what the lines account for; the last line. -/
structure Gauge where
  last : Option ℕ
  events : ℕ
  told : UInt32

namespace Gauge

variable {α : Type*}

def zero : Gauge := ⟨none, 0, 0⟩

def watch (g : Gauge) (e : ThrottleEffect α) : Gauge where
  last :=
    match e with
    | .line now _ _ => some now
    | .passed _ _ => g.last
  events := g.events + 1
  told := g.told + e.told

end Gauge

/-- A line is urgent, or the last one is old enough; an event that is passed over is not
urgent, and the last line too recent. -/
def SpacedOut {α : Type*} (interval : ℕ) (urgent : α → Bool) (g : Gauge) : ThrottleEffect α → Prop
  | .line now a _ => urgent a = true ∨ ∀ since, g.last = some since → interval ≤ now - since
  | .passed now a => urgent a = false ∧ ∃ since, g.last = some since ∧ now - since < interval

/-- The throttle knows the last line and counts what no line accounts for. -/
structure Gauged (s : Throttled) (g : Gauge) : Prop where
  last : s.throttle.last = g.last
  told : g.told + s.throttle.pending = UInt32.ofNat g.events

section Steps

variable {α : Type*} {interval : ℕ} {urgent : α → Bool} {s t : Throttled} {g : Gauge}
  {es : List (ThrottleEffect α)}

theorem gauged_init : Gauged Throttled.init Gauge.zero := ⟨rfl, rfl⟩

theorem recent_iff : s.throttle.recent interval s.now = true ↔
    ∃ since, s.throttle.last = some since ∧ s.now - since < interval := by
  simp [Throttle.recent, Option.any_eq_true]

theorem gauged_step {a : ThrottleAct α} (h : Gauged s g)
    (hstep : (throttled interval urgent).step s a = some (t, es)) :
    Gauged t (es.foldl Gauge.watch g) ∧ Each Gauge.watch (SpacedOut interval urgent) g es := by
  cases a with
  | elapse ms =>
    cases hstep
    exact ⟨⟨h.last, h.told⟩, trivial⟩
  | event a =>
    change s.step interval urgent (.event a) = some (t, es) at hstep
    unfold Throttled.step Throttle.pass at hstep
    by_cases hpass : urgent a = false ∧ s.throttle.recent interval s.now = true
    · simp only [if_pos hpass] at hstep
      cases hstep
      have hsum : g.told + 0 + (s.throttle.pending + 1) = UInt32.ofNat (g.events + 1) := by
        rw [UInt32.add_zero, ← UInt32.add_assoc, h.told, UInt32.ofNat_add]
        rfl
      obtain ⟨since, hlast, hrecent⟩ := recent_iff.mp hpass.2
      rw [h.last] at hlast
      exact ⟨⟨h.last, hsum⟩, ⟨hpass.1, since, hlast, hrecent⟩, trivial⟩
    · simp only [if_neg hpass] at hstep
      cases hstep
      have hsum : g.told + (s.throttle.pending + 1) + 0 = UInt32.ofNat (g.events + 1) := by
        rw [UInt32.add_zero, ← UInt32.add_assoc, h.told, UInt32.ofNat_add]
        rfl
      refine ⟨⟨rfl, hsum⟩, ?_, trivial⟩
      by_cases hurgent : urgent a = true
      · exact Or.inl hurgent
      · refine Or.inr fun since hlast => ?_
        rw [← h.last] at hlast
        have hnot : ¬ s.now - since < interval := fun hlt =>
          hpass ⟨by simpa using hurgent, recent_iff.mpr ⟨since, hlast, hlt⟩⟩
        omega

/-- Each effect of a run is in time. -/
theorem throttled_in_time (as : List (ThrottleAct α)) :
    (throttled interval urgent).Along Gauge.watch
      (fun _ g es _ => Each Gauge.watch (SpacedOut interval urgent) g es)
      Throttled.init Gauge.zero as :=
  Machine.along_always Gauged (fun _ _ _ _ _ h hstep => gauged_step h hstep) as _ _ gauged_init

theorem gauged_run {as : List (ThrottleAct α)}
    (h : (throttled interval urgent).run Throttled.init as = some (s, es)) :
    Gauged s (es.foldl Gauge.watch Gauge.zero) :=
  Machine.run_watched Gauged (fun _ _ _ _ _ hg hstep => (gauged_step hg hstep).1) gauged_init h

theorem events_watch_eq (g : Gauge) (es : List (ThrottleEffect α)) :
    (es.foldl Gauge.watch g).events = g.events + es.length := by
  induction es generalizing g with
  | nil => rfl
  | cons e es ih =>
    rw [List.foldl_cons, ih, List.length_cons]
    change g.events + 1 + es.length = _
    omega

/-- The lines account for all events but those since the last one. -/
theorem told_run {as : List (ThrottleAct α)}
    (h : (throttled interval urgent).run Throttled.init as = some (s, es)) :
    (es.foldl Gauge.watch Gauge.zero).told + s.throttle.pending = UInt32.ofNat es.length := by
  have hevents := events_watch_eq Gauge.zero es
  rw [(gauged_run h).told, hevents]
  exact congrArg UInt32.ofNat (Nat.zero_add es.length)

/-- No urgent event is passed over: they are all logged, in order. -/
theorem urgent_logged {as : List (ThrottleAct α)}
    (h : (throttled interval urgent).run s as = some (t, es)) :
    (es.filterMap ThrottleEffect.logged).filter urgent =
      (es.map ThrottleEffect.item).filter urgent := by
  have hone (s t : Throttled) (a : ThrottleAct α) (es : List (ThrottleEffect α))
      (hstep : (throttled interval urgent).step s a = some (t, es)) :
      ∀ e ∈ es, ∀ now b, e = .passed now b → urgent b = false := by
    rintro _ he now b rfl
    cases a with
    | elapse ms =>
      cases hstep
      cases he
    | event a =>
      change s.step interval urgent (.event a) = some (t, es) at hstep
      unfold Throttled.step Throttle.pass at hstep
      by_cases hpass : urgent a = false ∧ s.throttle.recent interval s.now = true
      · simp only [if_pos hpass] at hstep
        cases hstep
        cases List.mem_singleton.mp he
        exact hpass.1
      · simp only [if_neg hpass] at hstep
        cases hstep
        cases List.mem_singleton.mp he
  have hall := (Machine.run_always (fun _ => True)
    (fun e => ∀ now b, e = .passed now b → urgent b = false)
    (fun s a t es _ hstep => ⟨trivial, hone s t a es hstep⟩) trivial h).2
  clear h
  induction es with
  | nil => rfl
  | cons e es ih =>
    have ih := ih fun e' he' => hall e' (List.mem_cons_of_mem e he')
    cases e with
    | line now a n =>
      have hlogged : (ThrottleEffect.line now a n).logged = some a := rfl
      rw [List.filterMap_cons_some hlogged, List.map_cons, List.filter_cons, List.filter_cons, ih]
      rfl
    | passed now a =>
      have hlogged : (ThrottleEffect.passed now a).logged = none := rfl
      have hnot := hall _ (List.mem_cons_self ..) now a rfl
      have hitem : ¬ urgent (ThrottleEffect.passed now a).item = true := by
        change ¬ urgent a = true
        rw [hnot]
        exact Bool.false_ne_true
      rw [List.filterMap_cons_none hlogged, List.map_cons, List.filter_cons, if_neg hitem, ih]

end Steps

end WheelBridge
