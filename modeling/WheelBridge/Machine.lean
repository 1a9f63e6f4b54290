import Mathlib.Logic.Function.Basic
import Mathlib.Tactic.Common

/-!
Executable labelled machines and what holds along their runs. A step takes an
action and yields the next state with the effects it had; an action that is not
enabled yields nothing. A watcher is a fold over the effects: it remembers what a
property needs to know about the past, and no step can read it.
-/
namespace WheelBridge

structure Machine (σ α ε : Type*) where
  step : σ → α → Option (σ × List ε)

namespace Machine

variable {σ α ε μ : Type*}

/-- Run the actions in order and collect the effects. -/
def run (M : Machine σ α ε) (s : σ) : List α → Option (σ × List ε)
  | [] => some (s, [])
  | a :: as =>
    match M.step s a with
    | none => none
    | some (t, es) => (M.run t as).map fun r => (r.1, es ++ r.2)

/-- Every step of the run satisfies `R`, a relation between the state and the
watcher before the step, its effects and the state after it. -/
def Along (M : Machine σ α ε) (watch : μ → ε → μ) (R : σ → μ → List ε → σ → Prop)
    (s : σ) (m : μ) : List α → Prop
  | [] => True
  | a :: as =>
    match M.step s a with
    | none => True
    | some (t, es) => R s m es t ∧ M.Along watch R t (es.foldl watch m) as

instance decidableAlong (M : Machine σ α ε) (watch : μ → ε → μ)
    (R : σ → μ → List ε → σ → Prop) [∀ s m es t, Decidable (R s m es t)]
    (s : σ) (m : μ) (as : List α) : Decidable (M.Along watch R s m as) :=
  match as with
  | [] => isTrue trivial
  | a :: as =>
    match h : M.step s a with
    | none => isTrue (by simp [Along, h])
    | some (t, es) =>
      have : Decidable (M.Along watch R t (es.foldl watch m) as) :=
        decidableAlong M watch R t (es.foldl watch m) as
      decidable_of_iff (R s m es t ∧ M.Along watch R t (es.foldl watch m) as)
        (by simp [Along, h])

/-- The machine whose effects also tell the action of each step, first. -/
def recorded (M : Machine σ α ε) : Machine σ α (α ⊕ ε) where
  step s a := (M.step s a).map fun r => (r.1, .inl a :: r.2.map .inr)

theorem recorded_step {M : Machine σ α ε} {s t : σ} {a : α} {es : List (α ⊕ ε)} :
    M.recorded.step s a = some (t, es) ↔
      ∃ fs, M.step s a = some (t, fs) ∧ .inl a :: fs.map .inr = es := by
  constructor
  · intro h
    obtain ⟨r, hr, heq⟩ := Option.map_eq_some_iff.mp h
    cases heq
    exact ⟨r.2, hr, rfl⟩
  · intro h
    obtain ⟨fs, hfs, rfl⟩ := h
    exact Option.map_eq_some_iff.mpr ⟨(t, fs), hfs, rfl⟩

variable {M : Machine σ α ε} {watch : μ → ε → μ}

theorem along_cons {R : σ → μ → List ε → σ → Prop} {s t : σ} {m : μ} {a : α} {es : List ε}
    (h : M.step s a = some (t, es)) (as : List α) :
    M.Along watch R s m (a :: as) ↔ R s m es t ∧ M.Along watch R t (es.foldl watch m) as := by
  simp only [Along, h]

theorem along_and {C D : σ → μ → List ε → σ → Prop} :
    ∀ (as : List α) (s : σ) (m : μ), M.Along watch C s m as → M.Along watch D s m as →
      M.Along watch (fun s m es t => C s m es t ∧ D s m es t) s m as := by
  intro as
  induction as with
  | nil => exact fun _ _ _ _ => trivial
  | cons a as ih =>
    intro s m hc hd
    cases h : M.step s a with
    | none => simp only [Along, h]
    | some r =>
      obtain ⟨t, es⟩ := r
      rw [along_cons h] at hc hd ⊢
      exact ⟨⟨hc.1, hd.1⟩, ih t (es.foldl watch m) hc.2 hd.2⟩

/-- A step invariant that may rely on the condition `C` of the step it is carried over
turns the condition, met along the whole run, into the property. -/
theorem along_of_invariant (Inv : σ → μ → Prop) {C Q : σ → μ → List ε → σ → Prop}
    (hstep : ∀ s m a es t, Inv s m → M.step s a = some (t, es) → C s m es t →
      Inv t (es.foldl watch m) ∧ Q s m es t) :
    ∀ (as : List α) (s : σ) (m : μ), Inv s m → M.Along watch C s m as →
      M.Along watch Q s m as := by
  intro as
  induction as with
  | nil => exact fun _ _ _ _ => trivial
  | cons a as ih =>
    intro s m hi hc
    cases h : M.step s a with
    | none => simp only [Along, h]
    | some r =>
      obtain ⟨t, es⟩ := r
      rw [along_cons h] at hc ⊢
      obtain ⟨hi', hq⟩ := hstep s m a es t hi h hc.1
      exact ⟨hq, ih t (es.foldl watch m) hi' hc.2⟩

/-- Where one step has the property exactly when it meets the condition, so does a run.
The invariant may rely on the property of the steps before. -/
theorem along_iff (Inv : σ → μ → Prop) {C Q : σ → μ → List ε → σ → Prop}
    (hinv : ∀ s m a es t, Inv s m → M.step s a = some (t, es) → Q s m es t →
      Inv t (es.foldl watch m))
    (hiff : ∀ s m a es t, Inv s m → M.step s a = some (t, es) →
      (Q s m es t ↔ C s m es t))
    (as : List α) (s : σ) (m : μ) (hi : Inv s m) :
    M.Along watch Q s m as ↔ M.Along watch C s m as := by
  constructor
  · refine along_of_invariant Inv ?_ as s m hi
    intro s m a es t hi h hq
    exact ⟨hinv s m a es t hi h hq, (hiff s m a es t hi h).mp hq⟩
  · refine along_of_invariant Inv ?_ as s m hi
    intro s m a es t hi h hc
    have hq := (hiff s m a es t hi h).mpr hc
    exact ⟨hinv s m a es t hi h hq, hq⟩

/-- The same for the runs in which every step meets `E`. -/
theorem along_iff_of (Inv : σ → μ → Prop) {E C Q : σ → μ → List ε → σ → Prop}
    (hinv : ∀ s m a es t, Inv s m → M.step s a = some (t, es) → E s m es t → Q s m es t →
      Inv t (es.foldl watch m))
    (hiff : ∀ s m a es t, Inv s m → M.step s a = some (t, es) → E s m es t →
      (Q s m es t ↔ C s m es t))
    (as : List α) (s : σ) (m : μ) (hi : Inv s m) (he : M.Along watch E s m as) :
    M.Along watch Q s m as ↔ M.Along watch C s m as := by
  constructor
  · intro hq
    refine along_of_invariant Inv ?_ as s m hi (along_and as s m he hq)
    intro s m a es t hi h heq
    exact ⟨hinv s m a es t hi h heq.1 heq.2, (hiff s m a es t hi h heq.1).mp heq.2⟩
  · intro hc
    refine along_of_invariant Inv ?_ as s m hi (along_and as s m he hc)
    intro s m a es t hi h hec
    have hq := (hiff s m a es t hi h hec.1).mpr hec.2
    exact ⟨hinv s m a es t hi h hec.1 hq, hq⟩

/-- What every step has under an invariant holds along every run. -/
theorem along_always (Inv : σ → μ → Prop) {Q : σ → μ → List ε → σ → Prop}
    (hstep : ∀ s m a es t, Inv s m → M.step s a = some (t, es) →
      Inv t (es.foldl watch m) ∧ Q s m es t) :
    ∀ (as : List α) (s : σ) (m : μ), Inv s m → M.Along watch Q s m as := by
  intro as
  induction as with
  | nil => exact fun _ _ _ => trivial
  | cons a as ih =>
    intro s m hi
    cases h : M.step s a with
    | none => simp only [Along, h]
    | some r =>
      obtain ⟨t, es⟩ := r
      rw [along_cons h]
      obtain ⟨hi', hq⟩ := hstep s m a es t hi h
      exact ⟨hq, ih t (es.foldl watch m) hi'⟩

/-- `P` holds in every state of the run, the first one included. -/
def Throughout (M : Machine σ α ε) (watch : μ → ε → μ) (P : σ → μ → Prop) (s : σ) (m : μ)
    (as : List α) : Prop :=
  P s m ∧ M.Along watch (fun _ m es t => P t (es.foldl watch m)) s m as

theorem throughout_of_invariant (Inv : σ → μ → Prop) {P : σ → μ → Prop}
    (hstep : ∀ s m a es t, Inv s m → M.step s a = some (t, es) → Inv t (es.foldl watch m))
    (hp : ∀ s m, Inv s m → P s m) (as : List α) (s : σ) (m : μ) (hi : Inv s m) :
    M.Throughout watch P s m as := by
  refine ⟨hp s m hi, along_always Inv ?_ as s m hi⟩
  intro s m a es t hi h
  have hi' := hstep s m a es t hi h
  exact ⟨hi', hp t _ hi'⟩

end Machine

/-- Effects that a watcher does not heed leave it as it is. -/
theorem foldl_unheeded {ε μ : Type*} {watch : μ → ε → μ} {m : μ} {es : List ε}
    (h : ∀ e ∈ es, watch m e = m) : es.foldl watch m = m := by
  induction es with
  | nil => rfl
  | cons e es ih =>
    rw [List.foldl_cons, h e (List.mem_cons_self ..)]
    exact ih fun e' he' => h e' (List.mem_cons_of_mem e he')

/-- Every effect of a trace is in order for a watcher that has seen those before it. -/
def Each {ε μ : Type*} (watch : μ → ε → μ) (Q : μ → ε → Prop) (m : μ) : List ε → Prop
  | [] => True
  | e :: es => Q m e ∧ Each watch Q (watch m e) es

namespace Each

variable {ε μ : Type*} {watch : μ → ε → μ} {Q : μ → ε → Prop}

@[simp]
theorem nil (m : μ) : Each watch Q m [] := trivial

@[simp]
theorem cons_iff (m : μ) (e : ε) (es : List ε) :
    Each watch Q m (e :: es) ↔ Q m e ∧ Each watch Q (watch m e) es := Iff.rfl

theorem of_forall {es : List ε} (h : ∀ e ∈ es, ∀ m, Q m e) (m : μ) : Each watch Q m es := by
  induction es generalizing m with
  | nil => trivial
  | cons e es ih =>
    exact ⟨h e (List.mem_cons_self ..) m, ih (fun e' he' => h e' (List.mem_cons_of_mem e he')) _⟩

instance decidable [∀ m e, Decidable (Q m e)] (m : μ) (es : List ε) :
    Decidable (Each watch Q m es) :=
  match es with
  | [] => isTrue trivial
  | e :: es =>
    have : Decidable (Each watch Q (watch m e) es) := decidable (watch m e) es
    decidable_of_iff (Q m e ∧ Each watch Q (watch m e) es) Iff.rfl

end Each

end WheelBridge
