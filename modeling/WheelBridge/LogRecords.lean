import WheelBridge.UartLog

/-!
What comes out of the log: whole entries in the order of the critical sections, and every
call of `log` is found in them, as a record or in the count of a notice, or in `DROPPED`.
-/
namespace WheelBridge.UartLog

/-- A record in the pipe, with the number of records dropped that its notice tells. -/
structure Entry where
  dropped : UInt32
  line : List UInt8

/-- No notice is given where nothing was dropped. -/
def Entry.bytes (e : Entry) : List UInt8 :=
  (if e.dropped = 0 then [] else (noticePieces e.dropped).flatten ++ eol) ++ (e.line ++ eol)

/-- What has been logged and what became of it. -/
structure Records where
  /-- The text of the record that each context is logging. -/
  calls : ℕ → Option (List UInt8)
  /-- The entries put into the pipe, and the bytes that have come out of it. -/
  entries : List Entry
  delivered : List UInt8
  /-- How many calls of `log` are over. -/
  returned : ℕ
  /-- The records dropped since the last one that was not, and the most there ever were. -/
  inARow : ℕ
  longest : ℕ

namespace Records

def init : Records := ⟨fun _ => none, [], [], 0, 0, 0⟩

def watch (m : Records) : LogEffect → Records
  | .formatted i ms args =>
    { m with calls := Function.update m.calls i (some (uptime ms ++ args).flatten) }
  | .stored i dropped =>
    { m with
      calls := Function.update m.calls i none
      entries := m.entries ++
        [⟨dropped, ((m.calls i).getD []).take (lineLen - eol.length)⟩]
      returned := m.returned + 1
      inARow := 0 }
  | .refused i =>
    { m with
      calls := Function.update m.calls i none
      returned := m.returned + 1
      inARow := m.inARow + 1
      longest := max m.longest (m.inARow + 1) }
  | .delivered bytes => { m with delivered := m.delivered ++ bytes }
  | .outOfBounds | .pushed _ _ => m

/-- The counts of all notices put into the pipe. -/
def noticed (m : Records) : ℕ := (m.entries.map fun e => e.dropped.toNat).sum

end Records

variable {P : Pipe UInt8 pipeLen}

/-- One step of the log, `m` being what was logged before it. -/
structure Sound (m : Records) (es : List LogEffect) (t : Logger P) : Prop where
  inBounds : .outOfBounds ∉ es
  pushed : ∀ bytes left, .pushed bytes left ∈ es → left = []
  whole : (es.foldl Records.watch m).delivered <+:
    (es.foldl Records.watch m).entries.flatMap Entry.bytes
  counted : (es.foldl Records.watch m).longest < 2 ^ 32 - 1 →
    (es.foldl Records.watch m).returned =
      (es.foldl Records.watch m).entries.length + (es.foldl Records.watch m).noticed +
        t.dropped.toNat
  /-- No critical section runs for ever. -/
  returns : ∀ i, t.lines i ≠ none → (step t (.put i)).isSome = true

/-- The line of a context is that of its record; the pipe holds the entries but for what
was read, and `DROPPED` counts the records dropped as far as it can. -/
structure Tracks (s : Logger P) (m : Records) : Prop where
  lines : ∀ i line, s.lines i = some line → ∃ text, m.calls i = some text ∧
    line.bytes = text.take (lineLen - eol.length) ++ eol ∧ line.len = line.bytes.length
  stream : m.delivered ++ P.held s.pipe = m.entries.flatMap Entry.bytes
  dropped : s.dropped.toNat = min m.inARow (2 ^ 32 - 1)
  row_le : m.inARow ≤ m.longest
  counted : m.longest < 2 ^ 32 - 1 → m.returned = m.entries.length + m.noticed + m.inARow

/-- The critical section drops the record and counts it, or puts all of its entry into the
pipe. -/
theorem putLine_spec (i : ℕ) {line : LineBuf lineLen} {text : List UInt8}
    (hbytes : line.bytes = text ++ eol) (hlen : line.len = line.bytes.length) (s : Logger P) :
    putLine i line s = some ({ s with dropped := saturatingAdd s.dropped 1 }, [.refused i]) ∨
      ∃ notice t, putLine i line s = some ({ s with pipe := t, dropped := 0 },
          [.pushed notice [], .pushed line.bytes [], .stored i s.dropped]) ∧
        P.held t = P.held s.pipe ++ (Entry.mk s.dropped text).bytes := by
  obtain ⟨notice, hnotice, hnbytes, hnlen⟩ := formatNotice_spec s.dropped
  unfold putLine
  rw [hnotice]
  dsimp only
  split
  · exact Or.inl rfl
  · next hfree =>
    right
    obtain ⟨t₁, hpush₁, hheld₁⟩ := push_spec notice.bytes.length s.pipe notice.bytes (Nat.le_refl _)
      (by omega)
    have hfull := P.held_free s.pipe
    have hfull₁ := P.held_free t₁
    rw [hheld₁, List.length_append] at hfull₁
    obtain ⟨t₂, hpush₂, hheld₂⟩ := push_spec line.bytes.length t₁ line.bytes (Nat.le_refl _)
      (by omega)
    refine ⟨notice.bytes, t₂, ?_, ?_⟩
    · rw [hpush₁]
      dsimp only
      rw [hpush₂]
    · rw [hheld₂, hheld₁, List.append_assoc, hnbytes, hbytes]
      rfl

namespace Tracks

variable {s t : Logger P} {m : Records}

theorem returns (h : Tracks s m) (i : ℕ) (hi : s.lines i ≠ none) :
    (step s (.put i)).isSome = true := by
  obtain ⟨line, hline⟩ := Option.ne_none_iff_exists'.mp hi
  obtain ⟨text, -, hbytes, hlen⟩ := h.lines i line hline
  simp only [step, hline]
  rcases putLine_spec i hbytes hlen { s with lines := Function.update s.lines i none } with
    heq | ⟨notice, t, heq, -⟩ <;> rw [heq] <;> rfl

/-- What is sound is read off the invariant after the step. -/
theorem sound {es : List LogEffect} (h : Tracks t (es.foldl Records.watch m))
    (hbounds : .outOfBounds ∉ es) (hpushed : ∀ bytes left, .pushed bytes left ∈ es → left = []) :
    Sound m es t where
  inBounds := hbounds
  pushed := hpushed
  whole := ⟨_, h.stream⟩
  counted hrow := by
    have hcount := h.counted hrow
    have hrow_le := h.row_le
    rw [h.dropped]
    omega
  returns i hi := h.returns i hi

/-- A context begins to log. -/
theorem format (h : Tracks s m) (i ms : ℕ) (args : List (List UInt8)) {line : LineBuf lineLen}
    (hbytes : line.bytes = (uptime ms ++ args).flatten.take (lineLen - eol.length) ++ eol)
    (hlen : line.len = line.bytes.length) :
    Tracks { s with lines := Function.update s.lines i (some line) }
      (m.watch (.formatted i ms args)) where
  lines j line' hj := by
    by_cases hji : j = i
    · subst hji
      obtain rfl : line = line' := by simpa using hj
      exact ⟨_, by simp [Records.watch], hbytes, hlen⟩
    · simp only [Function.update_of_ne hji] at hj
      obtain ⟨text, hcall, hspec⟩ := h.lines j line' hj
      exact ⟨text, by simpa [Records.watch, hji] using hcall, hspec⟩
  stream := h.stream
  dropped := h.dropped
  row_le := h.row_le
  counted := h.counted

/-- The lines of the other contexts, while one is in its critical section. -/
theorem other_lines (h : Tracks s m) (i : ℕ) (j : ℕ) (line : LineBuf lineLen)
    (hj : Function.update s.lines i none j = some line) :
    ∃ text, Function.update m.calls i none j = some text ∧
      line.bytes = text.take (lineLen - eol.length) ++ eol ∧ line.len = line.bytes.length := by
  by_cases hji : j = i
  · subst hji
    simp at hj
  · rw [Function.update_of_ne hji] at hj ⊢
    exact h.lines j line hj

theorem refused (h : Tracks s m) (i : ℕ) :
    Tracks { s with
      lines := Function.update s.lines i none
      dropped := saturatingAdd s.dropped 1 } (m.watch (.refused i)) where
  lines := h.other_lines i
  stream := h.stream
  dropped := by
    have hdropped := h.dropped
    have hone : (1 : UInt32).toNat = 1 := rfl
    rw [saturatingAdd_toNat, hdropped, hone]
    change _ = min (m.inARow + 1) _
    omega
  row_le := Nat.le_max_right ..
  counted hlongest := by
    have hcount := h.counted (Nat.lt_of_le_of_lt (Nat.le_max_left ..) hlongest)
    change m.returned + 1 = m.entries.length + m.noticed + (m.inARow + 1)
    omega

theorem stored (h : Tracks s m) {i : ℕ} {text : List UInt8} (hcall : m.calls i = some text)
    {pipe : P.State} (hheld : P.held pipe = P.held s.pipe ++
      (Entry.mk s.dropped (text.take (lineLen - eol.length))).bytes) :
    Tracks { s with lines := Function.update s.lines i none, pipe := pipe, dropped := 0 }
      (m.watch (.stored i s.dropped)) where
  lines := h.other_lines i
  stream := by
    simp only [Records.watch, hcall, Option.getD_some, List.flatMap_append, List.flatMap_singleton]
    rw [hheld, ← List.append_assoc, h.stream]
  dropped := by
    change (0 : UInt32).toNat = min 0 _
    rw [Nat.zero_min]
    rfl
  row_le := Nat.zero_le _
  counted hlongest := by
    have hcount := h.counted hlongest
    have hdropped := h.dropped
    have hrow : m.inARow < 2 ^ 32 - 1 := Nat.lt_of_le_of_lt h.row_le hlongest
    simp only [Records.watch, Records.noticed, List.length_append, List.length_singleton,
      List.map_append, List.map_cons, List.map_nil, List.sum_append, List.sum_singleton] at hcount ⊢
    omega

theorem read (h : Tracks s m) {k : ℕ} {bytes : List UInt8} {pipe : P.State}
    (hread : P.tryRead s.pipe k = some (bytes, pipe)) :
    Tracks { s with pipe := pipe } (m.watch (.delivered bytes)) where
  lines := h.lines
  stream := by
    change (m.delivered ++ bytes) ++ P.held pipe = _
    rw [List.append_assoc, ← P.tryRead_held _ _ _ _ hread]
    exact h.stream
  dropped := h.dropped
  row_le := h.row_le
  counted := h.counted

end Tracks

theorem log_step {s t : Logger P} {m : Records} {a : LogAct} {es : List LogEffect}
    (h : Tracks s m) (hstep : (logging P).step s a = some (t, es)) :
    Tracks t (es.foldl Records.watch m) ∧ Sound m es t := by
  change step s a = some (t, es) at hstep
  cases a with
  | format i ms args =>
    obtain ⟨line, hline, hbytes, hlen⟩ := formatLine_spec ms args
    simp only [step, hline] at hstep
    split at hstep <;> cases hstep
    have htracks := h.format i ms args hbytes hlen
    exact ⟨htracks, htracks.sound (by simp) (by simp)⟩
  | put i =>
    simp only [step] at hstep
    split at hstep
    · cases hstep
    · next line hline =>
      obtain ⟨text, hcall, hbytes, hlen⟩ := h.lines i line hline
      rcases putLine_spec i hbytes hlen { s with lines := Function.update s.lines i none } with
        heq | ⟨notice, pipe, heq, hheld⟩ <;> rw [heq] at hstep <;> cases hstep
      · exact ⟨h.refused i, (h.refused i).sound (by simp) (by simp)⟩
      · have htracks := h.stored hcall hheld
        refine ⟨htracks, htracks.sound (by simp) ?_⟩
        intro bytes left hpushed
        simp only [List.mem_cons, LogEffect.pushed.injEq, reduceCtorEq, List.not_mem_nil,
          or_false] at hpushed
        rcases hpushed with ⟨-, hleft⟩ | ⟨-, hleft⟩ <;> exact hleft
  | read k =>
    simp only [step] at hstep
    split at hstep <;> cases hstep
    next hread =>
    exact ⟨h.read hread, (h.read hread).sound (by simp) (by simp)⟩

theorem tracks_init : Tracks (Logger.init P) Records.init where
  lines i line hi := by cases hi
  stream := by rw [Logger.init, P.held_empty]; rfl
  dropped := rfl
  row_le := Nat.le_refl _
  counted _ := rfl

/-- Over any pipe, however the contexts' calls of `log` and the reads of the pipe interleave:
what has come out is a prefix of whole entries in the order of the critical sections, every
call is counted, and no write is out of bounds or cut short. -/
theorem records_whole (P : Pipe UInt8 pipeLen) (as : List LogAct) :
    (logging P).Along Records.watch (fun _ m es t => Sound m es t) (Logger.init P) Records.init
      as := by
  refine Machine.along_always Tracks ?_ as _ _ tracks_init
  intro s m a es t h hstep
  exact log_step h hstep

/-- Two contexts, the second of which is first in its critical section. -/
def twoContexts : List LogAct :=
  [.format 0 7123 [ascii "boot"], .format 1 7124 [ascii "core ", ascii "1"], .put 1, .read 4,
    .put 0, .read 64]

theorem records_whole_ring :
    ((logging (Pipe.ring UInt8 pipeLen)).run (Logger.init _) twoContexts).isSome = true ∧
      (logging (Pipe.ring UInt8 pipeLen)).Along Records.watch (fun _ m es t => Sound m es t)
        (Logger.init _) Records.init twoContexts :=
  ⟨by decide +kernel, records_whole (Pipe.ring UInt8 pipeLen) twoContexts⟩

end WheelBridge.UartLog
