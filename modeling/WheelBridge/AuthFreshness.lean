import WheelBridge.AuthLedger

/-!
Which nonce the cached signature answers. The publication that ends a signing run
writes whatever nonce id is current into the pages; the signature is that of the
current nonce only if the console has asked for nothing since the page the run was
started by.
-/
namespace WheelBridge.Auth

def isLastPage : Option Cmd → Bool
  | some (.nonce page) => pageOf page = some lastNoncePage
  | _ => false

/-- The signing run of the cached signature was started by a page-4 F0, and that is the
last GET F3 or SET F0 the console side has handled. -/
def Ledger.Fresh (m : Ledger) : Prop :=
  ∃ k ∈ m.origin, isLastPage m.log[k]? = true ∧ k + 1 = m.log.length

instance (m : Ledger) : Decidable m.Fresh :=
  inferInstanceAs (Decidable (∃ k ∈ m.origin, _))

/-- A signature offered to the console is fresh. -/
def SignatureFresh (_ : System) (m : Ledger) (es : List Effect) (t : System) : Prop :=
  t.statics.state.ready = true → (es.foldl Ledger.watch m).Fresh

instance (s : System) (m : Ledger) (es : List Effect) (t : System) :
    Decidable (SignatureFresh s m es t) :=
  inferInstanceAs (Decidable (_ → _))

/-- A publication finds `CMD` empty and no `set_report` half done, and no command sent
after the one that started its signing run was dropped, cleared or taken. -/
def PublishesQuietly (s : System) (m : Ledger) (es : List Effect) (_ : System) : Prop :=
  ∀ i, .signer i .publish ∈ es →
    s.cmd.items = [] ∧ s.console = .idle ∧ ∀ k, m.serving i = some k → m.gone ≤ k + 1

/-- Where the queue is empty and the console side idle, the last command sent is gone. -/
theorem Follows.gone_eq {sent : ℕ} {s : System} {m : Ledger} (h : Follows sent s m)
    (hitems : s.cmd.items = []) : m.gone = sent := by
  have hqueue : m.queue = [] := by
    have := h.items
    rw [hitems, List.map_nil] at this
    exact List.map_eq_nil_iff.mp this.symm
  by_contra hne
  have hlt : m.gone < sent := Nat.lt_of_le_of_ne h.gone_le hne
  have := h.last hlt
  rw [hqueue] at this
  simp at this

/-- Nothing can be queued behind a command that is the last one logged. -/
theorem Agrees.quiet {s : System} {m : Ledger} (h : Agrees s m) {i k : ℕ}
    (htaken : m.takenBy k = some i) (hlast : k + 1 = m.log.length) :
    s.cmd.items = [] ∧ s.console = .idle ∧ m.gone ≤ k + 1 := by
  obtain ⟨hgone, hlt⟩ := h.follows.taken_lt k (by simp [htaken])
  have hle := h.follows.gone_le
  have hidle : s.console = .idle := by
    cases hcon : s.console with
    | idle => rfl
    | sending data =>
      simp only [System.sent, hcon] at hle
      omega
  have hsent : s.sent m = m.log.length := by simp only [System.sent, hidle]
  have hqueue : m.queue = [] := by
    cases hq : m.queue with
    | nil => rfl
    | cons j rest =>
      have hj := hlt j (by simp [hq])
      have := h.follows.queue_lt j (by simp [hq])
      omega
  refine ⟨?_, hidle, by omega⟩
  have hitems := h.follows.items
  rw [hqueue, List.map_nil] at hitems
  exact List.map_eq_nil_iff.mp hitems

/-- A publication is fresh exactly when it is quiet. -/
theorem publish_fresh_iff {s : System} {m : Ledger} (h : Agrees s m) {i attempt : ℕ}
    {step : SignStep} (hi : s.signers i = some (.sign attempt step)) :
    (m.watch (.signer i .publish)).Fresh ↔
      s.cmd.items = [] ∧ s.console = .idle ∧ ∀ k, m.serving i = some k → m.gone ≤ k + 1 := by
  obtain ⟨k, cmd, hserving, htaken, -, hlog, hh⟩ := h.follows.busy i _ hi trivial
  have hpage : isLastPage m.log[k]? = true := by
    rw [hlog]
    cases cmd with
    | reset => exact absurd hh id
    | nonce page => simpa [isLastPage, Task.Handles] using hh
  simp only [Ledger.watch_publish, Ledger.Fresh, hserving, Option.mem_def, Option.some.injEq,
    exists_eq_left', hpage, true_and, forall_eq']
  constructor
  · exact fun hlast => h.quiet htaken hlast
  · intro hquiet
    obtain ⟨hitems, hidle, hgone⟩ := hquiet
    have heq := h.follows.gone_eq hitems
    simp only [System.sent, hidle] at heq
    obtain ⟨hlt, -⟩ := List.getElem?_eq_some_iff.mp hlog
    omega

/-- The log and the origin are changed by the console's requests and by publications
only, and the requests withdraw the signature. -/
theorem ready_step {role : Role} {s t : System} {m : Ledger} {es : List Effect}
    (hstep : Stepped role s t es)
    (hpub : ∀ i, .signer i .publish ∉ es) (hready : t.statics.state.ready = true) :
    s.statics.state.ready = true ∧ (es.foldl Ledger.watch m).log = m.log ∧
      (es.foldl Ledger.watch m).origin = m.origin := by
  cases hstep with
  | elapse | ignored => exact ⟨hready, rfl, rfl⟩
  | read id hid =>
    exact ⟨by rw [← (getReport_other id s.statics.state hid).1]; exact hready, rfl, rfl⟩
  | resetRead hidle t es hsend =>
    have hst : t.statics.state.ready = false := by
      unfold send at hsend
      split at hsend <;> cases hsend <;> rfl
    rw [hst] at hready
    cases hready
  | nonceSet => cases hready
  | send data hcon t es hsend =>
    unfold send at hsend
    split at hsend <;> cases hsend <;> exact ⟨hready, rfl, rfl⟩
  | attach | detach => exact ⟨hready, rfl, rfl⟩
  | receive i cmd q hi hq =>
    rw [List.foldl_cons, watch_transfers, Ledger.watch_received]
    rw [begin_state] at hready
    exact ⟨hready, Ledger.take_log m i cmd, Ledger.take_origin m i cmd⟩
  | woke i task e r hi he hr =>
    obtain ⟨st, task', es⟩ := r
    rcases (resume_outcome hr).effects with ⟨hnot, hkeep⟩ | ⟨hserve, rfl, -⟩
    · by_cases hserve : .serve ∈ es
      · simp only [settle, if_pos hserve, List.foldl_cons] at hready ⊢
        rw [Ledger.watch_signer _ i es hnot]
        exact ⟨hkeep ▸ hready, rfl, rfl⟩
      · rw [settle_plain i s st task' es hserve] at hready ⊢
        rw [Ledger.watch_signer m i es hnot]
        exact ⟨hkeep ▸ hready, rfl, rfl⟩
    · rw [settle_plain i s st task' _ hserve] at hpub
      exact absurd List.mem_cons_self (hpub i)

/-- In every run, every signature offered is fresh if and only if every publication is
quiet. -/
theorem signature_fresh_iff (role : Role) (as : List Act) :
    (machine role).Along Ledger.watch SignatureFresh System.init Ledger.init as ↔
      (machine role).Along Ledger.watch PublishesQuietly System.init Ledger.init as := by
  apply Machine.along_iff (fun s m => Agrees s m ∧ (s.statics.state.ready = true → m.Fresh))
  · intro s m a es t hi h hq
    exact ⟨agrees_step hi.1 h, hq⟩
  · intro s m a es t hi h
    obtain ⟨hagrees, hfresh⟩ := hi
    have hstep := stepped h
    by_cases hpub : ∃ i, .signer i .publish ∈ es
    · obtain ⟨i, hmem⟩ := hpub
      cases hstep with
      | woke j task e r hj he hr =>
        obtain ⟨st, task', fx⟩ := r
        rcases (resume_outcome hr).effects with ⟨hnot, -⟩ |
          ⟨hserve, rfl, hready, attempt, step, rfl⟩
        · exact absurd (publish_mem_settle.mp hmem).2 hnot
        · obtain ⟨rfl, -⟩ := publish_mem_settle.mp hmem
          rw [settle_plain i s st task' _ hserve]
          have hready' : st.state.ready = true := hready
          have hiff := publish_fresh_iff hagrees hj
          simp only [SignatureFresh, PublishesQuietly, hready', true_implies, List.map_cons,
            List.map_nil, List.foldl_cons, List.foldl_nil, hiff, List.mem_singleton,
            Effect.signer.injEq, and_true, forall_eq]
      | resetRead hidle t es hsend =>
        unfold send at hsend
        split at hsend <;> cases hsend <;> simp at hmem
      | send data hcon t es hsend =>
        unfold send at hsend
        split at hsend <;> cases hsend <;> simp at hmem
      | receive i cmd q hi hq => cases hc : (begin cmd s.statics).2.transfer <;> simp [hc] at hmem
      | elapse | read | ignored | nonceSet | attach | detach => simp at hmem
    · have hnone : ∀ i, .signer i .publish ∉ es := not_exists.mp hpub
      have hquiet : PublishesQuietly s m es t := fun i hmem => absurd hmem (hnone i)
      simp only [hquiet, iff_true]
      intro hready
      obtain ⟨hr, hlog, horigin⟩ := ready_step (m := m) hstep hnone hready
      have := hfresh hr
      simp only [Ledger.Fresh, hlog, horigin] at this ⊢
      exact this
  · exact ⟨agrees_init, fun h => by simp [System.init, Statics.init, State.init] at h⟩

/-- A page passed on to device 0, which takes it. -/
def passPage (id page : UInt8) : List Act :=
  queuePage id page ++ [.receive 0, .reply 0 (some [])]

/-- Page `page` of a signature under the signer's own counter. -/
def signaturePage (page : ℕ) : List UInt8 :=
  [idSignature, 0x04, UInt8.ofNat page, 0x00] ++ List.replicate 60 0x5a

/-- The console gives up its first nonce while it is being signed and sends a second;
then the first one's signature comes in. -/
def staleRun : List Act :=
  [.attach 0, .reply 0 (some [0xf3, 0x00, 0x38, 0x38, 0x00, 0x00, 0x00, 0x00]),
    .getReport idReset, .receive 0, .reply 0 (some [0xf3, 0x00, 0x38, 0x38])] ++
  passPage 1 0 ++ passPage 1 1 ++ passPage 1 2 ++ passPage 1 3 ++ passPage 1 4 ++
  [.reply 0 (some ([idState, 0x04, stateSigning] ++ List.replicate 13 0))] ++
  (.getReport idReset :: queuePage 2 0) ++ queuePage 2 1 ++ queuePage 2 2 ++ queuePage 2 3 ++
  queuePage 2 4 ++
  [.elapse 250, .timer 0, .reply 0 (some ([idState, 0x04, stateReady] ++ List.replicate 13 0))] ++
  (List.range 19).map (fun page => .reply 0 (some (signaturePage page)))

theorem stale_signature_offered :
    ((machine .wheel).run System.init staleRun).isSome = true ∧
      ¬ (machine .wheel).Along Ledger.watch SignatureFresh System.init Ledger.init staleRun := by
  decide +kernel

end WheelBridge.Auth
