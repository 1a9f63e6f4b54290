import WheelBridge.AuthSystem

/-!
The history of the authentication relay. Every GET F3 and SET F0 the console side
handles is entered in a log; the ledger follows the commands they send through the
queue to the device that takes them, by their places in the log. It is a fold over
the effects of the system and is read by no step of it.
-/
namespace WheelBridge.Auth

structure Ledger where
  /-- What the console's GET F3 and SET F0 asked for, in the order handled. -/
  log : List Cmd
  /-- The places in the log of the commands in `CMD`. -/
  queue : List ℕ
  /-- Past every command that was dropped or has left `CMD`. -/
  gone : ℕ
  /-- The commands dropped for want of room, or cleared. -/
  lost : List ℕ
  /-- The command each device took last. -/
  serving : ℕ → Option ℕ
  /-- The commands each device has taken since it was attached. -/
  given : ℕ → List ℕ
  /-- The device each command went to. -/
  takenBy : ℕ → Option ℕ
  /-- The whole report of each nonce page that a device took last. -/
  stored : Fin noncePages → Option ℕ
  /-- The command whose signing run made the cached signature. -/
  origin : Option ℕ

namespace Ledger

def init : Ledger where
  log := []
  queue := []
  gone := 0
  lost := []
  serving := fun _ => none
  given := fun _ => []
  takenBy := fun _ => none
  stored := fun _ => none
  origin := none

/-- The nonce page a whole F0 report carries. -/
def wholePage : Cmd → Option (Fin noncePages)
  | .reset => none
  | .nonce page =>
    match pageOf page with
    | none => none
    | some n =>
      if h : n.toNat < noncePages then
        if page.bytes.length = nonceLen then some ⟨n.toNat, h⟩ else none
      else none

/-- Device `i` takes the command in front of the queue. -/
def take (m : Ledger) (i : ℕ) (cmd : Cmd) : Ledger :=
  match m.queue with
  | [] => m
  | k :: rest =>
    { m with
      queue := rest
      gone := max m.gone (k + 1)
      serving := Function.update m.serving i (some k)
      given := Function.update m.given i (m.given i ++ [k])
      takenBy := Function.update m.takenBy k (some i)
      stored :=
        match wholePage cmd with
        | none => m.stored
        | some p => Function.update m.stored p (some k) }

def watch (m : Ledger) : Effect → Ledger
  | .resetRead => { m with log := m.log ++ [.reset] }
  | .nonceSet data => { m with log := m.log ++ [.nonce (Packet.new data)] }
  | .queued _ => { m with queue := m.queue ++ [m.log.length - 1] }
  | .dropped _ => { m with gone := m.log.length, lost := m.lost ++ [m.log.length - 1] }
  | .cleared _ =>
    { m with
      queue := []
      gone := max m.gone ((m.queue.getLast?.map (· + 1)).getD 0)
      lost := m.lost ++ m.queue }
  | .attached i => { m with given := Function.update m.given i [] }
  | .received i cmd => m.take i cmd
  | .signer i .publish => { m with origin := m.serving i }
  | _ => m

@[simp]
theorem watch_resetRead (m : Ledger) :
    m.watch .resetRead = { m with log := m.log ++ [.reset] } := rfl

@[simp]
theorem watch_nonceSet (m : Ledger) (data : List UInt8) :
    m.watch (.nonceSet data) = { m with log := m.log ++ [.nonce (Packet.new data)] } := rfl

@[simp]
theorem watch_queued (m : Ledger) (cmd : Cmd) :
    m.watch (.queued cmd) = { m with queue := m.queue ++ [m.log.length - 1] } := rfl

@[simp]
theorem watch_dropped (m : Ledger) (cmd : Cmd) :
    m.watch (.dropped cmd) =
      { m with gone := m.log.length, lost := m.lost ++ [m.log.length - 1] } := rfl

@[simp]
theorem watch_answered (m : Ledger) (id : UInt8) (report : Option (List UInt8)) :
    m.watch (.answered id report) = m := rfl

@[simp]
theorem watch_received (m : Ledger) (i : ℕ) (cmd : Cmd) :
    m.watch (.received i cmd) = m.take i cmd := rfl

@[simp]
theorem watch_publish (m : Ledger) (i : ℕ) :
    m.watch (.signer i .publish) = { m with origin := m.serving i } := rfl

theorem take_cons {m : Ledger} {k : ℕ} {rest : List ℕ} (h : m.queue = k :: rest) (i : ℕ)
    (cmd : Cmd) :
    m.take i cmd = { m with
      queue := rest
      gone := max m.gone (k + 1)
      serving := Function.update m.serving i (some k)
      given := Function.update m.given i (m.given i ++ [k])
      takenBy := Function.update m.takenBy k (some i)
      stored := (m.take i cmd).stored } := by
  unfold take
  rw [h]

@[simp]
theorem take_log (m : Ledger) (i : ℕ) (cmd : Cmd) : (m.take i cmd).log = m.log := by
  unfold take
  split <;> rfl

@[simp]
theorem take_origin (m : Ledger) (i : ℕ) (cmd : Cmd) : (m.take i cmd).origin = m.origin := by
  unfold take
  split <;> rfl

/-- Nothing a signer does but publishing enters the ledger. -/
theorem watch_signer (m : Ledger) (i : ℕ) (es : List SignerEffect) (hes : .publish ∉ es) :
    (es.map (Effect.signer i)).foldl watch m = m := by
  induction es with
  | nil => rfl
  | cons e es ih =>
    have he : m.watch (.signer i e) = m := by
      cases e with
      | publish => exact absurd List.mem_cons_self hes
      | transfer | serve | pageSent | sign | copyNonce => rfl
    rw [List.map_cons, List.foldl_cons, he]
    exact ih fun h => hes (List.mem_cons_of_mem _ h)

end Ledger

/-- The ledger follows the system while `sent` commands have been handed to `send`. -/
structure Follows (sent : ℕ) (s : System) (m : Ledger) : Prop where
  items : s.cmd.items.map some = m.queue.map fun k => m.log[k]?
  sorted : m.queue.Pairwise (· < ·)
  queue_lt : ∀ k ∈ m.queue, k < sent
  sent_le : sent ≤ m.log.length
  /-- What was taken was sent before all that is queued. -/
  taken_lt : ∀ j, m.takenBy j ≠ none → j < m.gone ∧ ∀ k ∈ m.queue, j < k
  gone_le : m.gone ≤ sent
  /-- The last command sent is in the queue, or gone. -/
  last : m.gone < sent → m.queue.getLast? = some (sent - 1)
  /-- A busy task acts on the command its device took last. -/
  busy : ∀ i t, s.signers i = some t → t.Busy →
    ∃ k cmd, m.serving i = some k ∧ m.takenBy k = some i ∧ k ∈ m.given i ∧
      m.log[k]? = some cmd ∧ t.Handles cmd

namespace Follows

variable {sent : ℕ} {s t : System} {m : Ledger}

/-- The signers' tasks and what was given to them may change, as long as every busy task
still acts on the command its device took last. -/
theorem replace (h : Follows sent s m) (hcmd : t.cmd = s.cmd) (given : ℕ → List ℕ)
    (hbusy : ∀ i u, t.signers i = some u → u.Busy →
      ∃ k cmd, m.serving i = some k ∧ m.takenBy k = some i ∧ k ∈ given i ∧
        m.log[k]? = some cmd ∧ u.Handles cmd) :
    Follows sent t { m with given := given } where
  items := by rw [hcmd]; exact h.items
  sorted := h.sorted
  queue_lt := h.queue_lt
  sent_le := h.sent_le
  taken_lt := h.taken_lt
  gone_le := h.gone_le
  last := h.last
  busy := hbusy

theorem congr (h : Follows sent s m) (hcmd : t.cmd = s.cmd) (hsig : t.signers = s.signers) :
    Follows sent t m := by
  refine h.replace hcmd m.given ?_
  rw [hsig]
  exact h.busy

/-- A command is entered in the log before it is sent. -/
theorem enter (h : Follows m.log.length s m) (cmd : Cmd) :
    Follows m.log.length s { m with log := m.log ++ [cmd] } where
  items := by
    rw [h.items]
    apply List.map_congr_left
    intro k hk
    exact (List.getElem?_append_left (h.queue_lt k hk)).symm
  sorted := h.sorted
  queue_lt := h.queue_lt
  sent_le := by simp
  taken_lt := h.taken_lt
  gone_le := h.gone_le
  last := h.last
  busy i t hi ht := by
    obtain ⟨k, c, hs, htk, hg, hl, hh⟩ := h.busy i t hi ht
    obtain ⟨hk, -⟩ := List.getElem?_eq_some_iff.mp hl
    exact ⟨k, c, hs, htk, hg, by rw [List.getElem?_append_left hk, hl], hh⟩

/-- `send` puts the newest command of the log at the end of the queue, or drops it. -/
theorem send (h : Follows sent s m) (hlen : m.log.length = sent + 1) {cmd : Cmd}
    (hcmd : m.log[sent]? = some cmd) {es : List Effect} (hsend : send cmd s = (t, es)) :
    Follows (sent + 1) t (es.foldl Ledger.watch m) ∧
      (es.foldl Ledger.watch m).log = m.log ∧ (es.foldl Ledger.watch m).origin = m.origin ∧
      t.statics = s.statics ∧ t.console = s.console := by
  unfold Auth.send at hsend
  cases hq : s.cmd.trySend cmd with
  | none =>
    rw [hq] at hsend
    obtain ⟨rfl, rfl⟩ := Prod.mk.inj hsend
    refine ⟨?_, rfl, rfl, rfl, rfl⟩
    simp only [List.foldl_cons, List.foldl_nil, Ledger.watch_dropped, hlen]
    exact
      { items := h.items
        sorted := h.sorted
        queue_lt := fun k hk => Nat.lt_succ_of_lt (h.queue_lt k hk)
        sent_le := Nat.le_of_eq hlen.symm
        taken_lt := fun j hj =>
          ⟨Nat.lt_succ_of_lt (Nat.lt_of_lt_of_le (h.taken_lt j hj).1 h.gone_le),
            (h.taken_lt j hj).2⟩
        gone_le := Nat.le_refl _
        last := fun hlt => absurd hlt (Nat.lt_irrefl _)
        busy := h.busy }
  | some q =>
    rw [hq] at hsend
    obtain ⟨rfl, rfl⟩ := Prod.mk.inj hsend
    refine ⟨?_, rfl, rfl, rfl, rfl⟩
    obtain ⟨-, hitems⟩ := Channel.trySend_eq_some.mp hq
    simp only [List.foldl_cons, List.foldl_nil, Ledger.watch_queued, hlen, Nat.add_sub_cancel]
    exact
      { items := by
          rw [hitems, List.map_append, List.map_append, h.items]
          simp only [List.map_cons, List.map_nil, hcmd]
        sorted := by
          rw [List.pairwise_append]
          refine ⟨h.sorted, List.pairwise_singleton .., ?_⟩
          intro a ha b hb
          rw [List.mem_singleton.mp hb]
          exact h.queue_lt a ha
        queue_lt := by
          intro k hk
          rcases List.mem_append.mp hk with hk | hk
          · exact Nat.lt_succ_of_lt (h.queue_lt k hk)
          · rw [List.mem_singleton.mp hk]
            exact Nat.lt_succ_self sent
        sent_le := Nat.le_of_eq hlen.symm
        taken_lt := by
          intro j hj
          obtain ⟨hgone, hlt⟩ := h.taken_lt j hj
          refine ⟨hgone, ?_⟩
          intro k hk
          rcases List.mem_append.mp hk with hk | hk
          · exact hlt k hk
          · rw [List.mem_singleton.mp hk]
            exact Nat.lt_of_lt_of_le hgone h.gone_le
        gone_le := Nat.le_succ_of_le h.gone_le
        last := fun _ => by simp
        busy := h.busy }

/-- A task that is not busy, or goes on with its command, may be put in any place. -/
theorem putTask (h : Follows sent s m) (i : ℕ) (task : Task) (st : Statics)
    (htask : task.Busy → ∃ t, s.signers i = some t ∧ t.Busy ∧
      ∀ cmd, t.Handles cmd → task.Handles cmd) :
    Follows sent
      { s with statics := st, signers := Function.update s.signers i (some task) } m := by
  apply h.replace (by rfl) m.given
  intro j u hj hu
  by_cases hij : j = i
  · subst j
    simp only [Function.update_self, Option.some.injEq] at hj
    subst u
    obtain ⟨t, ht, hbusy, hgo⟩ := htask hu
    obtain ⟨k, c, hs, htk, hg, hl, hh⟩ := h.busy i t ht hbusy
    exact ⟨k, c, hs, htk, hg, hl, hgo c hh⟩
  · simp only [Function.update_of_ne hij] at hj
    exact h.busy j u hj hu

/-- Entering `serve` clears the queue. -/
theorem clear (h : Follows sent s m) (i : ℕ) :
    Follows sent { s with cmd := Channel.empty } (m.watch (.cleared i)) := by
  have hgone : sent ≤ max m.gone ((m.queue.getLast?.map (· + 1)).getD 0) ∧
      max m.gone ((m.queue.getLast?.map (· + 1)).getD 0) ≤ sent := by
    have hle := h.gone_le
    by_cases hlt : m.gone < sent
    · rw [h.last hlt]
      simp only [Option.map_some, Option.getD_some]
      omega
    · cases hq : m.queue.getLast? with
      | none =>
        simp only [Option.map_none, Option.getD_none]
        omega
      | some k =>
        have := h.queue_lt k (List.mem_of_getLast? hq)
        simp only [Option.map_some, Option.getD_some]
        omega
  exact
    { items := rfl
      sorted := List.Pairwise.nil
      queue_lt := fun k hk => absurd hk List.not_mem_nil
      sent_le := h.sent_le
      taken_lt := fun j hj => ⟨Nat.lt_of_lt_of_le (h.taken_lt j hj).1 (Nat.le_max_left ..),
        fun k hk => absurd hk List.not_mem_nil⟩
      gone_le := hgone.2
      last := fun hlt => absurd hlt (Nat.not_lt.mpr hgone.1)
      busy := h.busy }

/-- The command in front of the queue was sent after all that was taken. -/
theorem front (h : Follows sent s m) {cmd : Cmd} {q : Channel Cmd cmdLen}
    (hq : s.cmd.receive = some (cmd, q)) :
    ∃ k rest, m.queue = k :: rest ∧ m.log[k]? = some cmd ∧
      q.items.map some = rest.map (fun j => m.log[j]?) ∧ (∀ j ∈ rest, k < j) ∧
      ∀ j, m.takenBy j ≠ none → j < k := by
  have hitems := h.items
  rw [Channel.receive_eq_some.mp hq] at hitems
  cases hqueue : m.queue with
  | nil => simp [hqueue] at hitems
  | cons k rest =>
    rw [hqueue, List.map_cons, List.map_cons, List.cons.injEq] at hitems
    obtain ⟨hk, hrest⟩ := hitems
    have hsorted := h.sorted
    rw [hqueue, List.pairwise_cons] at hsorted
    have hkq : k ∈ m.queue := by
      rw [hqueue]
      exact List.mem_cons_self
    exact ⟨k, rest, rfl, hk.symm, hrest, hsorted.1, fun j hj => (h.taken_lt j hj).2 k hkq⟩

/-- Device `i` takes the command in front and begins to handle it. -/
theorem take (h : Follows sent s m) (i : ℕ) {cmd : Cmd} {q : Channel Cmd cmdLen}
    (hq : s.cmd.receive = some (cmd, q)) (task : Task) (st : Statics)
    (htask : task.Handles cmd) :
    Follows sent
      { s with cmd := q, statics := st, signers := Function.update s.signers i (some task) }
      (m.take i cmd) := by
  obtain ⟨k, rest, hqueue, hk, hrest, hlt, htaken⟩ := h.front hq
  have hsorted := h.sorted
  have hqlt := h.queue_lt
  have hgone := h.gone_le
  have hlast := h.last
  rw [hqueue] at hsorted hqlt hlast
  have hklt : k < sent := hqlt k List.mem_cons_self
  rw [Ledger.take_cons hqueue]
  exact
    { items := hrest
      sorted := hsorted.of_cons
      queue_lt := fun j hj => hqlt j (List.mem_cons_of_mem k hj)
      sent_le := h.sent_le
      taken_lt := by
        intro j hj
        by_cases hjk : j = k
        · subst j
          exact ⟨by simp only; omega, hlt⟩
        · simp only [Function.update_of_ne hjk] at hj
          have hjk := htaken j hj
          exact ⟨by simp only; omega, fun l hl => Nat.lt_trans hjk (hlt l hl)⟩
      gone_le := by simp only; omega
      last := by
        intro hs
        simp only at hs
        have hlast := hlast (by omega)
        cases rest with
        | nil =>
          simp only [List.getLast?_singleton, Option.some.injEq] at hlast
          omega
        | cons l rest => rwa [List.getLast?_cons_cons] at hlast
      busy := by
        intro j u hj hu
        by_cases hij : j = i
        · subst j
          simp only [Function.update_self, Option.some.injEq] at hj
          subst u
          exact ⟨k, cmd, by simp, by simp, by simp, hk, htask⟩
        · simp only [Function.update_of_ne hij] at hj
          obtain ⟨l, c, hs, htk, hg, hl, hh⟩ := h.busy j u hj hu
          have hlk : l ≠ k := Nat.ne_of_lt (htaken l (by simp [htk]))
          exact ⟨l, c, by simp [Function.update_of_ne hij, hs],
            by simp [Function.update_of_ne hlk, htk],
            by simp [Function.update_of_ne hij, hg], hl, hh⟩ }

/-- A device is attached: nothing has been given to it yet. -/
theorem attach (h : Follows sent s m) (i : ℕ) :
    Follows sent { s with signers := Function.update s.signers i (some (.probe 1)) }
      (m.watch (.attached i)) := by
  apply h.replace (by rfl) (Function.update m.given i [])
  intro j u hj hu
  by_cases hij : j = i
  · subst j
    simp only [Function.update_self, Option.some.injEq] at hj
    subst u
    exact absurd hu id
  · simp only [Function.update_of_ne hij] at hj
    obtain ⟨k, c, hs, htk, hg, hl, hh⟩ := h.busy j u hj hu
    exact ⟨k, c, hs, htk, by simpa [Ledger.watch, Function.update_of_ne hij] using hg, hl, hh⟩

theorem detach (h : Follows sent s m) (i : ℕ) :
    Follows sent { s with signers := Function.update s.signers i none } m := by
  apply h.replace (by rfl) m.given
  intro j u hj hu
  by_cases hij : j = i
  · subst j
    simp at hj
  · simp only [Function.update_of_ne hij] at hj
    exact h.busy j u hj hu

end Follows

/-- The commands the console side has sent: all it handled but the one in hand. -/
def System.sent (s : System) (m : Ledger) : ℕ :=
  match s.console with
  | .idle => m.log.length
  | .sending _ => m.log.length - 1

/-- The ledger and the system agree. -/
structure Agrees (s : System) (m : Ledger) : Prop where
  follows : Follows (s.sent m) s m
  sending : ∀ data, s.console = .sending data →
    m.log.getLast? = some (.nonce (Packet.new data))

theorem agrees_init : Agrees System.init Ledger.init where
  follows :=
    { items := rfl
      sorted := List.Pairwise.nil
      queue_lt := fun _ hk => absurd hk List.not_mem_nil
      sent_le := Nat.le_refl _
      taken_lt := fun _ hj => absurd rfl hj
      gone_le := Nat.le_refl _
      last := fun hlt => absurd hlt (Nat.lt_irrefl 0)
      busy := fun _ _ hi => by simp [System.init] at hi }
  sending := fun _ h => by simp [System.init] at h

/-- A transfer issued by a device does not enter the ledger. -/
theorem watch_transfers (m : Ledger) (i : ℕ) (t : Option Transfer) :
    ((t.map fun t => Effect.signer i (.transfer t)).toList).foldl Ledger.watch m = m := by
  cases t <;> rfl

/-- The new task of a device that was resumed goes on with the same command. -/
theorem Outcome.keeps {now : ℕ} {st : Statics} {t : Task} {e : Event} {r : Resumed}
    (h : Outcome now st t e r) (he : ∀ cmd, e ≠ .command cmd) :
    r.2.1.Busy → t.Busy ∧ ∀ cmd, t.Handles cmd → r.2.1.Handles cmd := by
  intro hbusy
  cases h with
  | probed => exact absurd hbusy id
  | probing t e t' ht ht' => exact absurd hbusy ht'
  | reset => exact absurd rfl (he .reset)
  | nonce page => exact absurd rfl (he (.nonce page))
  | resetDone => exact absurd hbusy id
  | pageDone => exact absurd hbusy id
  | signs page r st' resend hf =>
    refine ⟨trivial, ?_⟩
    intro cmd hcmd
    subst hcmd
    obtain ⟨step, hstep⟩ := sign_eq resend now
    simp only [goOn, hstep]
    exact (finishPage_spec hf).2.2 (by simp)
  | signing attempt step e r hres hr =>
    refine ⟨trivial, ?_⟩
    intro cmd hcmd
    cases hr with
    | returned => exact absurd hbusy id
    | ongoing => cases cmd <;> exact hcmd
    | published => exact absurd hbusy id

/-- A resumed task publishes as the last thing `sign` does, or not at all. -/
theorem Outcome.effects {now : ℕ} {st : Statics} {t : Task} {e : Event} {r : Resumed}
    (h : Outcome now st t e r) :
    (.publish ∉ r.2.2 ∧ (r.1.state.ready = st.state.ready)) ∨
      (.serve ∉ r.2.2 ∧ r.2.2 = [.publish] ∧ r.1.state.ready = true ∧
        ∃ attempt step, t = .sign attempt step) := by
  cases h with
  | probed attempt e reset es hes =>
    left
    rcases hes with rfl | rfl <;> simp
  | probing t e t' => exact Or.inl ⟨(plain_goOn st t').2.1, rfl⟩
  | reset => exact Or.inl ⟨by simp [goOn, Task.transfer], rfl⟩
  | nonce page => exact Or.inl ⟨by simp [goOn, Task.transfer], by simp [goOn]⟩
  | resetDone => exact Or.inl ⟨by simp, rfl⟩
  | pageDone page r st' hf => exact Or.inl ⟨by simp, by rw [(finishPage_spec hf).1]⟩
  | signs page r st' resend hf =>
    refine Or.inl ⟨?_, by simp only [goOn, (finishPage_spec hf).1]⟩
    simp [goOn]
  | signing attempt step e r hres hr =>
    cases hr with
    | returned => exact Or.inl ⟨by simp, rfl⟩
    | ongoing attempt step es hes => exact Or.inl ⟨hes.2.1, rfl⟩
    | published poll pages => exact Or.inr ⟨by simp, rfl, rfl, attempt, step, rfl⟩

theorem agrees_woke {s : System} {m : Ledger} (h : Agrees s m) {i : ℕ} {t : Task} {e : Event}
    {r : Resumed} (hi : s.signers i = some t) (he : ∀ cmd, e ≠ .command cmd)
    (hr : Outcome s.now s.statics t e r) :
    Agrees (settle i s r).1 ((settle i s r).2.foldl Ledger.watch m) := by
  obtain ⟨st, task, es⟩ := r
  have hput := h.follows.putTask i task st fun hb =>
    ⟨t, hi, (hr.keeps he hb).1, (hr.keeps he hb).2⟩
  rcases hr.effects with ⟨hpub, -⟩ | ⟨hserve, rfl, -⟩
  · by_cases hserve : .serve ∈ es
    · simp only [settle, if_pos hserve, List.foldl_cons]
      rw [Ledger.watch_signer _ i es hpub]
      exact ⟨hput.clear i, h.sending⟩
    · rw [settle_plain i s st task es hserve]
      simp only [Ledger.watch_signer m i es hpub]
      exact ⟨hput, h.sending⟩
  · rw [settle_plain i s st task _ hserve]
    exact
      { follows := { hput with }
        sending := h.sending }

theorem agrees_step {role : Role} {s t : System} {m : Ledger} {a : Act} {es : List Effect}
    (h : Agrees s m) (hstep : (machine role).step s a = some (t, es)) :
    Agrees t (es.foldl Ledger.watch m) := by
  cases stepped hstep with
  | elapse ms => exact ⟨h.follows.congr rfl rfl, h.sending⟩
  | read id hid hidle => exact ⟨h.follows.congr rfl rfl, h.sending⟩
  | resetRead hidle t es hsend =>
    have hf := h.follows
    simp only [System.sent, hidle] at hf
    have hin := (hf.enter .reset).congr (t := { s with statics := { s.statics with
      state := (getReport idReset s.statics.state).1 } }) rfl rfl
    obtain ⟨hq, hlog, -, -, hcon⟩ := hin.send (by simp) (by simp) hsend
    rw [List.cons_append, List.foldl_cons, List.foldl_append]
    simp only [Ledger.watch_resetRead, List.foldl_cons, List.foldl_nil, Ledger.watch_answered]
    have hidle' : t.console = .idle := hcon.trans hidle
    refine ⟨?_, fun data hd => by simp [hidle'] at hd⟩
    simp only [System.sent, hidle', hlog, List.length_append, List.length_singleton]
    exact hq
  | ignored => exact h
  | nonceSet data hidle =>
    have hf := h.follows
    simp only [System.sent, hidle] at hf
    refine ⟨?_, ?_⟩
    · simp only [List.foldl_cons, List.foldl_nil, Ledger.watch_nonceSet, System.sent,
        List.length_append, List.length_singleton, Nat.add_sub_cancel]
      exact (hf.enter _).congr rfl rfl
    · intro d hd
      cases hd
      simp
  | send data hcon t es hsend =>
    have hf := h.follows
    have hlast := h.sending data hcon
    simp only [System.sent, hcon] at hf
    have hpos : 0 < m.log.length := by
      cases hl : m.log with
      | nil => simp [hl] at hlast
      | cons => simp
    have hidle := hf.congr (t := { s with console := .idle }) rfl rfl
    obtain ⟨hq, hlog, -, -, hcon'⟩ := hidle.send (by omega)
      (by rw [List.getLast?_eq_getElem?] at hlast; exact hlast) hsend
    refine ⟨?_, fun d hd => by simp [hcon'] at hd⟩
    simp only [System.sent, hcon', hlog]
    rwa [Nat.sub_add_cancel hpos] at hq
  | attach i hi => exact ⟨h.follows.attach i, h.sending⟩
  | detach i task hi => exact ⟨h.follows.detach i, h.sending⟩
  | receive i cmd q hi hq =>
    rw [List.foldl_cons, watch_transfers, Ledger.watch_received]
    have htake := h.follows.take i hq (begin cmd s.statics).2 (begin cmd s.statics).1
      (begin_handles cmd s.statics)
    refine ⟨?_, ?_⟩
    · simp only [System.sent, Ledger.take_log]
      exact htake
    · rw [Ledger.take_log]
      exact h.sending
  | woke i task e r hi he hr => exact agrees_woke h hi he (resume_outcome hr)

/-- An F0 report: page `page` of the nonce with ID `id`. -/
def nonceReport (id page : UInt8) : List UInt8 :=
  [idNonce, id, page, 0x00] ++ List.replicate 60 page

/-- A page the console sends. -/
def queuePage (id page : UInt8) : List Act :=
  [.setReport idNonce (nonceReport id page), .send]

end WheelBridge.Auth
