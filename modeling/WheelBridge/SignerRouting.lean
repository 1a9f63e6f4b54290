import WheelBridge.NonceRounds

/-!
Which device the commands of a round go to. All devices that serve take from the one
queue, and entering `serve` clears it, so a round stays together only while a single
device serves. Whoever takes a command, it is taken once and in the order sent.
-/
namespace WheelBridge.Auth

/-- The ledger, and the devices in `serve` since the console began its round. -/
structure Routing where
  ledger : Ledger
  servers : List ℕ
  /-- Where the round begins in the log: at a GET F3, or at a page 0 without one. -/
  start : ℕ
  /-- The devices that have been in `serve` since then. -/
  party : List ℕ
  /-- The devices that have cleared the queue since then. -/
  clearedBy : List ℕ

namespace Routing

def init : Routing := ⟨Ledger.init, [], 0, [], []⟩

/-- The console begins a round. -/
def begin (m : Routing) (ledger : Ledger) : Routing :=
  { m with ledger := ledger, start := m.ledger.log.length, party := m.servers, clearedBy := [] }

def watch (m : Routing) (e : Effect) : Routing :=
  let ledger := m.ledger.watch e
  match e with
  | .resetRead => m.begin ledger
  | .nonceSet data =>
    if data[2]? = some 0 ∧ m.ledger.log.getLast? ≠ some .reset then m.begin ledger
    else { m with ledger := ledger }
  | .cleared i =>
    ⟨ledger, i :: m.servers, m.start, i :: m.party, i :: m.clearedBy⟩
  | .detached i => { m with ledger := ledger, servers := m.servers.filter (· ≠ i) }
  | _ => { m with ledger := ledger }

/-- The commands of the round that were taken. -/
def taken (m : Routing) : List ℕ :=
  (List.range m.ledger.log.length).filter fun j =>
    decide (m.start ≤ j) && (m.ledger.takenBy j).isSome

/-- They all went to one device. -/
def Together (m : Routing) : Prop :=
  ∀ j ∈ m.taken, ∀ l ∈ m.taken, m.ledger.takenBy j = m.ledger.takenBy l

/-- Where device `i` alone has been in `serve` since the round began, every command sent
in it went to `i`, is still queued or is lost, and nobody else cleared the queue. -/
def Kept (m : Routing) (sent i : ℕ) : Prop :=
  (∀ l ∈ m.party, l = i) →
    (∀ j < sent, m.start ≤ j →
      m.ledger.takenBy j = some i ∨
        m.ledger.takenBy j = none ∧ (j ∈ m.ledger.queue ∨ j ∈ m.ledger.lost)) ∧
    ∀ l ∈ m.clearedBy, l = i

instance (m : Routing) : Decidable m.Together :=
  inferInstanceAs (Decidable (∀ j ∈ m.taken, _))

end Routing

def RoundTogether (_ : System) (m : Routing) (es : List Effect) (_ : System) : Prop :=
  (es.foldl Routing.watch m).Together

instance (s : System) (m : Routing) (es : List Effect) (t : System) :
    Decidable (RoundTogether s m es t) :=
  inferInstanceAs (Decidable (Routing.Together _))

/-- A further device enters `serve` and removes commands of a round that another serves. -/
def Routing.Removes (m : Routing) : Effect → Prop
  | .cleared i => (∃ l ∈ m.party, l ≠ i) ∧ m.ledger.queue ≠ []
  | _ => False

def NothingRemoved (_ : System) (m : Routing) (es : List Effect) (_ : System) : Prop :=
  ∀ e ∈ es, ¬ m.Removes e

instance (m : Routing) (e : Effect) : Decidable (m.Removes e) :=
  match e with
  | .cleared _ => inferInstanceAs (Decidable (_ ∧ _))
  | .resetRead | .nonceSet _ | .answered _ _ | .queued _ | .dropped _ | .attached _
  | .detached _ | .received _ _ | .signer _ _ => isFalse id

instance (s : System) (m : Routing) (es : List Effect) (t : System) :
    Decidable (NothingRemoved s m es t) :=
  inferInstanceAs (Decidable (∀ e ∈ es, ¬ m.Removes e))

/-- A command that is taken is the oldest in the queue, was taken by nobody before, and
was sent after all that were; a round served by one device alone is kept by it. -/
def TakenInOrder (_ : System) (m : Routing) (es : List Effect) (t : System) : Prop :=
  (∀ i cmd, .received i cmd ∈ es → ∃ k rest, m.ledger.queue = k :: rest ∧
    m.ledger.log[k]? = some cmd ∧ ∀ j, m.ledger.takenBy j ≠ none → j < k) ∧
  ∀ i, (es.foldl Routing.watch m).Kept (t.sent (es.foldl Routing.watch m).ledger) i

theorem Routing.watch_ledger (es : List Effect) :
    ∀ m : Routing, (es.foldl watch m).ledger = es.foldl Ledger.watch m.ledger := by
  induction es with
  | nil => exact fun m => rfl
  | cons e es ih =>
    intro m
    rw [List.foldl_cons, List.foldl_cons, ih]
    have hledger : (m.watch e).ledger = m.ledger.watch e := by
      unfold watch
      dsimp only
      split
      · rfl
      · split <;> rfl
      all_goals rfl
    rw [hledger]

/-- In `serve`. -/
def Task.Serves (t : Task) : Prop := t = .receive ∨ t.Busy

/-- In the wheel role a task enters `serve` by clearing the queue. -/
theorem resume_serves {now : ℕ} {st : Statics} {t : Task} {e : Event} {r : Resumed}
    (h : resume .wheel now st t e = some r) (hr : r.2.1.Serves) :
    t.Serves ∨ .serve ∈ r.2.2 := by
  cases t with
  | receive => exact Or.inl (Or.inl rfl)
  | reset | setNonce | sign => exact Or.inl (Or.inr trivial)
  | probe attempt =>
    cases e with
    | reply b =>
      cases b with
      | some bytes =>
        cases h
        exact Or.inr (by simp [goOn])
      | none =>
        simp only [resume] at h
        split at h <;> cases h
        · rcases hr with hr | hr
          · cases hr
          · exact absurd hr id
        · rcases hr with hr | hr
          · cases hr
          · exact absurd hr id
    | command | timer => cases h
  | probePause attempt wake =>
    cases e with
    | timer =>
      simp only [resume] at h
      split at h <;> cases h
      rcases hr with hr | hr
      · cases hr
      · exact absurd hr id
    | command | reply => cases h
  | notSigner => cases e <;> cases h

/-- Who is in `serve` has been so since the round began, or entered it since; whoever
took a command of the round was among them. -/
structure Routed (s : System) (m : Routing) : Prop where
  servers : ∀ i t, s.signers i = some t → t.Serves → i ∈ m.servers
  party : ∀ i ∈ m.servers, i ∈ m.party
  taken : ∀ j i, m.start ≤ j → m.ledger.takenBy j = some i → i ∈ m.party
  cleared : ∀ i ∈ m.clearedBy, i ∈ m.party

/-- What a routing does not follow beyond its ledger. -/
def Effect.Routes : Effect → Prop
  | .resetRead | .nonceSet _ | .cleared _ | .detached _ => True
  | _ => False

theorem Routing.watch_rest (es : List Effect) (hes : ∀ e ∈ es, ¬ e.Routes) :
    ∀ m : Routing, es.foldl watch m = { m with ledger := es.foldl Ledger.watch m.ledger } := by
  induction es with
  | nil => exact fun m => rfl
  | cons e es ih =>
    intro m
    have he := hes e List.mem_cons_self
    have hstep : m.watch e = { m with ledger := m.ledger.watch e } := by
      cases e with
      | resetRead | nonceSet | cleared | detached => exact absurd trivial he
      | answered | queued | dropped | attached | received | signer => rfl
    rw [List.foldl_cons, hstep, ih fun x hx => hes x (List.mem_cons_of_mem e hx)]
    rfl

theorem send_routes {cmd : Cmd} {s t : System} {es : List Effect}
    (h : send cmd s = (t, es)) : (∀ e ∈ es, ¬ e.Routes) ∧ t.signers = s.signers ∧
      ∀ m : Ledger, (es.foldl Ledger.watch m).takenBy = m.takenBy := by
  unfold send at h
  split at h <;> cases h
  · refine ⟨?_, rfl, fun m => rfl⟩
    intro e he
    rw [List.mem_singleton.mp he]
    exact id
  · refine ⟨?_, rfl, fun m => rfl⟩
    intro e he
    rw [List.mem_singleton.mp he]
    exact id

namespace Routed

variable {s t : System} {m : Routing}

/-- Nobody has taken a command of a round that begins. -/
theorem begin (h : Routed s m) (ha : Agrees s m.ledger) (ledger : Ledger)
    (hledger : ledger.takenBy = m.ledger.takenBy) : Routed s (m.begin ledger) where
  servers := h.servers
  party _ hi := hi
  taken j i hj htaken := by
    change ledger.takenBy j = some i at htaken
    rw [hledger] at htaken
    have hlt := (ha.follows.taken_lt j (by simp [htaken])).1
    have hle := ha.follows.gone_le
    have hsent := ha.follows.sent_le
    change m.ledger.log.length ≤ j at hj
    omega
  cleared _ hi := absurd hi List.not_mem_nil

/-- The ledger goes on, taking nothing. -/
theorem ledger (h : Routed s m) (ledger : Ledger) (hsig : t.signers = s.signers)
    (hledger : ledger.takenBy = m.ledger.takenBy) :
    Routed t { m with ledger := ledger } where
  servers := by
    rw [hsig]
    exact h.servers
  party := h.party
  taken := by
    rw [hledger]
    exact h.taken
  cleared := h.cleared

/-- A task is put back, or started, that serves only if its device did. -/
theorem putTask (h : Routed s m) (i : ℕ) (task : Task) (st : Statics) (q : Channel Cmd cmdLen)
    (htask : task.Serves → i ∈ m.servers) :
    Routed { s with
      cmd := q, statics := st, signers := Function.update s.signers i (some task) } m where
  servers j u hj hu := by
    by_cases hij : j = i
    · subst j
      simp only [Function.update_self, Option.some.injEq] at hj
      subst u
      exact htask hu
    · simp only [Function.update_of_ne hij] at hj
      exact h.servers j u hj hu
  party := h.party
  taken := h.taken
  cleared := h.cleared

/-- A device enters `serve`. -/
theorem clear (h : Routed s m) (i : ℕ) (task : Task) (st : Statics) :
    Routed { s with
      cmd := Channel.empty, statics := st, signers := Function.update s.signers i (some task) }
      (m.watch (.cleared i)) where
  servers j u hj hu := by
    by_cases hij : j = i
    · exact hij ▸ List.mem_cons_self
    · simp only [Function.update_of_ne hij] at hj
      exact List.mem_cons_of_mem i (h.servers j u hj hu)
  party j hj := by
    rcases List.mem_cons.mp hj with rfl | hj
    · exact List.mem_cons_self
    · exact List.mem_cons_of_mem i (h.party j hj)
  taken j l hj htaken := List.mem_cons_of_mem i (h.taken j l hj htaken)
  cleared j hj := by
    rcases List.mem_cons.mp hj with rfl | hj
    · exact List.mem_cons_self
    · exact List.mem_cons_of_mem i (h.cleared j hj)

theorem detach (h : Routed s m) (i : ℕ) :
    Routed { s with signers := Function.update s.signers i none } (m.watch (.detached i)) where
  servers j u hj hu := by
    by_cases hij : j = i
    · subst j
      simp at hj
    · simp only [Function.update_of_ne hij] at hj
      simpa [Routing.watch, hij] using h.servers j u hj hu
  party j hj := h.party j (List.mem_filter.mp hj).1
  taken := h.taken
  cleared := h.cleared

/-- A device in `serve` takes a command. -/
theorem take (h : Routed s m) (i : ℕ) (cmd : Cmd) (hi : i ∈ m.servers) :
    Routed s { m with ledger := m.ledger.take i cmd } where
  servers := h.servers
  party := h.party
  taken j l hj htaken := by
    unfold Ledger.take at htaken
    split at htaken
    · exact h.taken j l hj htaken
    · next k rest hq =>
      by_cases hjk : j = k
      · subst hjk
        simp only [Function.update_self, Option.some.injEq] at htaken
        exact htaken ▸ h.party i hi
      · simp only [Function.update_of_ne hjk] at htaken
        exact h.taken j l hj htaken
  cleared := h.cleared

end Routed

/-- No signer effect takes a command. -/
theorem signer_takenBy (i : ℕ) (es : List SignerEffect) :
    ∀ m : Ledger, ((es.map (Effect.signer i)).foldl Ledger.watch m).takenBy = m.takenBy := by
  induction es with
  | nil => exact fun m => rfl
  | cons x es ih =>
    intro m
    rw [List.map_cons, List.foldl_cons, ih]
    cases x <;> rfl

theorem routed_woke {s : System} {m : Routing} (h : Routed s m) {i : ℕ} {t : Task} {e : Event}
    {r : Resumed} (hi : s.signers i = some t) (hr : resume .wheel s.now s.statics t e = some r) :
    Routed (settle i s r).1 ((settle i s r).2.foldl Routing.watch m) := by
  have hserves := resume_serves hr
  obtain ⟨st, task, es⟩ := r
  have hrest : ∀ fx ∈ es.map (Effect.signer i), ¬ fx.Routes := by
    intro fx hfx
    obtain ⟨x, -, rfl⟩ := List.mem_map.mp hfx
    exact id
  by_cases hserve : .serve ∈ es
  · simp only [settle, if_pos hserve, List.foldl_cons]
    rw [Routing.watch_rest _ hrest]
    exact (h.clear i task st).ledger _ rfl (signer_takenBy i es _)
  · rw [settle_plain i s st task es hserve]
    dsimp only
    rw [Routing.watch_rest _ hrest]
    have hput := h.putTask i task st s.cmd (by
      intro hs
      rcases hserves hs with ht | hmem
      · exact h.servers i t hi ht
      · exact absurd hmem hserve)
    exact hput.ledger _ rfl (signer_takenBy i es _)

/-- The devices in `serve` are followed through every step. -/
theorem routed_step {s t : System} {m : Routing} {es : List Effect} (h : Routed s m)
    (ha : Agrees s m.ledger) (hstep : Stepped .wheel s t es) :
    Routed t (es.foldl Routing.watch m) := by
  cases hstep with
  | elapse | read | ignored => exact h.ledger m.ledger rfl rfl
  | resetRead hidle t es hsend =>
    obtain ⟨hroutes, hsig, htaken⟩ := send_routes hsend
    have hrest : ∀ fx ∈ es ++ [.answered idReset (getReport idReset s.statics.state).2.2],
        ¬ fx.Routes := by
      intro fx hfx
      rcases List.mem_append.mp hfx with hfx | hfx
      · exact hroutes fx hfx
      · rw [List.mem_singleton.mp hfx]
        exact id
    rw [List.cons_append, List.foldl_cons, Routing.watch_rest _ hrest, List.foldl_append]
    exact (h.begin ha (m.ledger.watch .resetRead) rfl).ledger _ hsig (htaken _)
  | nonceSet data hidle =>
    simp only [List.foldl_cons, List.foldl_nil, Routing.watch]
    split
    · exact (h.begin ha (m.ledger.watch (.nonceSet data)) rfl).ledger _ rfl rfl
    · exact h.ledger (m.ledger.watch (.nonceSet data)) rfl rfl
  | send data hcon t es hsend =>
    obtain ⟨hroutes, hsig, htaken⟩ := send_routes hsend
    rw [Routing.watch_rest es hroutes]
    exact h.ledger _ hsig (htaken _)
  | attach i hi =>
    have hput := h.putTask i (.probe 1) s.statics s.cmd (by
      intro hs
      rcases hs with hs | hs
      · cases hs
      · exact absurd hs id)
    exact hput.ledger (m.ledger.watch (.attached i)) rfl rfl
  | detach i task hi => exact h.detach i
  | receive i cmd q hi hq =>
    have hmem := h.servers i _ hi (Or.inl rfl)
    have hput := (h.take i cmd hmem).putTask i (begin cmd s.statics).2
      (begin cmd s.statics).1 q fun _ => hmem
    have hrest : ∀ fx ∈ Effect.received i cmd ::
        ((begin cmd s.statics).2.transfer.map fun t => .signer i (.transfer t)).toList,
        ¬ fx.Routes := by
      intro fx hfx
      rcases List.mem_cons.mp hfx with rfl | hfx
      · exact id
      · simp only [Option.mem_toList, Option.map_eq_some_iff] at hfx
        obtain ⟨x, -, rfl⟩ := hfx
        exact id
    rw [Routing.watch_rest _ hrest, List.foldl_cons, watch_transfers]
    exact hput
  | woke i task e r hi he hr => exact routed_woke h hi hr

/-- What one device alone served is with it, in the queue or lost. -/
theorem Routed.kept {s : System} {m : Routing} (h : Routed s m)
    (hd : Delivered (s.sent m.ledger) s.statics.nonce m.ledger) (i : ℕ) :
    m.Kept (s.sent m.ledger) i := by
  intro hsole
  refine ⟨?_, fun l hl => hsole l (h.cleared l hl)⟩
  intro j hj hstart
  cases htaken : m.ledger.takenBy j with
  | some l =>
    have := hsole l (h.taken j l hstart htaken)
    exact Or.inl (by rw [this])
  | none =>
    rcases hd.accounted j hj with hq | hl | ht
    · exact Or.inr ⟨rfl, Or.inl hq⟩
    · exact Or.inr ⟨rfl, Or.inr hl⟩
    · exact absurd htaken ht

/-- The front of the queue is sent after everything that was taken. -/
theorem received_front {s t : System} {m : Ledger} {es : List Effect} {role : Role}
    (ha : Agrees s m) (hstep : Stepped role s t es) {i : ℕ} {cmd : Cmd}
    (hmem : .received i cmd ∈ es) : ∃ k rest, m.queue = k :: rest ∧ m.log[k]? = some cmd ∧
      ∀ j, m.takenBy j ≠ none → j < k := by
  cases hstep with
  | receive l c q hl hq =>
    have heq : i = l ∧ cmd = c := by
      rcases List.mem_cons.mp hmem with heq | hmem
      · cases heq
        exact ⟨rfl, rfl⟩
      · simp at hmem
    obtain ⟨rfl, rfl⟩ := heq
    obtain ⟨k, rest, hqueue, hk, -, -, htaken⟩ := ha.follows.front hq
    exact ⟨k, rest, hqueue, hk, htaken⟩
  | resetRead hidle t es hsend =>
    unfold send at hsend
    split at hsend <;> cases hsend <;> simp at hmem
  | send data hcon t es hsend =>
    unfold send at hsend
    split at hsend <;> cases hsend <;> simp at hmem
  | woke l task e r hl he hr =>
    obtain ⟨st, task', fx⟩ := r
    unfold settle at hmem
    dsimp only at hmem
    split at hmem <;> simp at hmem
  | elapse | read | ignored | nonceSet | attach | detach => simp at hmem

/-- In every run of the wheel role each command is taken at most once and in order, and a
round is kept together by a device that serves alone. -/
theorem taken_in_order (as : List Act) :
    (machine .wheel).Along Routing.watch TakenInOrder System.init Routing.init as := by
  apply Machine.along_always (fun s m => Agrees s m.ledger ∧
    Delivered (s.sent m.ledger) s.statics.nonce m.ledger ∧ Routed s m)
  · intro s m a es t hi h
    obtain ⟨ha, hd, hr⟩ := hi
    have ha' := agrees_step ha h
    have hd' := delivered_step ha hd (stepped h)
    rw [← Routing.watch_ledger] at ha' hd'
    have hr' := routed_step hr ha (stepped h)
    exact ⟨⟨ha', hd', hr'⟩, fun i cmd => received_front ha (stepped h), hr'.kept hd'⟩
  · refine ⟨agrees_init, delivered_init, ?_⟩
    exact
      { servers := fun _ _ hi => by simp [System.init] at hi
        party := fun _ hi => absurd hi List.not_mem_nil
        taken := fun _ _ _ ht => by cases ht
        cleared := fun _ hi => absurd hi List.not_mem_nil }

/-- A signer answers its F3. -/
def signerAnswers (i : ℕ) : List Act :=
  [.attach i, .reply i (some [0xf3, 0x00, 0x38, 0x38, 0x00, 0x00, 0x00, 0x00])]

/-- The first of two devices takes the reset and the second page 0. -/
def splitRun : List Act :=
  signerAnswers 0 ++ signerAnswers 1 ++ [.getReport idReset, .receive 0] ++ queuePage 1 0 ++
    [.receive 1]

/-- The second one comes when the first is busy with the reset and page 0 waits for it. -/
def removedRun : List Act :=
  signerAnswers 0 ++ [.getReport idReset, .receive 0] ++ queuePage 1 0 ++ signerAnswers 1

/-- A further signer takes a page of the round that another serves, and it removes one. -/
theorem further_signer_splits_round :
    ((machine .wheel).run System.init splitRun).isSome = true ∧
      ¬ (machine .wheel).Along Routing.watch RoundTogether System.init Routing.init splitRun ∧
      ((machine .wheel).run System.init removedRun).isSome = true ∧
      ¬ (machine .wheel).Along Routing.watch NothingRemoved System.init Routing.init
        removedRun := by
  decide +kernel

end WheelBridge.Auth
