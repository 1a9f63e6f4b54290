import WheelBridge.AuthLedger
import WheelBridge.Ownership
import WheelBridge.SignDiscipline

/-!
The law of signing along the runs of the whole relay. In every run each device's line
tells where its task stands, so what a signer is sent is in order with its call, and the
cache is written by a publication of the pages just read or not at all.
-/
namespace WheelBridge.Auth

/-- The call of device `i` ends with the publication of the pages it has read, as they
were read but for the nonce id. -/
def Publishes (s : System) (m : Lines) (es : List (Act ⊕ Effect)) (t : System) (i : ℕ) : Prop :=
  ∃ a c, es = [.inl a, .inr (.signer i .publish)] ∧ t.signers i = some .receive ∧
    ((m.watch (.inl a)).line i).call = some c ∧ c.Complete ∧
    t.statics.state = publish (stateBuffer (pollsBefore c.trace))
      (fun k => pageBuffer (readsOf c.trace) k) s.statics.state

/-- A device that handles a command goes on. -/
def Handling (s : System) (i : ℕ) (es : List (Act ⊕ Effect)) : Prop :=
  (∃ t, s.signers i = some t ∧ t.Busy) ∧ (.inl (.timer i) ∈ es ∨ ∃ r, .inl (.reply i r) ∈ es)

def InOrder (m : Lines) : Act ⊕ Effect → Prop
  | .inr (.signer i e) => (m.line i).InOrder e
  | _ => True

/-- What is sent to each signer is in order with its call, and a step of a device that
handles a command publishes what it has read, or leaves `STATE` as it is. -/
def Disciplined (s : System) (m : Lines) (es : List (Act ⊕ Effect)) (t : System) : Prop :=
  Each Lines.watch InOrder m es ∧
    ∀ i, Handling s i es → t.statics.state = s.statics.state ∨ Publishes s m es t i

/-- Every line tells what its device does. -/
structure Tells (s : System) (m : Lines) : Prop where
  now : m.now = s.now
  nonce : m.nonce = s.statics.nonce
  traced : ∀ i t, s.signers i = some t → t.Traced (m.line i)

/-- A task outside `sign` goes on to its next await. -/
theorem traced_goOn {now : ℕ} {nonce : Fin noncePages → Bytes nonceLen} {st : Statics} {l : Line}
    (hp : l.pending = none) (hc : l.call = none) {t : Task}
    (ht : ∀ attempt step, t ≠ .sign attempt step) :
    Each (Line.watch now nonce) Line.InOrder l (goOn st t []).2.2 ∧
      t.Traced ((goOn st t []).2.2.foldl (Line.watch now nonce) l) := by
  unfold goOn
  dsimp only
  cases hx : t.transfer with
  | none =>
    refine ⟨trivial, ?_, fun attempt step heq => absurd heq (ht attempt step), fun _ _ => hc⟩
    simp [hp, hx]
  | some x =>
    refine ⟨⟨?_, trivial⟩, ?_, fun attempt step heq => absurd heq (ht attempt step), fun _ _ => hc⟩
    · intro c h
      rw [hc] at h
      cases h
    · simp [Line.watch, hx]

theorem ended_call (now : ℕ) (r : Option (List UInt8)) {l : Line} (hc : l.call = none) :
    (l.ended now r).call = none := by
  unfold Line.ended
  split
  · exact hc
  · simp [hc]

/-- `sign` begins. -/
theorem sign_traced (now : ℕ) (st : Statics) {l : Line} (hp : l.pending = none)
    (accepted resend : Bool) :
    Each (Line.watch now st.nonce) Line.InOrder l
        (goOn st (sign resend now) [.pageSent accepted, .sign resend]).2.2 ∧
      (sign resend now).Traced
        ((goOn st (sign resend now) [.pageSent accepted, .sign resend]).2.2.foldl
          (Line.watch now st.nonce) l) := by
  have hbetween : (Call.mk resend st.nonce []).Between 1 := ⟨rfl, rfl⟩
  cases resend with
  | true =>
    refine ⟨⟨trivial, trivial, trivial⟩, .of_sign ?_ rfl (by decide) hbetween⟩
    exact congrArg (Option.map Prod.fst) hp
  | false =>
    refine ⟨⟨trivial, trivial, ?_, trivial⟩,
      .of_sign rfl rfl (by decide) (Or.inr ⟨hbetween, rfl⟩)⟩
    intro c hc
    cases hc
    refine (hbetween.mayPoll (by decide) ?_).mayIssue stateLen
    intro hagain
    rcases hagain with hagain | hagain <;> cases hagain

theorem resume_traced {role : Role} {now : ℕ} {st : Statics} {t : Task} {e : Event}
    {r : Resumed} (h : resume role now st t e = some r) (he : ∀ cmd, e ≠ .command cmd) {l : Line}
    (hl : t.Traced l) :
    Each (Line.watch now st.nonce) Line.InOrder (l.resumed now e) r.2.2 ∧
      r.2.1.Traced (r.2.2.foldl (Line.watch now st.nonce) (l.resumed now e)) := by
  have hended : ∀ r, (l.ended now r).pending = none := fun r => Line.ended_pending now r l
  unfold resume at h
  split at h
  · cases h
    split
    · exact ⟨⟨trivial, trivial⟩, .receive (hended _)⟩
    · exact ⟨trivial, .receive (hended _)⟩
  · have hcall := ended_call now none (hl.other (by simp) (by simp))
    split at h <;> cases h
    · exact traced_goOn (hended none) hcall (by simp)
    · refine traced_goOn (hended none) hcall ?_
      intro attempt step
      split <;> simp
  · split at h <;> cases h
    refine traced_goOn ?_ (hl.other (by simp) (by simp)) (by simp)
    simpa [Task.transfer] using hl.pending
  · exact absurd rfl (he _)
  · exact absurd rfl (he _)
  · cases h
    exact ⟨trivial, .receive (hended _)⟩
  · next page r =>
    have hcall := ended_call now r (hl.other (by simp) (by simp))
    split at h
    · cases h
      exact ⟨⟨trivial, trivial⟩, .receive (hended _)⟩
    · next st' resend hf =>
      cases h
      have hnonce := (finishPage_spec hf).2.1
      have hsign := sign_traced now st' (hended r) r.isSome resend
      rw [hnonce] at hsign
      exact hsign
  · exact (resumeSign_stepped h).traced hl
  · cases h

/-- The reply that ends a call: what it has read is published. -/
def Publication (now : ℕ) (st : Statics) (l : Line) (e : Event) (r : Resumed) : Prop :=
  r.2.1 = .receive ∧ r.2.2 = [.publish] ∧
    ∃ bytes c, e = .reply (some bytes) ∧ (l.ended now (some bytes)).call = some c ∧ c.Complete ∧
      r.1.state = publish (stateBuffer (pollsBefore c.trace))
        (fun k => pageBuffer (readsOf c.trace) k) st.state

/-- An await of `sign` leaves `STATE` as it is, or ends with the publication of what was
read. -/
theorem SignStepped.writes {now : ℕ} {st : Statics} {attempt : ℕ} {step : SignStep} {e : Event}
    {r : Resumed} (h : SignStepped now st attempt step e r) {l : Line}
    (hl : (Task.sign attempt step).Traced l) :
    .publish ∉ r.2.2 ∧ r.1.state = st.state ∨ Publication now st l e r := by
  obtain ⟨c, hc, hle, htraced⟩ := hl.signing attempt step rfl
  cases h with
  | published poll pages i bytes hpage hi =>
    right
    obtain ⟨issued, hp⟩ := hl.under_way (x := .get idSignature signatureLen) rfl
    have hreading := Call.Reading.last htraced
      (x := ⟨.get idSignature signatureLen, issued, some bytes, now⟩) rfl rfl hpage hi
    refine ⟨rfl, rfl, bytes, _, rfl, by rw [Line.ended_eq now _ hp hc], hreading.complete, ?_⟩
    rw [← hreading.state, ← funext hreading.pages]
  | paused | signerReset | copied | pageRefused | pageTaken | nextPage | resent | ready | polled
  | stateLost | timedOut | pollAgain | signAgain | usedUp | pageRead | gaveUp =>
    exact Or.inl ⟨by simp, rfl⟩

/-- What `handle` does to `STATE` in one await. -/
theorem resume_writes {role : Role} {now : ℕ} {st : Statics} {t : Task} {e : Event}
    {r : Resumed} (h : resume role now st t e = some r) (hbusy : t.Busy) {l : Line}
    (hl : t.Traced l) :
    .publish ∉ r.2.2 ∧ r.1.state = st.state ∨ Publication now st l e r := by
  cases resume_outcome h with
  | probed | reset | nonce => exact absurd hbusy id
  | probing t e t' ht ht' => exact absurd hbusy ht
  | resetDone => exact Or.inl ⟨by simp, rfl⟩
  | pageDone page r st' hf => exact Or.inl ⟨by simp, (finishPage_spec hf).1⟩
  | signs page r st' resend hf =>
    refine Or.inl ⟨?_, (finishPage_spec hf).1⟩
    cases hx : (sign resend now).transfer <;> simp [goOn, hx]
  | signing attempt step e r hstep hr => exact (resumeSign_stepped hstep).writes hl

/-- A device's effects are seen on its own line. -/
theorem watch_signer (i : ℕ) (es : List SignerEffect) (m : Lines) :
    (es.map fun e => Sum.inr (Effect.signer i e)).foldl Lines.watch m =
        ⟨m.now, m.nonce,
          Function.update m.line i (es.foldl (Line.watch m.now m.nonce) (m.line i))⟩ ∧
      (Each Lines.watch InOrder m (es.map fun e => Sum.inr (Effect.signer i e)) ↔
        Each (Line.watch m.now m.nonce) Line.InOrder (m.line i) es) := by
  induction es generalizing m with
  | nil => simp
  | cons e es ih =>
    obtain ⟨hfold, heach⟩ := ih (m.watch (.inr (.signer i e)))
    rw [List.map_cons, List.foldl_cons, hfold, Each.cons_iff, heach, Each.cons_iff]
    simp [Lines.watch, InOrder]

theorem watch_settle (i : ℕ) (s : System) (r : Resumed) (m : Lines) :
    ((settle i s r).2.map Sum.inr).foldl Lines.watch m =
        ⟨m.now, m.nonce,
          Function.update m.line i (r.2.2.foldl (Line.watch m.now m.nonce) (m.line i))⟩ ∧
      (Each Lines.watch InOrder m ((settle i s r).2.map Sum.inr) ↔
        Each (Line.watch m.now m.nonce) Line.InOrder (m.line i) r.2.2) := by
  obtain ⟨st, t, es⟩ := r
  have hmap : (es.map (Effect.signer i)).map (Sum.inr : Effect → Act ⊕ Effect) =
      es.map fun e => Sum.inr (Effect.signer i e) := List.map_map
  have hsigner := watch_signer i es m
  unfold settle
  dsimp only
  split
  · rw [List.map_cons, List.foldl_cons, hmap, Each.cons_iff]
    change (es.map _).foldl Lines.watch m = _ ∧ (True ∧ Each Lines.watch InOrder m _ ↔ _)
    rw [true_and]
    exact hsigner
  · rw [hmap]
    exact hsigner

namespace Tells

variable {role : Role} {s t : System} {m : Lines}

/-- Device `i`'s task is put in its place, with its line. -/
theorem put (h : Tells s m) (hnow : t.now = s.now) {nonce : Fin noncePages → Bytes nonceLen}
    (hnonce : nonce = t.statics.nonce) {i : ℕ} {task : Task} {l : Line}
    (hsigners : t.signers = Function.update s.signers i (some task)) (hl : task.Traced l) :
    Tells t ⟨m.now, nonce, Function.update m.line i l⟩ where
  now := by rw [hnow]; exact h.now
  nonce := hnonce
  traced j u hj := by
    rw [hsigners] at hj
    rcases update_some_eq_some.mp hj with ⟨rfl, rfl⟩ | ⟨hji, hj⟩
    · simpa using hl
    · simpa [Function.update_of_ne hji] using h.traced j u hj

/-- The event that ends an await enters the device's line first. -/
theorem watch_event {m : Lines} {i : ℕ} {e : Event} {a : Act} (ha : a.ends = some (i, e)) :
    m.watch (.inl a) = ⟨m.now, m.nonce,
      Function.update m.line i ((m.line i).resumed m.now e)⟩ := by
  rcases Act.ends_eq_some.mp ha with ⟨rfl, rfl⟩ | ⟨r, rfl, rfl⟩
  · simp [Lines.watch, Line.resumed]
  · rfl

/-- What is seen of the await of device `i`, on its own line. -/
theorem watch_woke {i : ℕ} {e : Event} {a : Act} (ha : a.ends = some (i, e)) (s : System)
    (r : Resumed) (m : Lines) :
    (.inl a :: (settle i s r).2.map .inr).foldl Lines.watch m = ⟨m.now, m.nonce,
      Function.update m.line i
        (r.2.2.foldl (Line.watch m.now m.nonce) ((m.line i).resumed m.now e))⟩ := by
  rw [List.foldl_cons, watch_event ha, (watch_settle i s r _).1]
  simp

/-- The await of device `i` ends. -/
theorem woke (h : Tells s m) {i : ℕ} {task : Task} (hi : s.signers i = some task) {e : Event}
    {r : Resumed} (hr : resume role s.now s.statics task e = some r) {a : Act}
    (ha : a.ends = some (i, e)) :
    Tells (settle i s r).1 ((.inl a :: (settle i s r).2.map .inr).foldl Lines.watch m) ∧
      Disciplined s m (.inl a :: (settle i s r).2.map .inr) (settle i s r).1 := by
  obtain ⟨now, nonce, line⟩ := m
  obtain rfl : now = s.now := h.now
  obtain rfl : nonce = s.statics.nonce := h.nonce
  have he : ∀ cmd, e ≠ .command cmd := Act.ends_ne_command ha
  have htask := h.traced i task hi
  obtain ⟨heach, htraced⟩ := resume_traced hr he htask
  have hnonce := (resume_outcome hr).keeps_nonce he
  obtain ⟨hnow', hstatics, hsigners⟩ := settle_system i s r
  have heachm := (watch_settle i s r
    ⟨s.now, s.statics.nonce, Function.update line i ((line i).resumed s.now e)⟩).2
  simp only [Function.update_self] at heachm
  refine ⟨?_, ⟨?_, ?_⟩, ?_⟩
  · rw [watch_woke ha]
    refine h.put hnow' ?_ hsigners htraced
    rw [hstatics, hnonce]
  · trivial
  · rw [watch_event ha]
    exact heachm.mpr heach
  · intro j hj
    obtain ⟨⟨u, hu, hbusy⟩, hact⟩ := hj
    have hji : j = i := by
      rcases Act.ends_eq_some.mp ha with ⟨rfl, -⟩ | ⟨r, rfl, -⟩ <;> simpa using hact
    subst j
    rw [hi] at hu
    cases hu
    rcases resume_writes hr hbusy htask with
      ⟨-, hkeep⟩ | ⟨hreceive, hpublish, bytes, c, rfl, hc, hcomplete, hstate⟩
    · left
      rw [hstatics, hkeep]
    · right
      refine ⟨a, c, ?_, ?_, ?_, hcomplete, ?_⟩
      · obtain ⟨st, t, es⟩ := r
        dsimp only at hpublish
        subst es
        rw [settle_plain i s st t _ (by simp)]
        rfl
      · rw [hsigners, Function.update_self, hreceive]
      · rw [watch_event ha]
        simpa [Line.resumed] using hc
      · rw [hstatics]
        exact hstate

/-- A step in which no await of a device ends. -/
theorem disciplined_of_each {a : Act} (hact : a.ends = none) {es : List Effect}
    (heach : Each Lines.watch InOrder m (.inl a :: es.map .inr)) :
    Disciplined s m (.inl a :: es.map .inr) t := by
  refine ⟨heach, ?_⟩
  intro i hi
  obtain ⟨-, hw⟩ := hi
  rcases hw with hw | ⟨r, hw⟩ <;> simp at hw <;> subst hw <;> cases hact

/-- Nothing that happens on the console side is seen on a line. -/
theorem unheeded (h : Tells s m) {a : Act} (ha : m.watch (.inl a) = m) {es : List Effect}
    (hes : ∀ e ∈ es, ∀ u : Lines, u.watch (.inr e) = u ∧ InOrder u (.inr e))
    (hact : a.ends = none) (hnow : t.now = s.now)
    (hnonce : t.statics.nonce = s.statics.nonce) (hsigners : ∀ i u, t.signers i = some u →
      s.signers i = some u) :
    Tells t ((.inl a :: es.map .inr).foldl Lines.watch m) ∧
      Disciplined s m (.inl a :: es.map .inr) t := by
  have hsame : (es.map Sum.inr).foldl Lines.watch m = m := by
    apply foldl_unheeded
    intro e he
    obtain ⟨f, hf, rfl⟩ := List.mem_map.mp he
    exact (hes f hf m).1
  have heach : Each Lines.watch InOrder m (es.map Sum.inr) := by
    apply Each.of_forall
    intro e he u
    obtain ⟨f, hf, rfl⟩ := List.mem_map.mp he
    exact (hes f hf u).2
  rw [List.foldl_cons, ha, hsame]
  refine ⟨⟨?_, ?_, ?_⟩, disciplined_of_each hact ⟨trivial, ?_⟩⟩
  · rw [hnow]
    exact h.now
  · rw [hnonce]
    exact h.nonce
  · intro i u hu
    exact h.traced i u (hsigners i u hu)
  · rw [ha]
    exact heach

theorem consoleGet (h : Tells s m) (id : UInt8) :
    Tells (Auth.consoleGet id s).1
        ((.inl (.getReport id) :: (Auth.consoleGet id s).2.map .inr).foldl Lines.watch m) ∧
      Disciplined s m (.inl (.getReport id) :: (Auth.consoleGet id s).2.map .inr)
        (Auth.consoleGet id s).1 := by
  obtain ⟨⟨q, hsys⟩, hes⟩ := consoleGet_spec id s
  rw [hsys]
  refine h.unheeded rfl ?_ rfl rfl rfl fun i u hu => hu
  intro e he u
  rcases hes e he with rfl | rfl | rfl | rfl <;> exact ⟨rfl, trivial⟩

theorem send (h : Tells s m) (data : List UInt8) :
    Tells (Auth.send (.nonce (Packet.new data)) { s with console := .idle }).1
        ((.inl .send :: (Auth.send (.nonce (Packet.new data))
          { s with console := .idle }).2.map .inr).foldl Lines.watch m) ∧
      Disciplined s m (.inl .send :: (Auth.send (.nonce (Packet.new data))
          { s with console := .idle }).2.map .inr)
        (Auth.send (.nonce (Packet.new data)) { s with console := .idle }).1 := by
  obtain ⟨hsys, hes⟩ := send_spec (.nonce (Packet.new data)) { s with console := .idle }
  rw [hsys]
  refine h.unheeded rfl ?_ rfl rfl rfl fun i u hu => hu
  intro e he u
  rcases hes with hes | hes <;> rw [hes] at he <;> cases List.mem_singleton.mp he <;>
    exact ⟨rfl, trivial⟩

theorem attach (h : Tells s m) (i : ℕ) :
    Tells { s with signers := Function.update s.signers i (some (.probe 1)) }
        (([.attached i, .signer i (.transfer (.get idReset resetLen))].map .inr).foldl Lines.watch
          m) ∧
      Each Lines.watch InOrder m
        ([.attached i, .signer i (.transfer (.get idReset resetLen))].map .inr) := by
  have hprobe : (Task.probe 1).Traced (Line.init.watch m.now m.nonce
      (.transfer (.get idReset resetLen))) := by
    refine ⟨rfl, ?_, fun _ _ => rfl⟩
    intro attempt step heq
    cases heq
  have hput := h.put (t := { s with signers := Function.update s.signers i (some (.probe 1)) })
    rfl h.nonce rfl hprobe
  refine ⟨by simpa [Lines.watch] using hput, trivial, ?_, trivial⟩
  intro c hc
  simp [Lines.watch, Line.init] at hc

/-- A device takes a command: it is in no call of `sign`. -/
theorem receive (h : Tells s m) (i : ℕ) (cmd : Cmd) (q : Channel Cmd cmdLen) :
    Tells { s with
        cmd := q
        statics := (begin cmd s.statics).1
        signers := Function.update s.signers i (some (begin cmd s.statics).2) }
        (((.received i cmd :: ((begin cmd s.statics).2.transfer.map fun x =>
          .signer i (.transfer x)).toList).map .inr).foldl Lines.watch m) ∧
      Each Lines.watch InOrder m ((.received i cmd :: ((begin cmd s.statics).2.transfer.map fun x =>
          .signer i (.transfer x)).toList).map .inr) := by
  have hnonce : (begin cmd { Statics.init with nonce := m.nonce }).1.nonce =
      (begin cmd s.statics).1.nonce := by
    rw [h.nonce]
    exact begin_nonce_congr cmd rfl
  obtain ⟨x, hx⟩ : ∃ x, (begin cmd s.statics).2.transfer = some x := by
    cases cmd <;> exact ⟨_, rfl⟩
  have htask : (begin cmd s.statics).2.Traced (Line.init.watch m.now
      (begin cmd s.statics).1.nonce (.transfer x)) := by
    refine ⟨by rw [hx]; rfl, ?_, fun _ _ => rfl⟩
    intro attempt step heq
    cases cmd <;> cases heq
  have hput := h.put (t := { s with
    cmd := q
    statics := (begin cmd s.statics).1
    signers := Function.update s.signers i (some (begin cmd s.statics).2) }) rfl rfl rfl htask
  simp only [hx, Option.map_some, Option.toList_some, List.map_cons, List.map_nil]
  refine ⟨by simpa [Lines.watch, hnonce] using hput, trivial, ?_, trivial⟩
  intro c hc
  simp [Lines.watch, Line.init] at hc

end Tells

theorem tells_step {role : Role} {s t : System} {m : Lines} {a : Act} {es : List (Act ⊕ Effect)}
    (h : Tells s m) (hstep : (machine role).recorded.step s a = some (t, es)) :
    Tells t (es.foldl Lines.watch m) ∧ Disciplined s m es t := by
  obtain ⟨fs, hfs, rfl⟩ := Machine.recorded_step.mp hstep
  cases acted hfs with
  | elapse ms =>
    refine ⟨⟨?_, h.nonce, h.traced⟩, Tells.disciplined_of_each rfl ⟨trivial, trivial⟩⟩
    change m.now + ms = s.now + ms
    rw [h.now]
  | get id hidle => exact h.consoleGet id
  | ignored id data =>
    exact h.unheeded rfl (fun _ he => absurd he List.not_mem_nil) rfl rfl rfl fun i u hu => hu
  | nonceSet data hidle =>
    refine h.unheeded rfl ?_ rfl rfl rfl fun i u hu => hu
    intro e he u
    cases List.mem_singleton.mp he
    exact ⟨rfl, trivial⟩
  | send data hcon t es hsend =>
    obtain ⟨rfl, rfl⟩ := Prod.mk.inj hsend
    exact h.send data
  | attach i hi =>
    obtain ⟨htells, heach⟩ := h.attach i
    exact ⟨htells, Tells.disciplined_of_each rfl ⟨trivial, heach⟩⟩
  | detach i task hi =>
    refine h.unheeded rfl ?_ rfl rfl rfl ?_
    · intro e he u
      cases List.mem_singleton.mp he
      exact ⟨rfl, trivial⟩
    · intro j u hj
      exact (update_none_eq_some.mp hj).2
  | receive i cmd q hi hq =>
    obtain ⟨htells, heach⟩ := h.receive i cmd q
    exact ⟨htells, Tells.disciplined_of_each rfl ⟨trivial, heach⟩⟩
  | woke a i task e r ha hi hr => exact h.woke hi hr ha

theorem tells_init : Tells System.init Lines.init := by
  refine ⟨rfl, rfl, ?_⟩
  intro i t hi
  cases hi

/-- In every run, whatever the signers answer and whenever, each call of `sign` keeps to
its requests, and writes the cache by one publication that ends it or not at all. -/
theorem signing_disciplined (role : Role) (as : List Act) :
    (machine role).recorded.Along Lines.watch Disciplined System.init Lines.init as := by
  refine Machine.along_always Tells ?_ as _ _ tells_init
  intro s m a es t h hstep
  exact tells_step h hstep

end WheelBridge.Auth
