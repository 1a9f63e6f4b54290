import WheelBridge.AuthFreshness
import WheelBridge.CachedPages
import WheelBridge.SignRuns

/-!
Whose bytes the console is given. What it reads of F1, of a "ready" F2 and of an F3 is to
be the signer's reply to the GET it came from, byte for byte but for the nonce id; the
lengths of the replies, which the code drops, decide whether it is.
-/
namespace WheelBridge.Auth

/-- The replies a signing run was read from: the F2 that was believed, and each page. -/
structure Reads where
  state : List UInt8
  page : ℕ → List UInt8

/-- The reply to the last poll, and to each GET F1 since. -/
def Call.reads (c : Call) : Reads where
  state := ((pollsBefore c.trace).head?.bind Exchange.reply).getD []
  page k := ((readsOf c.trace).reverse[k]?.bind Exchange.reply).getD []

/-- Where the bytes in the cache came from. -/
structure Origins where
  lines : Lines
  /-- The devices in `try_signer`, and the F3 of the one taken as a signer last. -/
  probing : ℕ → Bool
  reset : Option (List UInt8)
  /-- The console's last nonce. -/
  nonce : List UInt8
  /-- The replies the published signature was read from, and how many of its pages have been
  given out. -/
  cached : Option Reads
  given : ℕ

namespace Origins

def init : Origins := ⟨Lines.init, fun _ => false, none, [], none, 0⟩

/-- All but the lines. -/
def heed (o : Origins) : Act ⊕ Effect → Origins
  | .inl (.reply i (some bytes)) =>
    if o.probing i then
      { o with probing := Function.update o.probing i false, reset := some bytes }
    else o
  | .inr (.attached i) => { o with probing := Function.update o.probing i true }
  | .inr (.received i _) => { o with probing := Function.update o.probing i false }
  | .inr (.signer i .publish) =>
    { o with cached := (o.lines.line i).call.map Call.reads, given := 0 }
  | .inr .resetRead => { o with given := 0 }
  | .inr (.nonceSet data) => { o with nonce := data, given := 0 }
  | .inr (.answered id (some _)) =>
    if id = idSignature then { o with given := o.given + 1 } else o
  | _ => o

def watch (o : Origins) (e : Act ⊕ Effect) : Origins :=
  { o.heed e with lines := o.lines.watch e }

end Origins

/-- The report is the reply, with byte 1 replaced. -/
def Own (id : UInt8) (reply report : List UInt8) : Prop :=
  report[1]? = some id ∧ ∀ k < report.length, k ≠ 1 → report[k]? = reply[k]?

/-- A reply to GET F2 that is followed by a GET F1. -/
def EndsPolling (o : Origins) (es : List (Act ⊕ Effect)) (i : ℕ) : Prop :=
  (o.lines.line i).pending.map Prod.fst = some (.get idState stateLen) ∧
    .inr (.signer i (.transfer (.get idSignature signatureLen))) ∈ es

/-- Only the signer's own bytes are given out, a "ready" is read in the reply itself, and
a device is taken as a signer on a whole F3. -/
def OwnBytes (s : System) (o : Origins) (es : List (Act ⊕ Effect)) : Act ⊕ Effect → Prop
  | .inl (.reply i (some bytes)) => (o.probing i = true → resetLen ≤ bytes.length) ∧
      (EndsPolling o es i → bytes[2]? = some stateReady)
  | .inr (.answered id (some report)) =>
    (id = idSignature → ∃ reads ∈ o.cached,
      Own (o.nonce[1]?.getD 0) (reads.page o.given) report) ∧
    (id = idState → s.statics.state.ready = true → ∃ reads ∈ o.cached,
      Own (o.nonce[1]?.getD 0) reads.state report) ∧
    (id = idReset → ∀ reply ∈ o.reset, ∀ k < report.length, report[k]? = reply[k]?)
  | _ => True

/-- The replies are as long as they have to be: whole an F3 that `try_signer` reads, up to
its state byte an F2 that ends polling, and whole what the console gets next. -/
def RepliesFill (s : System) (o : Origins) : Act → Prop
  | .reply i (some bytes) =>
    (∀ attempt, s.signers i = some (.probe attempt) → resetLen ≤ bytes.length) ∧
    (∀ attempt poll, s.signers i = some (.sign attempt (.getState poll)) →
      (poll.read bytes).Believes s.now → 2 < bytes.length)
  | .getReport id => s.statics.state.ready = true →
    (id = idSignature → o.given < signaturePages → ∀ reads ∈ o.cached,
      signatureLen ≤ (reads.page o.given).length) ∧
    (id = idState → ∀ reads ∈ o.cached, stateLen ≤ reads.state.length)
  | _ => True

instance (o : Origins) (es : List (Act ⊕ Effect)) (i : ℕ) : Decidable (EndsPolling o es i) :=
  decidable_of_iff ((o.lines.line i).pending.map Prod.fst = some (.get idState stateLen) ∧
    ∃ e ∈ es, e = .inr (.signer i (.transfer (.get idSignature signatureLen))))
    (and_congr_right fun _ => exists_eq_right)

instance (id : UInt8) (reply report : List UInt8) : Decidable (Own id reply report) :=
  inferInstanceAs (Decidable (_ ∧ _))

instance (s : System) (o : Origins) (es : List (Act ⊕ Effect)) :
    (e : Act ⊕ Effect) → Decidable (OwnBytes s o es e)
  | .inl (.reply _ (some _)) => inferInstanceAs (Decidable (_ ∧ _))
  | .inr (.answered _ (some _)) => inferInstanceAs (Decidable (_ ∧ _ ∧ _))
  | .inl (.reply _ none) | .inl (.elapse _) | .inl (.getReport _) | .inl (.setReport _ _)
  | .inl .send | .inl (.attach _) | .inl (.detach _) | .inl (.receive _) | .inl (.timer _)
  | .inr (.answered _ none) | .inr .resetRead | .inr (.nonceSet _) | .inr (.queued _)
  | .inr (.dropped _) | .inr (.cleared _) | .inr (.attached _) | .inr (.detached _)
  | .inr (.received _ _) | .inr (.signer _ _) => isTrue trivial

/-- A reply reaches the console whole if and only if it filled its buffer. -/
theorem own_iff {n : ℕ} (hn : 2 < n) (b : Bytes n) (id : UInt8) (reply : List UInt8) :
    Own id reply ((b.write reply).set 1 id).toList ↔ n ≤ reply.length := by
  have hlen : ((b.write reply).set 1 id).toList.length = n := Bytes.length_eq _
  constructor
  · intro h
    have hlast := h.2 (n - 1) (by omega) (by omega)
    rw [Bytes.getElem?_toList _ _ (by omega)] at hlast
    obtain ⟨hlt, -⟩ := List.getElem?_eq_some_iff.mp hlast.symm
    omega
  · intro h
    constructor
    · rw [Bytes.getElem?_toList _ _ (by omega), Bytes.byte_set, if_pos ⟨rfl, by omega⟩]
    · intro k hk hne
      rw [hlen] at hk
      rw [Bytes.getElem?_toList _ _ hk, Bytes.byte_set, if_neg (by omega),
        ← Bytes.getElem?_toList _ _ hk]
      exact Bytes.getElem?_write b reply h k hk

/-- In `try_signer`. -/
def Task.Probing : Task → Prop
  | .probe _ | .probePause _ _ => True
  | _ => False

/-- `probing` tells the devices in `try_signer` from those that handle a command. -/
def Probes (signers : ℕ → Option Task) (probing : ℕ → Bool) : Prop :=
  ∀ i t, signers i = some t → (t.Probing → probing i = true) ∧ (t.Busy → probing i = false)

theorem Probes.put {signers : ℕ → Option Task} {probing : ℕ → Bool} (h : Probes signers probing)
    (i : ℕ) {task : Task} {b : Bool} (htask : (task.Probing → b = true) ∧ (task.Busy → b = false)) :
    Probes (Function.update signers i (some task)) (Function.update probing i b) := by
  intro j u hj
  rcases update_some_eq_some.mp hj with ⟨rfl, rfl⟩ | ⟨hji, hj⟩
  · simpa using htask
  · simpa [Function.update_of_ne hji] using h j u hj

/-- The task goes on as what it is. -/
theorem Probes.keep {signers : ℕ → Option Task} {probing : ℕ → Bool} (h : Probes signers probing)
    (i : ℕ) {task : Task}
    (htask : (task.Probing → probing i = true) ∧ (task.Busy → probing i = false)) :
    Probes (Function.update signers i (some task)) probing := by
  have hput := h.put i htask
  rwa [Function.update_eq_self] at hput

/-- The cache holds the replies it is told to have come from. -/
structure Sourced (s : System) (o : Origins) : Prop where
  given : s.statics.state.nextPage = o.given
  probing : Probes s.signers o.probing
  reset : ∀ reply, o.reset = some reply → resetLen ≤ reply.length ∧
    s.statics.state.reset = Bytes.zero.write reply
  cached : s.statics.state.ready = true → ∃ reads, o.cached = some reads ∧
    (∃ b : Bytes stateLen,
      s.statics.state.readyState = (b.write reads.state).set 1 s.statics.state.nonceId) ∧
    ∀ i, s.statics.state.signature i =
      (Bytes.zero.write (reads.page i)).set 1 s.statics.state.nonceId

/-- Only the lines follow effects that are not heeded. -/
theorem foldl_lines {es : List (Act ⊕ Effect)} (hes : ∀ e ∈ es, ∀ o : Origins, o.heed e = o)
    (o : Origins) :
    es.foldl Origins.watch o = { o with lines := es.foldl Lines.watch o.lines } := by
  induction es generalizing o with
  | nil => rfl
  | cons e es ih =>
    have hfirst : o.watch e = { o with lines := o.lines.watch e } := by
      unfold Origins.watch
      rw [hes e (List.mem_cons_self ..)]
    rw [List.foldl_cons, hfirst, ih fun e' he' => hes e' (List.mem_cons_of_mem e he')]
    rfl

theorem watch_lines (es : List (Act ⊕ Effect)) (o : Origins) :
    (es.foldl Origins.watch o).lines = es.foldl Lines.watch o.lines := by
  induction es generalizing o with
  | nil => rfl
  | cons e es ih =>
    rw [List.foldl_cons, ih]
    rfl

/-- The nonce is followed as `lastNonce` does. -/
theorem watch_nonce (a : Act) (fs : List Effect) (o : Origins) :
    ((.inl a :: fs.map .inr).foldl Origins.watch o).nonce = fs.foldl lastNonce o.nonce := by
  have hact : (o.watch (.inl a)).nonce = o.nonce := by
    cases a with
    | reply i r =>
      cases r with
      | none => rfl
      | some bytes =>
        unfold Origins.watch Origins.heed
        dsimp only
        split <;> rfl
    | elapse | getReport | setReport | send | attach | detach | receive | timer => rfl
  rw [List.foldl_cons, ← hact]
  generalize o.watch (.inl a) = u
  induction fs generalizing u with
  | nil => rfl
  | cons e fs ih =>
    have heffect : (u.watch (.inr e)).nonce = lastNonce u.nonce e := by
      unfold Origins.watch Origins.heed lastNonce
      dsimp only
      cases e with
      | answered id report =>
        cases report with
        | none => rfl
        | some report =>
          dsimp only
          split <;> rfl
      | signer i e => cases e <;> rfl
      | resetRead | nonceSet | queued | dropped | cleared | attached | detached | received => rfl
    rw [List.map_cons, List.foldl_cons, List.foldl_cons, ih, heffect]

/-- Where an await ends: the F3 of a probe, a publication, or neither. -/
inductive Sources (now : ℕ) (st : Statics) (l : Line) : Task → Event → Resumed → Prop
  | taken (attempt : ℕ) (bytes : List UInt8) (es : List SignerEffect) (hes : .publish ∉ es) :
      Sources now st l (.probe attempt) (.reply (some bytes))
        ({ st with state := { st.state with reset := Bytes.zero.write bytes } }, .receive, es)
  | published (t : Task) (r : Option (List UInt8)) (st' : Statics) (c : Call) (hbusy : t.Busy)
      (hc : (l.ended now r).call = some c) (hcomplete : c.Complete)
      (hstate : st'.state = publish (stateBuffer (pollsBefore c.trace))
        (fun k => pageBuffer (readsOf c.trace) k) st.state) :
      Sources now st l t (.reply r) (st', .receive, [.publish])
  | other (t : Task) (e : Event) (st' : Statics) (t' : Task) (es : List SignerEffect)
      (hes : .publish ∉ es) (hstate : st'.state = st.state) (hprobing : t'.Probing → t.Probing)
      (hbusy : t'.Busy → t.Busy) (hreply : ∀ bytes, e = .reply (some bytes) → t.Busy) :
      Sources now st l t e (st', t', es)

theorem resume_sources {role : Role} {now : ℕ} {st : Statics} {t : Task} {e : Event} {r : Resumed}
    (h : resume role now st t e = some r) (he : ∀ cmd, e ≠ .command cmd) {l : Line}
    (hl : t.Traced l) : Sources now st l t e r := by
  by_cases hbusy : t.Busy
  · have hnot : ¬ r.2.1.Probing := by
      cases resume_outcome h with
      | probed | reset | nonce | resetDone | pageDone => exact id
      | probing t e t' ht ht' => exact absurd hbusy ht
      | signs page r st' resend hf =>
        obtain ⟨step, hstep⟩ := sign_eq resend now
        simp only [goOn, hstep]
        exact id
      | signing attempt step e r hstep hr => cases hr <;> exact id
    have hwrites := resume_writes h hbusy hl
    obtain ⟨st', t', es⟩ := r
    rcases hwrites with ⟨hes, hkeep⟩ | ⟨hreceive, hpublish, bytes, c, rfl, hc, hcomplete, hstate⟩
    · exact .other t e st' t' es hes hkeep (fun hp => absurd hp hnot) (fun _ => hbusy)
        fun _ _ => hbusy
    · dsimp only at hreceive hpublish
      subst hreceive hpublish
      exact .published t (some bytes) st' c hbusy hc hcomplete hstate
  · unfold resume at h
    split at h
    · next attempt bytes =>
      cases h
      refine .taken attempt bytes _ ?_
      split <;> simp [Task.transfer]
    · next attempt =>
      split at h <;> cases h
      · exact .other _ _ _ _ _ (plain_goOn st _).2.1 rfl (fun _ => trivial) id (by simp)
      · refine .other _ _ _ _ _ (plain_goOn st _).2.1 rfl (fun _ => trivial) ?_ (by simp)
        split <;> exact fun h => h.elim
    · split at h <;> cases h
      exact .other _ _ _ _ _ (plain_goOn st _).2.1 rfl (fun _ => trivial) id (by simp)
    · exact absurd rfl (he _)
    · exact absurd rfl (he _)
    · exact absurd trivial hbusy
    · exact absurd trivial hbusy
    · exact absurd trivial hbusy
    · cases h

theorem Call.Complete.reads {c : Call} (h : c.Complete) :
    ∃ b : Bytes stateLen, stateBuffer (pollsBefore c.trace) = b.write c.reads.state := by
  obtain ⟨-, -, hbelieved⟩ := h
  unfold Call.reads
  cases hpolls : pollsBefore c.trace with
  | nil =>
    rw [hpolls] at hbelieved
    exact absurd hbelieved id
  | cons x xs =>
    rw [hpolls] at hbelieved
    obtain ⟨bytes, hbytes⟩ := Option.isSome_iff_exists.mp hbelieved.1
    refine ⟨stateBuffer xs, ?_⟩
    simp [stateBuffer, hbytes]

namespace Sourced

variable {role : Role} {s t : System} {o : Origins}

/-- The step leaves the cache alone. -/
theorem frame (h : Sourced s o) (hstate : t.statics.state = s.statics.state)
    {probing : ℕ → Bool} (hprobing : Probes t.signers probing) (l : Lines) :
    Sourced t { o with lines := l, probing := probing } where
  given := by rw [hstate]; exact h.given
  probing := hprobing
  reset := by rw [hstate]; exact h.reset
  cached := by rw [hstate]; exact h.cached

theorem heed_settle {i : ℕ} {r : Resumed} (hes : .publish ∉ r.2.2) :
    ∀ e ∈ (settle i s r).2.map Sum.inr, ∀ o : Origins, o.heed e = o := by
  intro e he o
  obtain ⟨f, hf, rfl⟩ := List.mem_map.mp he
  unfold settle at hf
  dsimp only at hf
  have hsigner : ∀ g ∈ r.2.2, o.heed (.inr (.signer i g)) = o := by
    intro g hg
    cases g with
    | publish => exact absurd hg hes
    | transfer | serve | pageSent | sign | copyNonce => rfl
  split at hf
  · rcases List.mem_cons.mp hf with rfl | hf
    · rfl
    · obtain ⟨g, hg, rfl⟩ := List.mem_map.mp hf
      exact hsigner g hg
  · obtain ⟨g, hg, rfl⟩ := List.mem_map.mp hf
    exact hsigner g hg

/-- A reply to a device that is not in `try_signer`, or none, tells of no F3. -/
theorem heed_event {i : ℕ} {a : Act} {e : Event} (ha : a.ends = some (i, e))
    (hreply : ∀ bytes, e = .reply (some bytes) → o.probing i = false) :
    o.heed (.inl a) = o := by
  rcases Act.ends_eq_some.mp ha with ⟨rfl, rfl⟩ | ⟨r, rfl, rfl⟩
  · rfl
  · cases r with
    | none => rfl
    | some bytes =>
      unfold Origins.heed
      dsimp only
      rw [hreply bytes rfl]
      rfl

/-- The await of device `i` ends; a probe ends with a whole F3. -/
theorem woke (h : Sourced s o) (htells : Tells s o.lines) {i : ℕ} {task : Task}
    (hi : s.signers i = some task) {e : Event} {r : Resumed}
    (hr : resume role s.now s.statics task e = some r) {a : Act} (ha : a.ends = some (i, e))
    (hfull : ∀ bytes, e = .reply (some bytes) → o.probing i = true → resetLen ≤ bytes.length) :
    Sourced (settle i s r).1 ((.inl a :: (settle i s r).2.map .inr).foldl Origins.watch o) := by
  have hsources := resume_sources hr (Act.ends_ne_command ha) (htells.traced i task hi)
  obtain ⟨-, hstatics, hsigners⟩ := settle_system i s r
  have hprobing := h.probing i task hi
  rw [List.foldl_cons]
  cases hsources with
  | taken attempt bytes es hes =>
    have hpos := hprobing.1 trivial
    obtain rfl : a = .reply i (some bytes) := Act.ends_reply ha
    have hheed : o.heed (.inl (.reply i (some bytes))) =
        { o with probing := Function.update o.probing i false, reset := some bytes } := by
      unfold Origins.heed
      dsimp only
      rw [if_pos hpos]
    rw [foldl_lines (heed_settle hes)]
    unfold Origins.watch
    rw [hheed]
    constructor
    · rw [hstatics]
      exact h.given
    · rw [hsigners]
      exact h.probing.put i ⟨fun hp => hp.elim, fun _ => rfl⟩
    · intro reply hreply
      rw [hstatics]
      cases hreply
      exact ⟨hfull bytes rfl hpos, rfl⟩
    · rw [hstatics]
      exact h.cached
  | published t r st' c hbusy hc hcomplete hstate =>
    obtain rfl : a = .reply i r := Act.ends_reply ha
    have hheed : o.heed (.inl (.reply i r)) = o :=
      heed_event ha fun _ _ => hprobing.2 hbusy
    have hcall : ((o.lines.watch (.inl (.reply i r))).line i).call = some c := by
      simp only [Lines.watch, Function.update_self, htells.now]
      exact hc
    rw [settle_plain i s st' .receive _ (by simp)]
    simp only [List.map_cons, List.map_nil, List.foldl_cons, List.foldl_nil]
    unfold Origins.watch
    rw [hheed]
    simp only [Origins.heed, hcall, Option.map_some]
    obtain ⟨b, hb⟩ := hcomplete.reads
    constructor
    · simp only [hstate]
      rfl
    · exact h.probing.keep i ⟨fun hp => hp.elim, fun hb => hb.elim⟩
    · simp only [hstate]
      exact h.reset
    · intro _
      simp only [hstate]
      refine ⟨c.reads, rfl, ⟨b, ?_⟩, fun k => rfl⟩
      simp only [publish, hb]
  | other t e st' t' es hes hstate hprobes hbusies hreply =>
    have hheed : o.heed (.inl a) = o :=
      heed_event ha fun bytes heq => hprobing.2 (hreply bytes heq)
    rw [foldl_lines (heed_settle hes)]
    unfold Origins.watch
    rw [hheed]
    refine h.frame (by rw [hstatics, hstate]) ?_ _
    rw [hsigners]
    apply h.probing.keep i
    exact ⟨fun hp => hprobing.1 (hprobes hp), fun hb => hprobing.2 (hbusies hb)⟩

/-- What is not heeded and leaves the cache alone. -/
theorem unheeded (h : Sourced s o) {es : List (Act ⊕ Effect)}
    (hes : ∀ e ∈ es, ∀ o : Origins, o.heed e = o) (hstate : t.statics.state = s.statics.state)
    (hsigners : ∀ i u, t.signers i = some u → s.signers i = some u) :
    Sourced t (es.foldl Origins.watch o) := by
  rw [foldl_lines hes]
  exact h.frame hstate (fun i u hi => h.probing i u (hsigners i u hi)) _

/-- A GET_REPORT. -/
theorem consoleGet (h : Sourced s o) (hle : s.statics.state.nextPage ≤ signaturePages)
    (id : UInt8) : Sourced (Auth.consoleGet id s).1
      ((.inl (.getReport id) :: (Auth.consoleGet id s).2.map .inr).foldl Origins.watch o) := by
  by_cases hreset : id = idReset
  · subst hreset
    obtain ⟨q, e, heq, he⟩ := consoleGet_reset s
    have hfold : ([.inl (.getReport idReset), .inr .resetRead, .inr e,
        .inr (.answered idReset (some s.statics.state.reset.toList))] : List (Act ⊕ Effect)).foldl
          Origins.watch o = { o with given := 0 } := by
      rcases he with rfl | rfl <;> rfl
    rw [heq]
    change Sourced _ (List.foldl Origins.watch o [.inl (.getReport idReset), .inr .resetRead,
      .inr e, .inr (.answered idReset (some s.statics.state.reset.toList))])
    rw [hfold]
    exact ⟨rfl, h.probing, h.reset, fun hready => by cases hready⟩
  · rw [consoleGet_other hreset]
    by_cases hsig : id = idSignature
    · subst hsig
      rw [getReport_signature hle]
      have hgiven := h.given
      cases hpage : s.statics.state.given 0 with
      | none =>
        rw [after_of_given_none hle hpage]
        exact h.frame rfl h.probing _
      | some page =>
        refine ⟨?_, h.probing, h.reset, h.cached⟩
        unfold State.given at hpage
        split at hpage
        · next hgives =>
          have hmin : min signaturePages (s.statics.state.nextPage + 1) = o.given + 1 := by omega
          simp only [State.after, hgives.1, if_pos, hmin]
          rfl
        · cases hpage
    · rw [getReport_keeps s.statics.state hreset hsig]
      refine h.unheeded ?_ rfl fun i u hi => hi
      intro e he u
      simp only [List.map_cons, List.map_nil, List.mem_cons, List.not_mem_nil, or_false] at he
      rcases he with rfl | rfl
      · rfl
      · cases (getReport id s.statics.state).2.2 with
        | none => rfl
        | some report => simp [Origins.heed, hsig]

end Sourced

theorem sourced_step {role : Role} {s t : System} {o : Origins} {a : Act}
    {es : List (Act ⊕ Effect)} (htells : Tells s o.lines) (hkept : Kept s o.nonce)
    (h : Sourced s o) (hstep : (machine role).recorded.step s a = some (t, es))
    (hown : ∀ e ∈ es, OwnBytes s o es e) : Sourced t (es.foldl Origins.watch o) := by
  obtain ⟨fs, hfs, rfl⟩ := Machine.recorded_step.mp hstep
  cases acted hfs with
  | elapse ms => exact h.unheeded (by simp [Origins.heed]) rfl fun i u hi => hi
  | get id hidle => exact h.consoleGet hkept.cached.nextPage_le id
  | ignored id data => exact h.unheeded (by simp [Origins.heed]) rfl fun i u hi => hi
  | nonceSet data hidle =>
    exact ⟨rfl, h.probing, h.reset, fun hready => absurd hready Bool.false_ne_true⟩
  | send data hcon t es hsend =>
    obtain ⟨hstatics, hsigners, hes⟩ := send_eq hsend
    refine h.unheeded ?_ (by rw [hstatics]) fun i u hi => ?_
    · rcases hes with rfl | rfl <;> simp [Origins.heed]
    · rw [hsigners] at hi
      exact hi
  | attach i hi =>
    have hprobing : Probes (Function.update s.signers i (some (.probe 1)))
        (Function.update o.probing i true) := by
      apply h.probing.put i
      exact ⟨fun _ => rfl, fun hb => hb.elim⟩
    refine h.frame ?_ hprobing _
    rfl
  | detach i task hi =>
    refine h.unheeded (by simp [Origins.heed]) rfl fun j u hj => ?_
    exact (update_none_eq_some.mp hj).2
  | receive i cmd q hi hq =>
    have hbegin := begin_state cmd s.statics
    have hprobing : Probes (Function.update s.signers i (some (begin cmd s.statics).2))
        (Function.update o.probing i false) := by
      apply h.probing.put i
      refine ⟨?_, fun _ => rfl⟩
      intro hp
      cases cmd <;> exact hp.elim
    cases cmd <;> refine h.frame ?_ hprobing _ <;> exact hbegin
  | woke a i task e r ha hi hr =>
    refine h.woke htells hi hr ha ?_
    intro bytes hbytes hprobing
    subst hbytes
    obtain rfl : a = .reply i (some bytes) := Act.ends_reply ha
    exact (hown _ (List.mem_cons_self ..)).1 hprobing

/-- Only answers to the console are asked whose bytes they are. -/
theorem own_silent (s : System) (o : Origins) (es : List (Act ⊕ Effect)) {e : Effect}
    (he : ∀ id report, e ≠ .answered id (some report)) : OwnBytes s o es (.inr e) := by
  cases e with
  | answered id report =>
    cases report with
    | none => trivial
    | some report => exact absurd rfl (he id report)
  | resetRead | nonceSet | queued | dropped | cleared | attached | detached | received | signer =>
    trivial

/-- The reply that ends polling says "ready", in itself if it has a state byte. -/
theorem ready_reply_iff {now : ℕ} {poll : Poll} {bytes : List UInt8}
    (h : (poll.read bytes).Believes now) : bytes[2]? = some stateReady ↔ 2 < bytes.length := by
  constructor
  · intro hsome
    exact (List.getElem?_eq_some_iff.mp hsome).1
  · intro hlt
    have hready : (poll.state.write bytes).byte 2 = stateReady := h.1
    rw [Bytes.byte_write _ _ _ (by decide), List.getD_eq_getElem?_getD,
      List.getElem?_eq_getElem hlt] at hready
    rw [List.getElem?_eq_getElem hlt, ← hready]
    rfl

/-- Polling ends with a poll that is believed, and only with one. -/
theorem endsPolling_iff {role : Role} {s : System} {o : Origins} (htells : Tells s o.lines)
    {i : ℕ} {task : Task} {bytes : List UInt8} {r : Resumed} (hi : s.signers i = some task)
    (hr : resume role s.now s.statics task (.reply (some bytes)) = some r) :
    EndsPolling o (.inl (.reply i (some bytes)) :: (settle i s r).2.map .inr) i ↔
      ∃ attempt poll, task = .sign attempt (.getState poll) ∧ (poll.read bytes).Believes s.now := by
  have hpending := (htells.traced i task hi).pending
  have hmem : .inr (.signer i (.transfer (.get idSignature signatureLen))) ∈
      (.inl (.reply i (some bytes)) :: (settle i s r).2.map .inr : List (Act ⊕ Effect)) ↔
      .transfer (.get idSignature signatureLen) ∈ r.2.2 := by
    unfold settle
    dsimp only
    split <;> simp
  unfold EndsPolling
  rw [hpending, hmem]
  constructor
  · intro hends
    obtain ⟨htransfer, hread⟩ := hends
    cases task with
    | sign attempt step =>
      have hsign : resumeSign s.now s.statics attempt step (.reply (some bytes)) = some r := hr
      cases resumeSign_stepped hsign with
      | ready poll bytes hready => exact ⟨attempt, poll, rfl, hready⟩
      | signerReset | usedUp | pageRead | published | gaveUp | signAgain =>
        simp [Task.transfer, idReset, idState, idSignature] at htransfer
      | pageTaken => simp [Task.transfer] at htransfer
      | polled => simp at hread
    | probe | probePause | notSigner | receive | reset | setNonce =>
      simp [Task.transfer, idReset, idState] at htransfer
  · intro hbelieved
    obtain ⟨attempt, poll, rfl, hready⟩ := hbelieved
    have hsign : resumeSign s.now s.statics attempt (.getState poll) (.reply (some bytes)) =
        some r := hr
    refine ⟨rfl, ?_⟩
    cases resumeSign_stepped hsign with
    | ready poll bytes _ => exact List.mem_singleton.mpr rfl
    | polled poll bytes hnot => exact absurd hready hnot

/-- A reply in `try_signer` is the F3 a device is taken on. -/
theorem probing_iff {role : Role} {s : System} {o : Origins} (htells : Tells s o.lines)
    (h : Sourced s o) {i : ℕ} {task : Task} {bytes : List UInt8} {r : Resumed}
    (hi : s.signers i = some task)
    (hr : resume role s.now s.statics task (.reply (some bytes)) = some r) :
    o.probing i = true ↔ ∃ attempt, task = .probe attempt := by
  have hprobing := h.probing i task hi
  have hnot : task.Busy → o.probing i ≠ true := by
    intro hbusy
    rw [hprobing.2 hbusy]
    exact Bool.false_ne_true
  constructor
  · intro hpos
    cases resume_sources hr (by simp) (htells.traced i task hi) with
    | taken attempt bytes es hes => exact ⟨attempt, rfl⟩
    | published t r st' c hbusy hc hcomplete hstate => exact absurd hpos (hnot hbusy)
    | other t e st' t' es hes hstate hprobes hbusies hreply =>
      exact absurd hpos (hnot (hreply bytes rfl))
  · intro hprobe
    obtain ⟨attempt, rfl⟩ := hprobe
    exact hprobing.1 trivial

/-- A reply to a signer. -/
theorem own_reply_iff {role : Role} {s : System} {o : Origins} (htells : Tells s o.lines)
    (h : Sourced s o) {i : ℕ} {task : Task} {bytes : List UInt8} {r : Resumed}
    (hi : s.signers i = some task)
    (hr : resume role s.now s.statics task (.reply (some bytes)) = some r) :
    OwnBytes s o (.inl (.reply i (some bytes)) :: (settle i s r).2.map .inr)
        (.inl (.reply i (some bytes))) ↔ RepliesFill s o (.reply i (some bytes)) := by
  have hprobing := probing_iff htells h hi hr
  have hends := endsPolling_iff htells hi hr
  unfold OwnBytes RepliesFill
  dsimp only
  rw [hprobing, hends, hi]
  simp only [Option.some.injEq]
  constructor
  · intro hown
    refine ⟨fun attempt htask => hown.1 ⟨attempt, htask⟩, ?_⟩
    intro attempt poll htask hready
    exact (ready_reply_iff hready).mp (hown.2 ⟨attempt, poll, htask, hready⟩)
  · intro hfill
    constructor
    · intro hprobe
      obtain ⟨attempt, htask⟩ := hprobe
      exact hfill.1 attempt htask
    · intro hbelieved
      obtain ⟨attempt, poll, htask, hready⟩ := hbelieved
      exact (ready_reply_iff hready).mpr (hfill.2 attempt poll htask hready)

/-- A page that is given out comes from the reply to its GET F1. -/
theorem signature_own_iff {s : System} {o : Origins} (hkept : Kept s o.nonce) (h : Sourced s o)
    (hready : s.statics.state.ready = true) {report : List UInt8}
    (hreport : s.statics.state.given 0 = some report) :
    (∃ reads ∈ o.cached, Own (o.nonce[1]?.getD 0) (reads.page o.given) report) ↔
      ∀ reads ∈ o.cached, signatureLen ≤ (reads.page o.given).length := by
  have hnonce : s.statics.state.nonceId = o.nonce[1]?.getD 0 := hkept.cached.nonceId
  have hgiven := h.given
  obtain ⟨reads, hreads, -, hpages⟩ := h.cached hready
  have hown := own_iff (n := signatureLen) (by decide) Bytes.zero s.statics.state.nonceId
    (reads.page o.given)
  unfold State.given at hreport
  split at hreport
  · cases hreport
    rw [hpages, hreads, ← hnonce]
    simp only [Nat.add_zero, hgiven, Option.mem_some_iff, exists_eq_left', forall_eq']
    exact hown
  · cases hreport

/-- A "ready" F2 comes from the reply that ended polling. -/
theorem state_own_iff {s : System} {o : Origins} (hkept : Kept s o.nonce) (h : Sourced s o)
    (hready : s.statics.state.ready = true) :
    (∃ reads ∈ o.cached, Own (o.nonce[1]?.getD 0) reads.state s.statics.state.readyState.toList) ↔
      ∀ reads ∈ o.cached, stateLen ≤ reads.state.length := by
  have hnonce : s.statics.state.nonceId = o.nonce[1]?.getD 0 := hkept.cached.nonceId
  obtain ⟨reads, hreads, ⟨b, hb⟩, -⟩ := h.cached hready
  rw [hb, hreads, ← hnonce]
  simp only [Option.mem_some_iff, exists_eq_left', forall_eq']
  exact own_iff (n := stateLen) (by decide) b s.statics.state.nonceId reads.state

/-- The F3 of a device that was taken as a signer on a whole one. -/
theorem reset_own {s : System} {o : Origins} (h : Sourced s o) :
    ∀ reply ∈ o.reset, ∀ k < s.statics.state.reset.toList.length,
      s.statics.state.reset.toList[k]? = reply[k]? := by
  intro reply hreply k hk
  obtain ⟨hlen, hstored⟩ := h.reset reply hreply
  rw [hstored] at hk ⊢
  rw [Bytes.length_eq] at hk
  exact Bytes.getElem?_write _ reply hlen k hk

/-- A GET F1. -/
theorem own_signature_iff {s : System} {o : Origins} (hkept : Kept s o.nonce) (h : Sourced s o)
    (es : List (Act ⊕ Effect)) :
    OwnBytes s o es (.inr (.answered idSignature (s.statics.state.given 0))) ↔
      RepliesFill s o (.getReport idSignature) := by
  have hgiven := h.given
  have hstate : idSignature ≠ idState := by decide
  have hreset : idSignature ≠ idReset := by decide
  unfold RepliesFill
  simp only [hstate, false_implies, and_true, true_implies]
  by_cases hgives : s.statics.state.ready = true ∧ s.statics.state.nextPage + 0 < signaturePages
  · have hlt : o.given < signaturePages := by omega
    obtain ⟨page, hpage⟩ : ∃ page, s.statics.state.given 0 = some page :=
      ⟨_, dif_pos hgives⟩
    have hown := signature_own_iff hkept h hgives.1 hpage
    rw [hpage]
    unfold OwnBytes
    simp only [hgives.1, hstate, hreset, hlt, false_implies, and_true, true_implies]
    exact hown
  · have hnone : s.statics.state.given 0 = none := dif_neg hgives
    rw [hnone]
    refine iff_of_true trivial ?_
    intro hready hlt
    exact absurd ⟨hready, by omega⟩ hgives

/-- A GET F2. -/
theorem own_state_iff {s : System} {o : Origins} (hkept : Kept s o.nonce) (h : Sourced s o)
    (es : List (Act ⊕ Effect)) :
    OwnBytes s o es (.inr (.answered idState (getReport idState s.statics.state).2.2)) ↔
      RepliesFill s o (.getReport idState) := by
  have hsignature : idState ≠ idSignature := by decide
  have hreset : idState ≠ idReset := by decide
  unfold RepliesFill getReport
  rw [if_neg hreset, if_pos rfl]
  unfold OwnBytes
  simp only [hsignature, hreset, false_implies, and_true, true_and, true_implies]
  by_cases hready : s.statics.state.ready = true
  · simp only [hready, true_implies, if_true]
    exact state_own_iff hkept h hready
  · exact iff_of_true (fun hr => absurd hr hready) fun hr => absurd hr hready

/-- The answer to a GET_REPORT. -/
theorem own_answer_iff {s : System} {o : Origins} (hkept : Kept s o.nonce) (h : Sourced s o)
    (es : List (Act ⊕ Effect)) (id : UInt8) :
    OwnBytes s o es (.inr (.answered id (getReport id s.statics.state).2.2)) ↔
      RepliesFill s o (.getReport id) := by
  by_cases hsig : id = idSignature
  · subst hsig
    rw [getReport_signature hkept.cached.nextPage_le]
    exact own_signature_iff hkept h es
  · by_cases hst : id = idState
    · subst hst
      exact own_state_iff hkept h es
    · have hfills : RepliesFill s o (.getReport id) :=
        fun _ => ⟨fun heq => absurd heq hsig, fun heq => absurd heq hst⟩
      refine iff_of_true ?_ hfills
      unfold getReport
      rw [if_neg hst, if_neg hsig]
      split
      · exact ⟨fun heq => absurd heq hsig, fun heq => absurd heq hst, fun _ => reset_own h⟩
      · trivial

theorem step_own_iff {role : Role} {s t : System} {o : Origins} {a : Act}
    {es : List (Act ⊕ Effect)} (htells : Tells s o.lines) (hkept : Kept s o.nonce)
    (h : Sourced s o) (hstep : (machine role).recorded.step s a = some (t, es)) :
    (∀ e ∈ es, OwnBytes s o es e) ↔ ∀ b, .inl b ∈ es → RepliesFill s o b := by
  obtain ⟨fs, hfs, rfl⟩ := Machine.recorded_step.mp hstep
  have hact : (∀ b, .inl b ∈ (.inl a :: fs.map .inr : List (Act ⊕ Effect)) → RepliesFill s o b) ↔
      RepliesFill s o a := by simp
  rw [hact, List.forall_mem_cons]
  have hquiet : (∀ f ∈ fs, ∀ id report, f ≠ .answered id (some report)) →
      ((∀ e ∈ fs.map Sum.inr, OwnBytes s o (.inl a :: fs.map .inr) e) ↔ True) := by
    intro hfs
    refine iff_true_intro ?_
    intro e he
    obtain ⟨f, hf, rfl⟩ := List.mem_map.mp he
    exact own_silent s o _ (hfs f hf)
  cases acted hfs with
  | elapse ms => simp [OwnBytes, RepliesFill]
  | get id hidle =>
    by_cases hid : id = idReset
    · subst hid
      obtain ⟨q, f, heq, hf⟩ := consoleGet_reset s
      have hown := own_answer_iff hkept h
        (.inl (.getReport idReset) :: (consoleGet idReset s).2.map .inr) idReset
      have hanswer : (getReport idReset s.statics.state).2.2 =
          some s.statics.state.reset.toList := rfl
      rw [heq, hanswer] at hown
      rw [heq, ← hown]
      rcases hf with rfl | rfl <;> simp [OwnBytes]
    · have hown := own_answer_iff hkept h
        (.inl (.getReport id) :: (consoleGet id s).2.map .inr) id
      rw [consoleGet_other hid] at hown ⊢
      rw [← hown, List.map_cons, List.map_nil, List.forall_mem_singleton]
      exact and_iff_right trivial
  | ignored id data => simp [OwnBytes, RepliesFill]
  | nonceSet data hidle => simp [OwnBytes, RepliesFill]
  | send data hcon t es hsend =>
    obtain ⟨-, -, hes⟩ := send_eq hsend
    rcases hes with rfl | rfl <;> simp [OwnBytes, RepliesFill]
  | attach i hi => simp [OwnBytes, RepliesFill]
  | detach i task hi => simp [OwnBytes, RepliesFill]
  | receive i cmd q hi hq =>
    rw [hquiet (by simp)]
    simp [OwnBytes, RepliesFill]
  | woke a i task e r ha hi hr =>
    rw [hquiet ?_, and_true]
    · rcases Act.ends_eq_some.mp ha with ⟨rfl, rfl⟩ | ⟨reply, rfl, rfl⟩
      · exact Iff.rfl
      · cases reply with
        | none => exact Iff.rfl
        | some bytes => exact own_reply_iff htells h hi hr
    · intro f hf id report heq
      subst heq
      exact settle_silent i s r _ hf

theorem sourced_init : Sourced System.init Origins.init :=
  ⟨rfl, fun i t hi => (by cases hi), fun reply hr => (by cases hr), fun hready => (by cases hready)⟩

/-- In every run the console is given the signer's own bytes, if and only if every reply
is as long as it has to be. -/
theorem own_bytes_iff (role : Role) (as : List Act) :
    (machine role).recorded.Along Origins.watch (fun s o es _ => ∀ e ∈ es, OwnBytes s o es e)
        System.init Origins.init as ↔
      (machine role).recorded.Along Origins.watch
        (fun s o es _ => ∀ a, .inl a ∈ es → RepliesFill s o a) System.init Origins.init as := by
  apply Machine.along_iff (fun s o => Tells s o.lines ∧ Kept s o.nonce ∧ Sourced s o)
  · intro s o a es t hi hstep hown
    obtain ⟨htells, hkept, h⟩ := hi
    refine ⟨?_, ?_, sourced_step htells hkept h hstep hown⟩
    · rw [watch_lines]
      exact (tells_step htells hstep).1
    · obtain ⟨fs, hfs, rfl⟩ := Machine.recorded_step.mp hstep
      rw [watch_nonce]
      exact (kept_step hkept (stepped hfs)).kept
  · intro s o a es t hi hstep
    exact step_own_iff hi.1 hi.2.1 hi.2.2 hstep
  · exact ⟨tells_init, .init, sourced_init⟩

/-- A signer cuts the first signature page short, after its id and counter. -/
def shortPageRun : List Act :=
  [.attach 0, .reply 0 (some [0xf3, 0x00, 0x38, 0x38, 0x00, 0x00, 0x00, 0x00])] ++
  passPage 1 0 ++ passPage 1 1 ++ passPage 1 2 ++ passPage 1 3 ++ passPage 1 4 ++
  [.reply 0 (some ([idState, 0x04, stateSigning] ++ List.replicate 13 0)), .elapse 20, .timer 0,
    .reply 0 (some ([idState, 0x04, stateReady] ++ List.replicate 13 0)),
    .reply 0 (some [idSignature, 0x04])] ++
  (List.range 18).map (fun page => .reply 0 (some (signaturePage (page + 1)))) ++
  [.getReport idSignature]

theorem padded_page_given :
    ((machine .wheel).recorded.run System.init shortPageRun).isSome = true ∧
      ¬ (machine .wheel).recorded.Along Origins.watch
        (fun s o es _ => ∀ e ∈ es, OwnBytes s o es e) System.init Origins.init shortPageRun := by
  decide +kernel

end WheelBridge.Auth
