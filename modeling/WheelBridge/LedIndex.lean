import WheelBridge.AnswerMatching
import WheelBridge.RevLights

/-!
Whose feature index a rev-light command carries. The index outlives a session: one whose own
query is not answered uses the index that another wheel gave.
-/
namespace WheelBridge

/-- What the wheels have told of their LED effects feature. -/
structure LedWatch where
  exchange : Exchange
  /-- The nonzero index that the wheel of this session returned for it. -/
  index : Option UInt8
  /-- A nonzero index has been taken for it, in any session. -/
  stored : Bool

namespace LedWatch

def init : LedWatch := ⟨Exchange.init, none, false⟩

/-- `getFeature(0x807a)` returns a nonzero index. -/
def stores (msg : List UInt8) (answer : Option (Bytes 20)) : Bool :=
  msg = Query.ledFeature.msg ∧ answer.any fun a => a.byte 4 ≠ 0

/-- The answer is the wheel's own to the request in hand. -/
def own (m : Exchange) (answer : Option (Bytes 20)) : Bool :=
  answer.isSome ∧ m.answers (m.requests.length - 1) = answer

def watch (m : LedWatch) (e : BridgeEffect) : LedWatch where
  exchange := m.exchange.watch e
  index :=
    match e with
    | .attached => none
    | .returned msg answer =>
      if stores msg answer = true ∧ own m.exchange answer = true then answer.map fun a => a.byte 4
      else m.index
    | _ => m.index
  stored :=
    match e with
    | .returned msg answer => m.stored || stores msg answer
    | _ => m.stored

end LedWatch

/-- A rev-light command carries the index that this session's wheel returned. -/
def SendsOwnIndex (m : LedWatch) : BridgeEffect → Prop
  | .revLights msg => m.index = some (msg.getD 2 0)
  | _ => True

instance (m : LedWatch) (e : BridgeEffect) : Decidable (SendsOwnIndex m e) :=
  match e with
  | .revLights _ => inferInstanceAs (Decidable (_ = _))
  | .pullup _ | .linked _ | .queued _ | .took _ | .cleared | .inputGiven _ | .wheelInput _
  | .attached | .detached | .request _ | .message _ _ | .returned _ _ | .repeated _
  | .ffbWrite _ | .clearHalt _ | .haltCleared _ | .recoverAsked | .toggleReset => isTrue trivial

/-- When a rev-light report is taken, this session's wheel has returned an index, or no wheel
has. -/
def AsksOwnWheel (s : Bridge) (m : LedWatch) (es : List BridgeEffect) (_ : Bridge) : Prop :=
  .took .if0 ∈ es → s.asked ≠ none → m.index = none → m.stored = false

theorem Query.eq_ledFeature {q : Query} (h : q.msg = Query.ledFeature.msg) : q = .ledFeature := by
  cases q <;> simp_all [Query.msg, Query.getFeature, WheelBridge.featureSet,
    WheelBridge.trueforce, ledEffects, bridgeSwid]

theorem Query.eq_ledFeature_of_next {q : Query} {answer : Option (Bytes 20)}
    (h : q.next answer = none) : q = .ledFeature := by
  cases q with
  | ledFeature => rfl
  | featureSet | count | trueforce =>
    cases answer with
    | none => cases h
    | some a =>
      simp only [Query.next] at h
      split at h <;> cases h
  | featureId | tfFunction =>
    simp only [Query.next] at h
    split at h <;> cases h

/-- Only the end of a query changes what is known of any wheel. -/
theorem LedWatch.foldl_stored {m : LedWatch} {es : List BridgeEffect}
    (hes : ∀ e ∈ es, ∀ msg answer, e ≠ .returned msg answer) :
    (es.foldl LedWatch.watch m).stored = m.stored := by
  induction es generalizing m with
  | nil => rfl
  | cons e es ih =>
    rw [List.foldl_cons, ih fun e' he' => hes e' (List.mem_cons_of_mem e he')]
    cases e with
    | returned msg answer => exact absurd rfl (hes _ (List.mem_cons_self ..) msg answer)
    | _ => rfl

/-- Of this session's wheel, a new session does too. -/
theorem LedWatch.foldl_index {m : LedWatch} {es : List BridgeEffect}
    (hes : ∀ e ∈ es, ∀ msg answer, e ≠ .returned msg answer) (hatt : .attached ∉ es) :
    (es.foldl LedWatch.watch m).index = m.index := by
  induction es generalizing m with
  | nil => rfl
  | cons e es ih =>
    rw [List.foldl_cons, ih (fun e' he' => hes e' (List.mem_cons_of_mem e he'))
      fun he => hatt (List.mem_cons_of_mem e he)]
    cases e with
    | attached => exact absurd (List.mem_cons_self ..) hatt
    | returned msg answer => exact absurd rfl (hes _ (List.mem_cons_self ..) msg answer)
    | _ => rfl

theorem LedWatch.stores_other {q : Query} {answer : Option (Bytes 20)} (hq : q ≠ .ledFeature) :
    stores q.msg answer = false := by
  rw [Bool.eq_false_iff]
  intro h
  exact hq (Query.eq_ledFeature (of_decide_eq_true h).1)

/-- What `query_led_feature` stores is a nonzero index. -/
theorem LedWatch.ledIndex_eq (answer : Option (Bytes 20)) :
    Query.ledFeature.ledIndex answer =
      if stores Query.ledFeature.msg answer = true then answer.map fun a => a.byte 4 else none := by
  cases answer with
  | none => rfl
  | some a =>
    by_cases hzero : a.byte 4 = 0
    · simp [Query.ledIndex, stores, hzero]
    · simp [Query.ledIndex, stores, hzero]

/-- What a session knows of its wheel's index. -/
structure LedOf (p : Session) (led : UInt8) (index : Option UInt8) : Prop where
  waking : p.ep0.stage = .waking → index = none
  own : ∀ i ∈ index, led = i
  /-- Without an index of its own it has sent no command. -/
  unlit : index = none → p.revLevel = none

/-- LED_FEATURE and what is known of the wheels' indices. -/
structure LedKnown (s : Bridge) (m : LedWatch) : Prop where
  stored : m.stored = true ↔ s.ledFeature ≠ 0
  session : ∀ p, s.session = some p → LedOf p s.ledFeature m.index

/-- The task goes on. -/
theorem LedOf.frame {p p' : Session} {led : UInt8} {index : Option UInt8}
    (h : LedOf p led index) (hstage : p'.ep0.stage = .waking → p.ep0.stage = .waking)
    (hrev : index = none → p.revLevel = none → p'.revLevel = none) : LedOf p' led index where
  waking hw := h.waking (hstage hw)
  own := h.own
  unlit hnone := hrev hnone (h.unlit hnone)

namespace LedKnown

variable {s t : Bridge} {m m' : LedWatch} {p p' : Session}

/-- The EP0 task moves, and nothing becomes known. -/
theorem task (h : LedKnown s m) (hs : s.session = some p) (ht : t.session = some p')
    (hindex : m'.index = m.index) (hstored : m'.stored = m.stored)
    (hled : t.ledFeature = s.ledFeature)
    (hstage : p'.ep0.stage = .waking → p.ep0.stage = .waking)
    (hrev : m.index = none → p.revLevel = none → p'.revLevel = none) : LedKnown t m' where
  stored := by rw [hstored, hled, h.stored]
  session r hr := by
    rw [ht] at hr
    obtain rfl := Option.some.inj hr
    rw [hled, hindex]
    exact (h.session p hs).frame hstage hrev

/-- The LED query returns, and the wheel is awake. -/
theorem awake (h : LedKnown s m) (answer : Option (Bytes 20)) (hs : s.session = some p)
    (hp : p.ep0.stage = .waking) (ht : t.session = some p') (hp' : p'.ep0.stage = .serving)
    (hrev : p'.revLevel = none)
    (hled : t.ledFeature = (Query.ledFeature.ledIndex answer).getD s.ledFeature) :
    LedKnown t (m.watch (.returned Query.ledFeature.msg answer)) := by
  have hnone := (h.session p hs).waking hp
  rw [LedWatch.ledIndex_eq] at hled
  constructor
  · change (m.stored || LedWatch.stores Query.ledFeature.msg answer) = true ↔ _
    by_cases hstores : LedWatch.stores Query.ledFeature.msg answer = true
    · have hany := (of_decide_eq_true hstores).2
      cases answer with
      | none => cases hany
      | some a =>
        have hne : a.byte 4 ≠ 0 := of_decide_eq_true hany
        rw [if_pos hstores, Option.map_some, Option.getD_some] at hled
        rw [hstores, hled, Bool.or_true]
        exact iff_of_true rfl hne
    · rw [if_neg hstores, Option.getD_none] at hled
      rw [hled, ← h.stored, Bool.eq_false_iff.mpr hstores, Bool.or_false]
  · intro r hr
    rw [ht] at hr
    obtain rfl := Option.some.inj hr
    refine ⟨?_, ?_, fun _ => hrev⟩
    · intro hw
      rw [hp'] at hw
      cases hw
    · intro i hi
      change i ∈ (if _ then _ else m.index) at hi
      split at hi
      · next hstores =>
        rw [if_pos hstores.1] at hled
        rw [hled, hi, Option.getD_some]
      · rw [hnone] at hi
        cases hi

end LedKnown

theorem led_step {s t : Bridge} {m : LedWatch} {a : BridgeAct} {es : List BridgeEffect}
    (h : LedKnown s m) (hstep : bridge.step s a = some (t, es))
    (hsends : Each LedWatch.watch SendsOwnIndex m es) :
    LedKnown t (es.foldl LedWatch.watch m) := by
  rcases ep0_or_elsewhere hstep with hep0 | ⟨-, helse⟩
  · obtain ⟨p, p', hs, ht, hmove⟩ := hep0
    cases hmove with
    | waking _ _ hstage hstage' hrev hled hes =>
      have hother : ∀ e ∈ es, ∀ msg answer, e ≠ .returned msg answer := by
        intro e he
        obtain ⟨msg, rfl⟩ := hes e he
        simp
      have hatt : .attached ∉ es := by
        intro he
        obtain ⟨msg, hmsg⟩ := hes _ he
        cases hmsg
      exact h.task hs ht (LedWatch.foldl_index hother hatt) (LedWatch.foldl_stored hother) hled
        (fun _ => hstage) fun _ hp => hrev.trans hp
    | queriesOn _ q q' answer hr hn hstage' hrev hled =>
      have hq : q ≠ .ledFeature := by
        rintro rfl
        cases hn
      have hindexed : q.ledIndex answer = none := by
        cases q with
        | ledFeature => exact absurd rfl hq
        | _ => rfl
      have hstores : LedWatch.stores q.msg answer = false := LedWatch.stores_other hq
      rw [hindexed] at hled
      refine h.task hs ht ?_ ?_ hled (fun _ => hr.stage) fun _ hp => hrev.trans hp
      · simp [LedWatch.watch, hstores]
      · simp [LedWatch.watch, hstores]
    | awake _ q answer hr hn hstage' hrev hled =>
      obtain rfl := Query.eq_ledFeature_of_next hn
      exact h.awake answer hs hr.stage ht hstage' hrev hled
    | serves _ _ hstage hstage' hrev hled hes =>
      have hother : ∀ e ∈ es, ∀ msg answer, e ≠ .returned msg answer := by
        rintro e he msg answer rfl
        cases (hes _ he).1
      have hatt : .attached ∉ es := fun he => (hes _ he).2 rfl
      refine h.task hs ht (LedWatch.foldl_index hother hatt) (LedWatch.foldl_stored hother) hled
        ?_ fun _ hp => hrev.trans hp
      rw [hstage']
      exact Ep0.Stage.noConfusion
    | ignores report q hstage hq hc hstage' hrev hled
    | lit ok hstage hstage' hrev hled =>
      refine h.task hs ht rfl rfl hled ?_ fun _ hp => hrev.trans hp
      rw [hstage']
      exact Ep0.Stage.noConfusion
    | lights report q lit msg hstage hq hc hstage' hrev hled =>
      refine h.task hs ht rfl rfl hled ?_ ?_
      · rw [hstage']
        exact Ep0.Stage.noConfusion
      · intro hnone
        have hown : m.index = some (msg.getD 2 0) := hsends.2.1
        rw [hnone] at hown
        cases hown
  · have hother : ∀ e ∈ es, ∀ msg answer, e ≠ .returned msg answer := by
      rintro e he msg answer rfl
      cases helse.effects _ he
    refine ⟨?_, ?_⟩
    · rw [LedWatch.foldl_stored hother, helse.led, h.stored]
    · intro r hr
      rw [helse.led]
      rcases helse.session r hr with ⟨rfl, ep, rfl⟩ | ⟨hatt, p, hs, hep0, hrev⟩
      · exact ⟨fun _ => rfl, fun i hi => (by cases hi), fun _ => rfl⟩
      · rw [LedWatch.foldl_index hother hatt]
        exact (h.session p hs).frame (by rw [hep0]; exact id) fun _ hp => hrev.trans hp

theorem sends_quiet {m : LedWatch} {es : List BridgeEffect}
    (hes : ∀ e ∈ es, ∀ msg, e ≠ .revLights msg) : Each LedWatch.watch SendsOwnIndex m es := by
  refine Each.of_forall ?_ m
  intro e he m'
  cases e with
  | revLights msg => exact absurd rfl (hes _ he msg)
  | _ => trivial

/-- A step that takes no report and sends no command. -/
theorem own_quiet {s t : Bridge} {m : LedWatch} {es : List BridgeEffect}
    (hes : ∀ e ∈ es, e ≠ .took .if0 ∧ ∀ msg, e ≠ .revLights msg) :
    Each LedWatch.watch SendsOwnIndex m es ↔ AsksOwnWheel s m es t :=
  iff_of_true (sends_quiet fun e he => (hes e he).2) fun htook => absurd rfl (hes _ htook).1

theorem own_step_iff {s t : Bridge} {m : LedWatch} {a : BridgeAct} {es : List BridgeEffect}
    (h : LedKnown s m) (hstep : bridge.step s a = some (t, es)) :
    Each LedWatch.watch SendsOwnIndex m es ↔ AsksOwnWheel s m es t := by
  rcases ep0_or_elsewhere hstep with hep0 | ⟨-, helse⟩
  · obtain ⟨p, p', hs, -, hmove⟩ := hep0
    have hp := h.session p hs
    cases hmove with
    | waking _ _ _ _ _ _ hes =>
      apply own_quiet
      intro e he
      obtain ⟨msg, rfl⟩ := hes e he
      simp
    | queriesOn | awake | lit => exact own_quiet (by simp)
    | serves _ _ _ _ _ _ hes =>
      apply own_quiet
      intro e he
      have hof := (hes e he).1
      refine ⟨?_, ?_⟩
      · rintro rfl
        cases hof
      · rintro msg rfl
        cases hof
    | ignores report q hstage hq hc =>
      refine iff_of_true (sends_quiet (by simp)) ?_
      intro _ hasked hnone
      rw [Bridge.asked, hq, Option.bind_some] at hasked
      obtain ⟨lit, hlit⟩ := Option.ne_none_iff_exists'.mp hasked
      rw [Bool.eq_false_iff, ne_eq, h.stored, not_not]
      by_contra hled
      have hlast := revCommand_eq_none hlit hc hled
      rw [hp.unlit hnone] at hlast
      cases hlast
    | lights report q lit msg hstage hq hc =>
      obtain ⟨-, hlit, hled, -, hindex⟩ := levelSent_revCommand hc
      constructor
      · intro hsends _ _ hnone
        have hown : m.index = some (msg.getD 2 0) := hsends.2.1
        rw [hnone] at hown
        cases hown
      · intro hasks
        have hasked : s.asked ≠ none := by
          rw [Bridge.asked, hq, Option.bind_some, hlit]
          exact Option.some_ne_none lit
        cases hown : m.index with
        | none =>
          have hstored := hasks (List.mem_cons_self ..) hasked hown
          rw [h.stored.mpr hled] at hstored
          cases hstored
        | some i =>
          have hi : s.ledFeature = i := hp.own i hown
          refine ⟨trivial, ?_, trivial⟩
          change m.index = some (msg.getD 2 0)
          rw [hown, hindex, hi]
  · apply own_quiet
    intro e he
    have hof := helse.effects e he
    refine ⟨?_, ?_⟩
    · rintro rfl
      cases hof
    · rintro msg rfl
      cases hof

/-- Every rev-light command carries the index that its session's wheel returned, if and only
if each rev-light report is taken in a session whose wheel has returned one, or before any
wheel has. -/
theorem own_index_iff (as : List BridgeAct) :
    bridge.Along LedWatch.watch (fun _ m es _ => Each LedWatch.watch SendsOwnIndex m es)
        Bridge.init LedWatch.init as ↔
      bridge.Along LedWatch.watch AsksOwnWheel Bridge.init LedWatch.init as := by
  apply Machine.along_iff LedKnown
  · intro s m a es t h hstep hsends
    exact led_step h hstep hsends
  · intro s m a es t h hstep
    exact own_step_iff h hstep
  · exact ⟨iff_of_false Bool.noConfusion fun h => h rfl, fun p hp => by cases hp⟩

/-- A wheel with LED effects goes away; the next one has none. -/
def otherWheelRun : List BridgeAct :=
  litWakeUp 0x03 ++ [.follow, .detach] ++ wakeUp 0x03 ++
    [.if0Packet [0x30, 0xf8, 0x12, 0x01], .ep0If0]

theorem other_wheels_index_sent :
    (bridge.run Bridge.init otherWheelRun).isSome = true ∧
      ¬ bridge.Along LedWatch.watch (fun _ m es _ => Each LedWatch.watch SendsOwnIndex m es)
        Bridge.init LedWatch.init otherWheelRun := by
  decide +kernel

end WheelBridge
