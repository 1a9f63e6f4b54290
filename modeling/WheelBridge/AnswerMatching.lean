import WheelBridge.AwakeLink

/-!
Which request an answer is taken for. The wheel's answers come on another endpoint and
are kept in a one-place signal by their software ID alone, so an answer that comes late,
to a ping or to a query that timed out, is taken for the answer to the query in hand.
-/
namespace WheelBridge

/-- The bridge's requests of a session, by number, and the wheel's last answer to each. -/
structure Exchange where
  requests : List (List UInt8)
  answers : ℕ → Option (Bytes 20)

namespace Exchange

def init : Exchange := ⟨[], fun _ => none⟩

def watch (m : Exchange) : BridgeEffect → Exchange
  | .attached => init
  | .request msg => { m with requests := m.requests ++ [msg] }
  | .message b answers =>
    if softwareId b = bridgeSwid then
      match answers with
      | some k =>
        { m with answers := Function.update m.answers k (some (Bridge.answerBytes b)) }
      | none => m
    else m
  | _ => m

/-- The number of the request that was sent last. -/
def inHand (m : Exchange) : ℕ := m.requests.length - 1

end Exchange

/-- Bytes 1..3 (device index, feature index, function and software ID) of an answer are
those of the request. -/
def Echoes (a : Bytes 20) (msg : List UInt8) : Prop :=
  a.byte 1 = msg.getD 1 0 ∧ a.byte 2 = msg.getD 2 0 ∧ a.byte 3 = msg.getD 3 0

instance (a : Bytes 20) (msg : List UInt8) : Decidable (Echoes a msg) :=
  inferInstanceAs (Decidable (_ ∧ _))

/-- `hidpp_request` is waiting. -/
def Bridge.querying (s : Bridge) : Bool := s.session.any fun p => p.ep0.querying

/-- While a query waits, the wheel's messages with the bridge's software ID are answers to
requests of the session, in any order and with any delay; one that is no error repeats the
request's bytes. -/
def WheelAnswers (s : Bridge) (m : Exchange) : BridgeEffect → Prop
  | .message b answers =>
    s.querying = true → softwareId b = bridgeSwid → ∃ k ∈ answers, ∃ msg ∈ m.requests[k]?,
      (Bridge.answerBytes b).byte 2 = 0xff ∨ Echoes (Bridge.answerBytes b) msg
  | _ => True

/-- No late answer comes while a query waits: one that is no error is to that query. -/
def NoneLate (s : Bridge) (m : Exchange) : BridgeEffect → Prop
  | .message b answers =>
    s.querying = true → softwareId b = bridgeSwid →
      (Bridge.answerBytes b).byte 2 = 0xff ∨ answers = some m.inHand
  | _ => True

/-- What `hidpp_request` returns is the wheel's answer to its own request. -/
def ReturnsOwn (m : Exchange) : BridgeEffect → Prop
  | .returned msg (some a) =>
    m.answers m.inHand = some a ∧ m.requests.getLast? = some msg ∧ Echoes a msg
  | _ => True

instance (s : Bridge) (m : Exchange) (e : BridgeEffect) : Decidable (WheelAnswers s m e) := by
  unfold WheelAnswers
  split <;> infer_instance

instance (s : Bridge) (m : Exchange) (e : BridgeEffect) : Decidable (NoneLate s m e) := by
  unfold NoneLate
  split <;> infer_instance

instance (m : Exchange) (e : BridgeEffect) : Decidable (ReturnsOwn m e) := by
  unfold ReturnsOwn
  split <;> infer_instance

def Ep0.Querying (e : Ep0) (q : Query) : Prop :=
  e = .querySend q ∨ ∃ deadline, e = .queryWait q deadline

/-- What the exchange knows of the request in hand, and of the signal while it waits: an
answer in it that is no error is the last one to that request. -/
structure Exchanging (s : Bridge) (m : Exchange) : Prop where
  request : ∀ p q, s.session = some p → p.ep0.Querying q → m.requests.getLast? = some q.msg
  signal : ∀ p q a, s.session = some p → p.ep0.Querying q → s.bridgeAnswer = some a →
    a.byte 2 = 0xff ∨ m.answers m.inHand = some a ∧ Echoes a q.msg

theorem not_querying {e : Ep0} (hs : ∀ q, e ≠ .querySend q) (hw : ∀ q d, e ≠ .queryWait q d)
    (q : Query) : ¬ e.Querying q := by
  intro hq
  rcases hq with heq | ⟨d, heq⟩
  · exact hs q heq
  · exact hw q d heq

theorem Ep0.Moves.querying {s : Bridge} {e e' : Ep0} (h : Ep0.Moves s e e') {q : Query}
    (hq : e'.Querying q) : e.Querying q := by
  cases h with
  | querySent q' deadline =>
    rcases hq with heq | ⟨d, heq⟩
    · cases heq
    · cases heq
      exact Or.inl rfl
  | setIdle | pinged | pingsEnd | control | revLights | status | getStatus =>
    exact absurd hq (not_querying (by simp) (by simp) q)

namespace Exchanging

variable {s t : Bridge} {m : Exchange}

/-- No query begins. -/
theorem frame (h : Exchanging s m) (hb : t.bridgeAnswer = s.bridgeAnswer)
    (ht : ∀ p' q, t.session = some p' → p'.ep0.Querying q →
      ∃ p, s.session = some p ∧ p.ep0.Querying q) : Exchanging t m where
  request p' q hp hq := by
    obtain ⟨p, hs, hpq⟩ := ht p' q hp hq
    exact h.request p q hs hpq
  signal p' q a hp hq ha := by
    obtain ⟨p, hs, hpq⟩ := ht p' q hp hq
    rw [hb] at ha
    exact h.signal p q a hs hpq ha

/-- The EP0 task stays where it is, or goes on within the same query. -/
theorem ep0 (h : Exchanging s m) {p p' : Session} (hs : s.session = some p)
    (ht : t.session = some p') (he : ∀ q, p'.ep0.Querying q → p.ep0.Querying q)
    (hb : t.bridgeAnswer = s.bridgeAnswer) : Exchanging t m := by
  apply h.frame hb
  intro r q hr hq
  rw [ht] at hr
  obtain rfl := Option.some.inj hr
  exact ⟨p, hs, he q hq⟩

/-- No query waits. -/
theorem idle (ht : ∀ p', t.session = some p' → ∀ q, ¬ p'.ep0.Querying q) : Exchanging t m where
  request p' q hp hq := absurd hq (ht p' hp q)
  signal p' q _ hp hq := absurd hq (ht p' hp q)

/-- A query is sent; the signal was reset. -/
theorem send (msg : List UInt8)
    (ht : ∀ p' q, t.session = some p' → p'.ep0.Querying q → q.msg = msg ∧ t.bridgeAnswer = none) :
    Exchanging t (m.watch (.request msg)) where
  request p' q hp hq := by
    rw [(ht p' q hp hq).1]
    exact List.getLast?_concat ..
  signal p' q a hp hq ha := by
    rw [(ht p' q hp hq).2] at ha
    cases ha

/-- A message of the wheel. While a query waits, an answer in the signal is an error, or the
one to the query. -/
theorem message (h : Exchanging s m) (packet : Packet) (answers : Option ℕ)
    (henv : WheelAnswers s m (.message packet.bytes answers))
    (hlate : NoneLate s m (.message packet.bytes answers)) :
    Exchanging (s.hidppMessage packet) (m.watch (.message packet.bytes answers)) := by
  obtain ⟨n, d, heq⟩ := s.hidppMessage_eq packet
  rw [heq]
  by_cases hswid : softwareId packet.bytes = bridgeSwid
  · have hrequests : (m.watch (.message packet.bytes answers)).requests = m.requests := by
      simp only [Exchange.watch, if_pos hswid]
      cases answers <;> rfl
    refine ⟨fun p q hp hq => ?_, fun p q a hp hq ha => ?_⟩
    · rw [hrequests]
      exact h.request p q hp hq
    · have ha' : Bridge.answerBytes packet.bytes = a := by simpa [hswid] using ha
      subst ha'
      have hquerying : s.querying = true := by
        have hs : s.session = some p := hp
        simp only [Bridge.querying, hs, Option.any_some]
        rcases hq with heq | ⟨d, heq⟩ <;>
          · rw [heq]
            rfl
      obtain ⟨k, hk, msg, hmsg, hor⟩ := henv hquerying hswid
      rcases hlate hquerying hswid with herr | hown
      · exact .inl herr
      · have hanswers : answers = some k := hk
        obtain rfl : k = m.inHand := Option.some.inj (hanswers.symm.trans hown)
        rcases hor with herr | hecho
        · exact .inl herr
        · rw [Exchange.inHand, ← List.getLast?_eq_getElem?, h.request p q hp hq] at hmsg
          obtain rfl := Option.some.inj hmsg
          refine .inr ⟨?_, hecho⟩
          rw [Exchange.inHand, hrequests]
          simp only [Exchange.watch, if_pos hswid, hown]
          exact Function.update_self ..
  · simp only [Exchange.watch, if_neg hswid]
    exact h.frame rfl fun p q hp hq => ⟨p, hp, hq⟩

/-- What is returned is the own answer. -/
theorem returned (h : Exchanging s m) {p : Session} (hs : s.session = some p) {q : Query}
    {answer : Option (Bytes 20)} (hr : Returns s p q answer) :
    ReturnsOwn m (.returned q.msg answer) := by
  cases hr with
  | failed | timedOut => trivial
  | answered deadline a he ha =>
    by_cases herr : a.byte 2 = 0xff
    · rw [if_pos herr]
      trivial
    · rw [if_neg herr]
      have hq : p.ep0.Querying q := .inr ⟨deadline, he⟩
      obtain ⟨hans, hecho⟩ := (h.signal p q a hs hq ha).resolve_left herr
      exact ⟨hans, h.request p q hs hq, hecho⟩

end Exchanging

theorem exchange_step {s t : Bridge} {m : Exchange} {es : List BridgeEffect}
    (h : Exchanging s m) (hstep : Moved s t es)
    (henv : Each Exchange.watch (WheelAnswers s) m es)
    (hlate : Each Exchange.watch (NoneLate s) m es) :
    Exchanging t (es.foldl Exchange.watch m) ∧ Each Exchange.watch ReturnsOwn m es := by
  cases hstep with
  | attach ep hs =>
    refine ⟨Exchanging.idle ?_, trivial, trivial⟩
    intro p hp
    obtain rfl := Option.some.inj hp
    exact not_querying (by simp [Session.start]) (by simp [Session.start])
  | detach p hs => exact ⟨Exchanging.idle fun _ hp => (by cases hp), trivial, trivial, trivial⟩
  | message p packet answers hs =>
    exact ⟨h.message packet answers henv.1 hlate.1, trivial, trivial⟩
  | ep0 p e hs hm => exact ⟨h.ep0 hs rfl (fun _ => hm.querying) rfl, trivial⟩
  | wakes p iface hs | pingsOn p start tick hs =>
    refine ⟨Exchanging.send ping ?_, trivial, trivial⟩
    intro r q hr hq
    obtain rfl := Option.some.inj hr
    exact absurd hq (not_querying (by simp) (by simp) q)
  | queries p wake hs =>
    refine ⟨Exchanging.send Query.featureSet.msg ?_, trivial, trivial⟩
    intro r q hr hq
    obtain rfl := Option.some.inj hr
    rcases hq with heq | ⟨d, heq⟩ <;> cases heq
    exact ⟨rfl, rfl⟩
  | queriesOn p q q' answer led hs hr =>
    refine ⟨Exchanging.send q'.msg ?_, h.returned hs hr, trivial, trivial⟩
    intro r q'' hr' hq
    obtain rfl := Option.some.inj hr'
    rcases hq with heq | ⟨d, heq⟩ <;> cases heq
    exact ⟨rfl, rfl⟩
  | awake p q answer b led hs hr =>
    refine ⟨Exchanging.idle ?_, h.returned hs hr, trivial, trivial⟩
    intro r hr'
    obtain rfl := Option.some.inj hr'
    exact not_querying (by simp) (by simp)
  | repeats p msg q tick hs | lights p report q tick lit msg hs =>
    refine ⟨Exchanging.idle ?_, trivial, trivial, trivial⟩
    intro r hr
    obtain rfl := Option.some.inj hr
    exact not_querying (by simp) (by simp)
  | clears p ep tick hs | cleared p ep tick ok hs =>
    refine ⟨Exchanging.idle ?_, trivial, trivial⟩
    intro r hr
    obtain rfl := Option.some.inj hr
    exact not_querying (by simp) (by simp)
  | polls p i j f hs | ffb p f hs => exact ⟨h.ep0 hs rfl (fun _ hq => hq) rfl, trivial⟩
  | ffbTakes p packet q hs | recovers p hs | recovered p deadline hs =>
    exact ⟨h.ep0 hs rfl (fun _ hq => hq) rfl, trivial, trivial, trivial⟩
  | givesUp p deadline hs =>
    exact ⟨h.ep0 hs rfl (fun _ hq => hq) rfl, trivial, trivial⟩
  | _ => exact ⟨h.frame rfl fun r _ hr hq => ⟨r, hr, hq⟩, by simp [ReturnsOwn]⟩

/-- In every run in which the wheel, while a query waits, only answers what it was asked, and
in which no answer to an earlier request comes then, every answer returned is that to its own
request. -/
theorem returns_own (as : List BridgeAct)
    (henv : bridge.Along Exchange.watch
      (fun s m es _ => Each Exchange.watch (WheelAnswers s) m es) Bridge.init Exchange.init as)
    (hlate : bridge.Along Exchange.watch
      (fun s m es _ => Each Exchange.watch (NoneLate s) m es) Bridge.init Exchange.init as) :
    bridge.Along Exchange.watch (fun _ m es _ => Each Exchange.watch ReturnsOwn m es)
      Bridge.init Exchange.init as := by
  refine Machine.along_of_invariant Exchanging ?_ as Bridge.init Exchange.init ?_
    (Machine.along_and as _ _ henv hlate)
  · intro s m a es t h hstep hcond
    exact exchange_step h (moved hstep) hcond.1 hcond.2
  · exact ⟨fun p _ hp => (by cases hp), fun p _ _ hp => (by cases hp)⟩

theorem woken_wheel_answers_own :
    (bridge.run Bridge.init (wakeUp 0x03)).isSome = true ∧
      bridge.Along Exchange.watch (fun _ m es _ => Each Exchange.watch ReturnsOwn m es)
        Bridge.init Exchange.init (wakeUp 0x03) :=
  ⟨by decide +kernel, returns_own (wakeUp 0x03) (by decide +kernel) (by decide +kernel)⟩

/-- Two pings are sent before the wheel answers; the second answer comes when the first
query is waiting. -/
def latePingRun : List BridgeAct :=
  [.attach 0x03, .ep0Done true, .ep0Done true, .ep0Done true, .ep0Done true, .elapse 20,
    .ep0Timer, .ep0Done true, hidppAnswer 0x00 0x1b [0x04, 0x02, 0x5a] 0, .elapse 20, .ep0Timer,
    .elapse 100, .ep0Timer, .ep0Done true, hidppAnswer 0x00 0x1b [0x04, 0x02, 0x5a] 1, .ep0Answer]

theorem late_ping_taken_for_feature :
    (bridge.run Bridge.init latePingRun).isSome = true ∧
      bridge.Along Exchange.watch (fun s m es _ => Each Exchange.watch (WheelAnswers s) m es)
        Bridge.init Exchange.init latePingRun ∧
      ¬ bridge.Along Exchange.watch (fun _ m es _ => Each Exchange.watch ReturnsOwn m es)
        Bridge.init Exchange.init latePingRun := by
  decide +kernel

end WheelBridge
