import WheelBridge.BridgeSteps

/-!
What a wheel is sent of the console's old connection. The queues to the wheel outlive
both the connection and the wheel; they are cleared when the device goes back on the
bus, while a new session takes from them as soon as its wheel is enumerated.
-/
namespace WheelBridge

structure Traffic where
  /-- How often the device has gone off the bus. -/
  offs : ℕ
  onBus : Bool
  /-- For each message queued, how often it had when the message was queued. -/
  queues : OutQueue → List ℕ
  /-- The same for the message taken last. -/
  inHand : Option ℕ
  /-- The same for the start of the session. -/
  began : ℕ

namespace Traffic

def init : Traffic := ⟨0, false, fun _ => [], none, 0⟩

def watch (m : Traffic) : BridgeEffect → Traffic
  | .pullup on => { m with onBus := on, offs := if on then m.offs else m.offs + 1 }
  | .queued q => { m with queues := Function.update m.queues q (m.queues q ++ [m.offs]) }
  | .took q =>
    { m with
      inHand := (m.queues q).head?
      queues := Function.update m.queues q (m.queues q).tail }
  | .cleared => { m with queues := fun _ => [] }
  | .attached => { m with began := m.offs }
  | _ => m

end Traffic

/-- Nothing that was queued before an off-bus period is sent to the wheel by a session
started after that period began. -/
def SendsFresh (m : Traffic) : BridgeEffect → Prop
  | .repeated _ | .revLights _ | .ffbWrite _ => ∃ k ∈ m.inHand, m.began ≤ k
  | _ => True

/-- A session started while the device is off the bus sends, for as long as it is, only
what was queued since. -/
def SendsNoLeftover (m : Traffic) : BridgeEffect → Prop
  | .repeated _ | .revLights _ | .ffbWrite _ =>
    m.onBus = false → m.began = m.offs → ∀ k ∈ m.inHand, k = m.offs
  | _ => True

instance (m : Traffic) (e : BridgeEffect) : Decidable (SendsFresh m e) :=
  match e with
  | .repeated _ | .revLights _ | .ffbWrite _ =>
    inferInstanceAs (Decidable (∃ k ∈ m.inHand, m.began ≤ k))
  | .pullup _ | .linked _ | .queued _ | .took _ | .cleared | .inputGiven _ | .wheelInput _
  | .attached | .detached | .request _ | .message _ _ | .returned _ _ | .clearHalt _
  | .haltCleared _ | .recoverAsked | .toggleReset => isTrue trivial

def Bridge.queueLength (s : Bridge) : OutQueue → ℕ
  | .control => s.controlOut.items.length
  | .ffb => s.ffbOut.items.length
  | .if0 => s.if0Out.items.length

/-- A queue's message changes the length of no other queue. -/
theorem otherQueues {s t : Bridge} {q : OutQueue}
    (hcontrol : q ≠ .control → t.controlOut = s.controlOut)
    (hffb : q ≠ .ffb → t.ffbOut = s.ffbOut) (hif0 : q ≠ .if0 → t.if0Out = s.if0Out) :
    ∀ r, r ≠ q → t.queueLength r = s.queueLength r := by
  intro r hr
  cases r with
  | control => rw [Bridge.queueLength, Bridge.queueLength, hcontrol hr.symm]
  | ffb => rw [Bridge.queueLength, Bridge.queueLength, hffb hr.symm]
  | if0 => rw [Bridge.queueLength, Bridge.queueLength, hif0 hr.symm]

/-- What may be in the queues: on the bus, messages of this connection; off it, also some
of the connection before. -/
structure Queued (s : Bridge) (m : Traffic) : Prop where
  onBus : m.onBus = s.follow.onBus
  lengths : ∀ q, (m.queues q).length = s.queueLength q
  boot : s.follow = .boot → m.offs = 0
  current : m.onBus = true → ∀ q, ∀ k ∈ m.queues q, k = m.offs
  recent : ∀ q, ∀ k ∈ m.queues q, k ≤ m.offs ∧ m.offs ≤ k + 1
  began : m.began ≤ m.offs

namespace Queued

variable {s t : Bridge} {m : Traffic}

theorem frame (h : Queued s m) (ht : t.follow = s.follow) (hq : t.queueLength = s.queueLength) :
    Queued t m where
  onBus := by rw [ht, h.onBus]
  lengths := by
    rw [hq]
    exact h.lengths
  boot := by
    rw [ht]
    exact h.boot
  current := h.current
  recent := h.recent
  began := h.began

/-- A message is queued. -/
theorem queue (h : Queued s m) (q : OutQueue) (ht : t.follow = s.follow)
    (hq : t.queueLength q = s.queueLength q + 1)
    (hrest : ∀ r, r ≠ q → t.queueLength r = s.queueLength r) :
    Queued t (m.watch (.queued q)) where
  onBus := by rw [ht]; exact h.onBus
  lengths := by
    apply (Function.forall_update_iff m.queues fun r l => l.length = t.queueLength r).mpr
    refine ⟨?_, fun r hr => by rw [hrest r hr, h.lengths r]⟩
    rw [List.length_append, List.length_singleton, h.lengths q, hq]
  boot := by rw [ht]; exact h.boot
  current hon := by
    apply (Function.forall_update_iff m.queues fun _ l => ∀ k ∈ l, k = m.offs).mpr
    refine ⟨?_, fun r _ => h.current hon r⟩
    intro k hk
    rcases List.mem_append.mp hk with hk | hk
    · exact h.current hon q k hk
    · exact List.mem_singleton.mp hk
  recent := by
    apply (Function.forall_update_iff m.queues
      fun _ l => ∀ k ∈ l, k ≤ m.offs ∧ m.offs ≤ k + 1).mpr
    refine ⟨?_, fun r _ => h.recent r⟩
    intro k hk
    rcases List.mem_append.mp hk with hk | hk
    · exact h.recent q k hk
    · have heq := List.mem_singleton.mp hk
      omega
  began := h.began

/-- A message is taken. -/
theorem take (h : Queued s m) (q : OutQueue) (ht : t.follow = s.follow)
    (hq : s.queueLength q = t.queueLength q + 1)
    (hrest : ∀ r, r ≠ q → t.queueLength r = s.queueLength r) :
    Queued t (m.watch (.took q)) where
  onBus := by rw [ht]; exact h.onBus
  lengths := by
    apply (Function.forall_update_iff m.queues fun r l => l.length = t.queueLength r).mpr
    refine ⟨?_, fun r hr => by rw [hrest r hr, h.lengths r]⟩
    rw [List.length_tail, h.lengths q, hq, Nat.add_sub_cancel]
  boot := by rw [ht]; exact h.boot
  current hon := by
    apply (Function.forall_update_iff m.queues fun _ l => ∀ k ∈ l, k = m.offs).mpr
    exact ⟨fun k hk => h.current hon q k (List.mem_of_mem_tail hk), fun r _ => h.current hon r⟩
  recent := by
    apply (Function.forall_update_iff m.queues
      fun _ l => ∀ k ∈ l, k ≤ m.offs ∧ m.offs ≤ k + 1).mpr
    exact ⟨fun k hk => h.recent q k (List.mem_of_mem_tail hk), fun r _ => h.recent r⟩
  began := h.began

/-- The device goes on the bus for the first time. -/
theorem boots (h : Queued s m) (hs : s.follow = .boot) (ht : t.follow = .waiting true)
    (hq : t.queueLength = s.queueLength) : Queued t (m.watch (.pullup true)) where
  onBus := by rw [ht]; rfl
  lengths := by rw [hq]; exact h.lengths
  boot hb := by rw [ht] at hb; cases hb
  current _ r k hk := by
    have hzero := h.boot hs
    have hle := (h.recent r k hk).1
    change k = m.offs
    omega
  recent := h.recent
  began := h.began

/-- The device goes off the bus; all that is queued is of the connection that ends. -/
theorem goesOff (h : Queued s m) (hs : s.follow = .waiting true) {wake : ℕ}
    (ht : t.follow = .sleeping wake) (hq : t.queueLength = s.queueLength) :
    Queued t (m.watch (.pullup false)) where
  onBus := by rw [ht]; rfl
  lengths := by rw [hq]; exact h.lengths
  boot hb := by rw [ht] at hb; cases hb
  current hon := by cases hon
  recent r k hk := by
    have hon : m.onBus = true := by rw [h.onBus, hs]; rfl
    have hk := h.current hon r k hk
    change k ≤ m.offs + 1 ∧ m.offs + 1 ≤ k + 1
    omega
  began := Nat.le_succ_of_le h.began

/-- The device goes on the bus again; the queues are cleared first. -/
theorem comesBack (h : Queued s m) (ht : t.follow = .waiting true)
    (hq : ∀ r, t.queueLength r = 0) : Queued t ((m.watch .cleared).watch (.pullup true)) where
  onBus := by rw [ht]; rfl
  lengths r := (hq r).symm
  boot hb := by rw [ht] at hb; cases hb
  current _ _ _ hk := absurd hk List.not_mem_nil
  recent _ _ hk := absurd hk List.not_mem_nil
  began := h.began

/-- The device's time off the bus is over, or a session starts. -/
theorem goesOn (h : Queued s m) (hon : t.follow.onBus = s.follow.onBus)
    (hb : t.follow = .boot → s.follow = .boot) (hq : t.queueLength = s.queueLength) {n : ℕ}
    (hn : n ≤ m.offs) : Queued t { m with began := n } where
  onBus := by rw [hon]; exact h.onBus
  lengths := by rw [hq]; exact h.lengths
  boot hboot := h.boot (hb hboot)
  current := h.current
  recent := h.recent
  began := hn

/-- A message in hand is sent fresh exactly if it is not left over. -/
theorem send_iff (h : Queued s m) (q : OutQueue) {n : ℕ} (hq : s.queueLength q = n + 1) :
    (∃ k ∈ (m.watch (.took q)).inHand, m.began ≤ k) ↔
      (m.onBus = false → m.began = m.offs → ∀ k ∈ (m.watch (.took q)).inHand, k = m.offs) := by
  obtain ⟨k, hk⟩ : ∃ k, (m.queues q).head? = some k := by
    have hlen := h.lengths q
    cases hqs : m.queues q with
    | nil =>
      rw [hqs, hq] at hlen
      cases hlen
    | cons k rest => exact ⟨k, rfl⟩
  have hmem : k ∈ m.queues q := List.mem_of_mem_head? hk
  obtain ⟨hle, hge⟩ := h.recent q k hmem
  have hbegan := h.began
  simp only [Traffic.watch, hk, Option.mem_def, Option.some.injEq, exists_eq_left', forall_eq']
  cases hon : m.onBus with
  | true =>
    have hcur := h.current hon q k hmem
    simp only [Bool.true_eq_false, false_implies, iff_true]
    omega
  | false =>
    simp only [true_implies]
    omega

end Queued

theorem traffic_step {s t : Bridge} {m : Traffic} {es : List BridgeEffect} (h : Queued s m)
    (hstep : Moved s t es) :
    Queued t (es.foldl Traffic.watch m) ∧
      (Each Traffic.watch SendsFresh m es ↔ Each Traffic.watch SendsNoLeftover m es) := by
  cases hstep with
  | boots q hq hfollow => exact ⟨h.boots hfollow rfl rfl, Iff.rfl⟩
  | linkOff q hq hfollow => exact ⟨h.goesOff hfollow rfl rfl, Iff.rfl⟩
  | linkOn q hq hfollow => exact ⟨h.comesBack rfl fun r => by cases r <;> rfl, Iff.rfl⟩
  | followWoke wake hfollow =>
    refine ⟨?_, Iff.rfl⟩
    have hon : s.follow.onBus = false := by rw [hfollow]; rfl
    exact h.goesOn (t := { s with follow := .waiting false }) hon.symm (fun hb => by cases hb)
      rfl h.began
  | attach ep hs =>
    refine ⟨?_, Iff.rfl⟩
    exact h.goesOn (t := { s with session := some (Session.start ep) }) rfl (fun hb => hb) rfl
      (Nat.le_refl m.offs)
  | queuedControl msg q hb hq =>
    have hrest := otherQueues (s := s) (t := { s with controlOut := q }) (q := .control)
      (fun h => absurd rfl h) (fun _ => rfl) fun _ => rfl
    exact ⟨h.queue .control rfl (Channel.length_trySend hq) hrest, Iff.rfl⟩
  | queuedFfb packet q hb hq =>
    have hrest := otherQueues (s := s) (t := { s with ffbOut := q }) (q := .ffb)
      (fun _ => rfl) (fun h => absurd rfl h) fun _ => rfl
    exact ⟨h.queue .ffb rfl (Channel.length_trySend hq) hrest, Iff.rfl⟩
  | queuedIf0 packet q hb hq =>
    have hrest := otherQueues (s := s) (t := { s with if0Out := q }) (q := .if0)
      (fun _ => rfl) (fun _ => rfl) fun h => absurd rfl h
    exact ⟨h.queue .if0 rfl (Channel.length_trySend hq) hrest, Iff.rfl⟩
  | repeats p msg q tick hs he hq =>
    have hlen := Channel.length_receive hq
    refine ⟨h.take .control rfl hlen (otherQueues (fun h => absurd rfl h) (fun _ => rfl)
      fun _ => rfl), ?_⟩
    simpa [SendsFresh, SendsNoLeftover, Traffic.watch] using h.send_iff .control hlen
  | ignores p report q tick hs he hq =>
    exact ⟨h.take .if0 rfl (Channel.length_receive hq) (otherQueues (fun _ => rfl)
      (fun _ => rfl) fun h => absurd rfl h), Iff.rfl⟩
  | lights p report q tick lit msg hs he hq hc =>
    have hlen := Channel.length_receive hq
    refine ⟨h.take .if0 rfl hlen (otherQueues (fun _ => rfl) (fun _ => rfl)
      fun h => absurd rfl h), ?_⟩
    simpa [SendsFresh, SendsNoLeftover, Traffic.watch] using h.send_iff .if0 hlen
  | ffbTakes p packet q hs hf hq =>
    have hlen := Channel.length_receive hq
    refine ⟨h.take .ffb rfl hlen (otherQueues (fun _ => rfl) (fun h => absurd rfl h)
      fun _ => rfl), ?_⟩
    simpa [SendsFresh, SendsNoLeftover, Traffic.watch] using h.send_iff .ffb hlen
  | message p packet =>
    obtain ⟨q, n, heq⟩ := s.hidppMessage_eq packet
    rw [heq]
    exact ⟨h.frame rfl rfl, Iff.rfl⟩
  | _ => exact ⟨h.frame rfl rfl, Iff.rfl⟩

/-- In every run, nothing stale is sent to the wheel if and only if no session started
off the bus takes and sends what was left over from the connection before. -/
theorem sends_fresh_iff (as : List BridgeAct) :
    bridge.Along Traffic.watch (fun _ m es _ => Each Traffic.watch SendsFresh m es)
        Bridge.init Traffic.init as ↔
      bridge.Along Traffic.watch (fun _ m es _ => Each Traffic.watch SendsNoLeftover m es)
        Bridge.init Traffic.init as := by
  apply Machine.along_iff Queued
  · intro s m a es t h hstep _
    exact (traffic_step h (moved hstep)).1
  · intro s m a es t h hstep
    exact (traffic_step h (moved hstep)).2
  · exact
      { onBus := rfl
        lengths := fun q => by cases q <;> rfl
        boot := fun _ => rfl
        current := fun _ _ _ hk => absurd hk List.not_mem_nil
        recent := fun _ _ hk => absurd hk List.not_mem_nil
        began := Nat.le_refl _ }

/-- A force packet of the console. -/
def forcePacket : List UInt8 := [0x01, 0x00, 0x00, 0x00, 0x01, 0x2a, 0x00, 0x60]

/-- The wheel goes away while the game sends forces, and is back before the device is on
the bus again. -/
def staleForceRun : List BridgeAct :=
  wakeUp 0x03 ++ [.follow, .detach, .ffbPacket forcePacket, .follow, .attach 0x03, .ffbTake]

theorem stale_force_written :
    (bridge.run Bridge.init staleForceRun).isSome = true ∧
      ¬ bridge.Along Traffic.watch (fun _ m es _ => Each Traffic.watch SendsFresh m es)
        Bridge.init Traffic.init staleForceRun := by
  decide +kernel

end WheelBridge
