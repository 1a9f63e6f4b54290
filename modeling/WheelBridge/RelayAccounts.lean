import WheelBridge.RelayBooks

/-!
What the relay passes on and what its statistics say of it. On every endpoint the packets
that come out are among those that came in, unchanged and in order, and each packet that
came in is accounted for; the numbers of the log lines, with what the counters still hold,
add up to the packets.
-/
namespace WheelBridge

/-- What has come to the relay and left it, how often each counter's event happened and what
was logged of it, and the class requests that found their queue full. -/
structure RelayRecord where
  lines : Conveyor RelayPath (List UInt8)
  meter : Meter RelayCounter
  unqueued : ℕ

namespace RelayRecord

def empty : RelayRecord := ⟨Conveyor.empty, Meter.zero, 0⟩

def watchLines (m : Conveyor RelayPath (List UInt8)) :
    RelayEffect → Conveyor RelayPath (List UInt8)
  | .received path data taken => m.arrive path data taken
  | .handed path packet => m.leave path packet true
  | .lost path packet => m.leave path packet false
  | .handler _ | .repeated _ _ | .logged _ _ => m

def watchMeter (m : Meter RelayCounter) : RelayEffect → Meter RelayCounter
  | .logged c n => m.log c n
  | e => m.note e.counters

def watchUnqueued (n : ℕ) : RelayEffect → ℕ
  | .handler (.path (.answered _ _ _ .counted)) => n + 1
  | _ => n

def watch (m : RelayRecord) (e : RelayEffect) : RelayRecord :=
  ⟨watchLines m.lines e, watchMeter m.meter e, watchUnqueued m.unqueued e⟩

/-- The packets that found their queue full. -/
def refusals (m : Conveyor RelayPath (List UInt8)) : ℕ :=
  (m.refused .if0In).length + (m.refused .if0Out).length + (m.refused .hidppIn).length +
    (m.refused .ffbIn).length + (m.refused .ffbOut).length

end RelayRecord

/-- The record of a run that ended with the books `b`. -/
structure Recorded (b : RelayBooks) (m : RelayRecord) : Prop where
  balanced : m.lines.Balanced b.held
  reads : m.meter.Reads b.counts
  received : ∀ path, ∀ c ∈ path.receivedBy, m.meter.events c = (m.lines.arrived path).length
  handed : ∀ path, m.meter.events path.handedBy = (m.lines.delivered path).length
  dropped : m.meter.events .dropped = RelayRecord.refusals m.lines + m.unqueued

section Counters

/-- A class request counts what no packet does, but for `dropped`. -/
theorem ControlEffect.count_counters (e : ControlEffect) {c : RelayCounter}
    (hset : c ≠ .hidppSetReport) (hdropped : c ≠ .dropped) : e.counters.count c = 0 := by
  rw [List.count_eq_zero]
  intro hmem
  cases e with
  | answered req data resp handed =>
    rcases List.mem_append.mp hmem with h | h
    · split at h
      · exact hset (List.mem_singleton.mp h)
      · cases h
    · split at h
      · exact hdropped (List.mem_singleton.mp h)
      · cases h
  | cleared | issued r => cases hmem

theorem RelayPath.handedBy_ne (path : RelayPath) :
    path.handedBy ≠ .hidppSetReport ∧ path.handedBy ≠ .dropped := by
  cases path <;> decide

theorem RelayPath.receivedBy_ne {path : RelayPath} {c : RelayCounter} (h : c ∈ path.receivedBy) :
    c ≠ .hidppSetReport ∧ c ≠ .dropped := by
  cases path <;> simp_all [receivedBy]

theorem RelayPath.count_receivedBy_handedBy (path path' : RelayPath) :
    path.receivedBy.count path'.handedBy = 0 := by
  cases path <;> cases path' <;> rfl

theorem RelayPath.count_receivedBy {path path' : RelayPath} {c : RelayCounter}
    (h : c ∈ path'.receivedBy) :
    path.receivedBy.count c = if path = path' then 1 else 0 := by
  cases path <;> cases path' <;> simp_all [receivedBy]

end Counters

section Effects

variable (m : Conveyor RelayPath (List UInt8)) (e : RelayEffect)

theorem delivered_watch (path : RelayPath) :
    ((RelayRecord.watchLines m e).delivered path).length =
      (m.delivered path).length + e.counters.count path.handedBy := by
  have hne := path.handedBy_ne
  cases e with
  | received p data taken =>
    have hcount : (RelayEffect.received p data taken).counters.count path.handedBy = 0 := by
      cases taken <;>
        simp [RelayEffect.counters, RelayPath.count_receivedBy_handedBy, Ne.symm hne.2]
    rw [hcount]
    rfl
  | handed p packet =>
    have hcount : (RelayEffect.handed p packet).counters.count path.handedBy =
        if p = path then 1 else 0 := by
      cases p <;> cases path <;> rfl
    rw [hcount]
    exact (m.length_delivered_leave p path packet true).trans (by simp)
  | lost p packet => exact (m.length_delivered_leave p path packet false).trans (by simp; rfl)
  | handler e =>
    cases e with
    | path e =>
      have hcount : e.counters.count path.handedBy = 0 := e.count_counters hne.1 hne.2
      exact congrArg ((m.delivered path).length + ·) hcount.symm
    | answered req resp => rfl
    | auth e => rfl
  | repeated hidpp ok =>
    have hcount : (RelayEffect.repeated hidpp ok).counters.count path.handedBy = 0 := by
      cases hidpp <;> cases ok <;> cases path <;> rfl
    exact congrArg ((m.delivered path).length + ·) hcount.symm
  | logged c n => rfl

theorem arrived_watch {path : RelayPath} {c : RelayCounter} (hc : c ∈ path.receivedBy) :
    ((RelayRecord.watchLines m e).arrived path).length =
      (m.arrived path).length + e.counters.count c := by
  have hne := RelayPath.receivedBy_ne hc
  cases e with
  | received p data taken =>
    have hcount : (RelayEffect.received p data taken).counters.count c =
        if p = path then 1 else 0 := by
      cases taken <;>
        simp [RelayEffect.counters, RelayPath.count_receivedBy hc, Ne.symm hne.2]
    rw [hcount]
    exact m.length_arrived_arrive p path data taken
  | handed p packet =>
    have hcount : (RelayEffect.handed p packet).counters.count c = 0 := by
      cases p <;> cases path <;> simp_all [RelayEffect.counters, RelayPath.receivedBy,
        RelayPath.handedBy]
    rw [hcount]
    rfl
  | lost p packet => rfl
  | handler e =>
    cases e with
    | path e =>
      have hcount : e.counters.count c = 0 := e.count_counters hne.1 hne.2
      exact congrArg ((m.arrived path).length + ·) hcount.symm
    | answered req resp => rfl
    | auth e => rfl
  | repeated hidpp ok =>
    have hcount : (RelayEffect.repeated hidpp ok).counters.count c = 0 := by
      cases hidpp <;> cases ok <;> cases path <;> simp_all [RelayEffect.counters,
        RelayPath.receivedBy]
    exact congrArg ((m.arrived path).length + ·) hcount.symm
  | logged c n => rfl

theorem dropped_watch (n : ℕ) :
    RelayRecord.refusals (RelayRecord.watchLines m e) + RelayRecord.watchUnqueued n e =
      RelayRecord.refusals m + n + e.counters.count .dropped := by
  cases e with
  | received p data taken =>
    have hcount : (RelayEffect.received p data taken).counters.count .dropped =
        if taken = false then 1 else 0 := by
      cases taken <;> cases p <;> rfl
    rw [hcount]
    simp only [RelayRecord.refusals, RelayRecord.watchLines, Conveyor.length_refused_arrive,
      RelayRecord.watchUnqueued]
    cases taken <;> cases p <;> simp <;> omega
  | handed p packet =>
    have hcount : (RelayEffect.handed p packet).counters.count .dropped = 0 := by
      cases p <;> rfl
    rw [hcount]
    rfl
  | lost p packet => rfl
  | handler e =>
    cases e with
    | path e =>
      cases e with
      | answered req data resp handed =>
        have hcount : (ControlEffect.answered req data resp handed).counters.count .dropped =
            if handed = .counted then 1 else 0 := by
          simp only [ControlEffect.counters, List.count_append]
          split <;> split <;> rfl
        change _ = RelayRecord.refusals m + n +
          (ControlEffect.answered req data resp handed).counters.count .dropped
        rw [hcount]
        cases handed <;> simp [RelayRecord.watchUnqueued, RelayRecord.watchLines]
        omega
      | cleared | issued r => rfl
    | answered req resp => rfl
    | auth e => rfl
  | repeated hidpp ok =>
    have hcount : (RelayEffect.repeated hidpp ok).counters.count .dropped = 0 := by
      cases hidpp <;> cases ok <;> rfl
    rw [hcount]
    rfl
  | logged c n => rfl

end Effects

theorem events_watch (m : Meter RelayCounter) (e : RelayEffect) (c : RelayCounter) :
    (RelayRecord.watchMeter m e).events c = m.events c + e.counters.count c := by
  cases e <;> rfl

theorem leave_eq_some {b t : RelayBooks} {path : RelayPath} {packet : List UInt8}
    (h : b.leave path packet = some t) :
    ∃ rest, b.held path = packet :: rest ∧
      { b with held := Function.update b.held path rest } = t := by
  unfold RelayBooks.leave at h
  split at h
  · cases h
  · next p rest hheld =>
    obtain ⟨rfl, heq⟩ := Option.ite_none_right_eq_some.mp h
    exact ⟨rest, hheld, Option.some.inj heq⟩

theorem recorded_enter {b t : RelayBooks} {m : RelayRecord} {e : RelayEffect} (h : Recorded b m)
    (he : b.enter e = some t) : Recorded t (m.watch e) := by
  have hbooks : (m.watch e).lines.Balanced t.held ∧ (m.watch e).meter.Reads t.counts := by
    cases e with
    | received path data taken =>
      cases taken with
      | true =>
        cases he
        have hcounters : (RelayEffect.received path data true).counters = path.receivedBy :=
          List.append_nil _
        refine ⟨h.balanced.take path data, ?_⟩
        change (m.meter.note (RelayEffect.received path data true).counters).Reads _
        rw [hcounters]
        exact h.reads.note _
      | false =>
        obtain ⟨-, heq⟩ := Option.ite_none_right_eq_some.mp he
        cases heq
        exact ⟨h.balanced.refuse path data, h.reads.note _⟩
    | handed path packet =>
      obtain ⟨u, hu, rfl⟩ := Option.map_eq_some_iff.mp he
      obtain ⟨rest, hheld, rfl⟩ := leave_eq_some hu
      exact ⟨h.balanced.leave hheld true, h.reads.note _⟩
    | lost path packet =>
      obtain ⟨rest, hheld, rfl⟩ := leave_eq_some he
      exact ⟨h.balanced.leave hheld false, h.reads⟩
    | handler e =>
      cases he
      exact ⟨h.balanced, h.reads.note _⟩
    | repeated hidpp ok =>
      cases he
      exact ⟨h.balanced, h.reads.note _⟩
    | logged c n =>
      obtain ⟨rfl, heq⟩ := Option.ite_none_right_eq_some.mp he
      cases heq
      exact ⟨h.balanced, h.reads.log c⟩
  refine ⟨hbooks.1, hbooks.2, ?_, ?_, ?_⟩
  · intro path c hc
    exact (events_watch m.meter e c).trans
      ((congrArg (· + _) (h.received path c hc)).trans (arrived_watch m.lines e hc).symm)
  · intro path
    exact (events_watch m.meter e path.handedBy).trans
      ((congrArg (· + _) (h.handed path)).trans (delivered_watch m.lines e path).symm)
  · exact (events_watch m.meter e .dropped).trans
      ((congrArg (· + _) h.dropped).trans (dropped_watch m.lines e m.unqueued).symm)

theorem recorded_run {writeTransfer : WriteTransfer} {as : List RelayAct} {s : Relay}
    {es : List RelayEffect} (h : (relay writeTransfer).run Relay.init as = some (s, es)) :
    Recorded s.books (es.foldl RelayRecord.watch .empty) := by
  obtain ⟨bs, hbs⟩ := (relay_refines_books writeTransfer).run h
  rw [List.filterMap_some] at hbs
  have hinit : Recorded Relay.init.books RelayRecord.empty :=
    ⟨Conveyor.balanced_empty, Meter.reads_zero, fun _ _ _ => rfl, fun _ => rfl, rfl⟩
  refine Machine.run_watched Recorded ?_ hinit hbs
  intro b m e t es hb hstep
  obtain ⟨u, hu, heq⟩ := Option.map_eq_some_iff.mp hstep
  cases heq
  exact recorded_enter hb hu

/-- A packet is lost to a failed transfer, or to the end of DriveHub. -/
theorem passed_lost {writeTransfer : WriteTransfer} {s t : Relay} {a : RelayAct}
    {es : List RelayEffect} {path : RelayPath} {packet : List UInt8}
    (h : Relay.Passed writeTransfer s a t es) (he : .lost path packet ∈ es) :
    a = .sent path false ∨ (a = .detach ∧ path.fromBackend = false) := by
  cases h with
  | aside hbooks hhandler => cases he
  | handler b fs hstep hbooks =>
    obtain ⟨f, -, hf⟩ := List.mem_map.mp he
    cases hf
  | packet p data hfit ht =>
    unfold Relay.packet at he
    split at he <;> cases List.mem_singleton.mp he
  | sent p ok es ha hsent =>
    unfold Relay.sent at hsent
    split at hsent
    · cases hsent
    · cases ok with
      | true =>
        cases hsent
        obtain ⟨f, -, hf⟩ := List.mem_map.mp he
        cases hf
      | false =>
        cases hsent
        cases List.mem_singleton.mp he
        exact Or.inl ha
  | detach es ha hdetach =>
    obtain ⟨⟨u, fs⟩, hu, heq⟩ := Option.map_eq_some_iff.mp hdetach
    obtain ⟨x, gs, hstep, rfl, rfl⟩ := Relay.inHandler_eq_some.mp hu
    cases heq
    refine Or.inr ⟨ha, ?_⟩
    rcases List.mem_append.mp he with he | he
    · obtain ⟨f, -, hf⟩ := List.mem_map.mp he
      cases hf
    · obtain ⟨p, hp, he⟩ := List.mem_flatMap.mp he
      rw [Option.mem_toList, Option.map_eq_some_iff] at he
      obtain ⟨x, -, hx⟩ := he
      cases hx
      rcases List.mem_cons.mp hp with rfl | hp
      · rfl
      · cases List.mem_singleton.mp hp
        rfl
  | repeated hidpp ok hhandler hbooks => cases List.mem_singleton.mp he
  | logged c hhandler hbooks => cases List.mem_singleton.mp he

/-- A line whose transfers are not seen to fail loses nothing. -/
theorem lost_eq_nil {path : RelayPath} {es : List RelayEffect} {m : RelayRecord}
    (hm : m.lines.lost path = []) (h : ∀ e ∈ es, ∀ packet, e ≠ .lost path packet) :
    (es.foldl RelayRecord.watch m).lines.lost path = [] := by
  induction es generalizing m with
  | nil => exact hm
  | cons e es ih =>
    refine ih ?_ fun e' he' => h e' (List.mem_cons_of_mem e he')
    have he := h e (List.mem_cons_self ..)
    cases e with
    | handed p packet =>
      have hother : ¬ (p = path ∧ true = false) := fun heq => Bool.noConfusion heq.2
      exact (m.lines.lost_leave p path packet true hother).trans hm
    | lost p packet =>
      have hother : ¬ (p = path ∧ false = false) := by
        rintro ⟨rfl, -⟩
        exact he packet rfl
      exact (m.lines.lost_leave p path packet false hother).trans hm
    | received p data taken | handler e | repeated hidpp ok | logged c n => exact hm

theorem length_held_le (s : Relay) (path : RelayPath) : (s.held path).length ≤ path.cap + 1 := by
  have hqueue := (s.queues path).length_le
  have hsending : (s.sending path).toList.length ≤ 1 := by
    cases s.sending path <;> simp
  unfold Relay.held
  rw [List.length_map, List.length_append]
  omega

/-- Whatever order the tasks of the relay run in: on every endpoint the packets that reach the
other side, and then those still held, are among the packets that came in, unchanged and in
order; each packet that came in has been dropped, has reached the other side, was lost
with a transfer, or is one of the few held. As long as no transfer to the other side fails
and DriveHub, if it is that side, stays, every packet that was not dropped gets through. -/
theorem packets_accounted {writeTransfer : WriteTransfer} {as : List RelayAct} {s : Relay}
    {es : List RelayEffect} (h : (relay writeTransfer).run Relay.init as = some (s, es))
    (path : RelayPath) :
    let lines := (es.foldl RelayRecord.watch .empty).lines
    (lines.delivered path ++ s.held path).Sublist ((lines.arrived path).map Prod.fst) ∧
      (lines.arrived path).length = (lines.refused path).length +
        (lines.delivered path).length + (lines.lost path).length + (s.held path).length ∧
      (s.held path).length ≤ path.cap + 1 ∧
      ((∀ a ∈ as, a ≠ .sent path false ∧ (a = .detach → path.fromBackend = true)) →
        judged true (lines.arrived path) = lines.delivered path ++ s.held path) := by
  have hbalanced := (recorded_run h).balanced
  refine ⟨hbalanced.delivered_sublist path, hbalanced.count path, length_held_le s path, ?_⟩
  intro has
  have hkept : ∀ e ∈ es, ∀ packet, e ≠ .lost path packet := by
    refine (Machine.run_always_of
      (fun a => a ≠ .sent path false ∧ (a = .detach → path.fromBackend = true)) (fun _ => True)
      (fun e => ∀ packet, e ≠ .lost path packet) ?_ has trivial h).2
    rintro s a t es - ⟨hsent, hdetach⟩ hstep
    refine ⟨trivial, ?_⟩
    rintro _ he packet rfl
    rcases passed_lost (Relay.passed hstep) he with hfailed | ⟨hgone, hout⟩
    · exact hsent hfailed
    · rw [hdetach hgone] at hout
      cases hout
  have hlost : (es.foldl RelayRecord.watch .empty).lines.lost path = [] := lost_eq_nil rfl hkept
  have hdelivered := judged_true hlost
  rw [hbalanced path, ← hdelivered]
  rfl

/-- DriveHub is attached and read, and the device built. -/
def relayStart : List RelayAct :=
  [.attach, .ep0Reply (some [0xf3]), .start, .build]

/-- Of three packets from DriveHub one is sent, one is on its way and one waits; the second
packet of the console finds the first still on its way, and is lost with it. -/
def relayTraffic : List RelayAct :=
  relayStart ++ [.packet .if0In [0x01, 0x80], .packet .if0In [0x01, 0x81],
    .packet .if0In [0x01, 0x82], .take .if0In, .sent .if0In true, .take .if0In,
    .packet .ffbOut [0x01], .take .ffbOut, .packet .ffbOut [0x02], .detach]

theorem relay_traffic_accounted :
    ∃ s es, (relay (chunkedTransfer 64)).run Relay.init relayTraffic = some (s, es) ∧
      ∀ path, (((es.foldl RelayRecord.watch .empty).lines.delivered path ++ s.held path).Sublist
        (((es.foldl RelayRecord.watch .empty).lines.arrived path).map Prod.fst)) := by
  have hruns : ((relay (chunkedTransfer 64)).run Relay.init relayTraffic).isSome = true := by
    decide +kernel
  obtain ⟨⟨s, es⟩, h⟩ := Option.isSome_iff_exists.mp hruns
  exact ⟨s, es, h, fun path => (packets_accounted h path).1⟩

/-- What the log lines said of a counter, with what it still holds, is, modulo `2^32`, what
happened: the packets received on each endpoint that counts them, those that reached the
other side, and, of `dropped`, the packets and the class requests that found their queue
full. -/
theorem statistics_add_up {writeTransfer : WriteTransfer} {as : List RelayAct} {s : Relay}
    {es : List RelayEffect} (h : (relay writeTransfer).run Relay.init as = some (s, es)) :
    let m := es.foldl RelayRecord.watch .empty
    (∀ path, ∀ c ∈ path.receivedBy,
      m.meter.logged c + s.counts c = UInt32.ofNat (m.lines.arrived path).length) ∧
    (∀ path, m.meter.logged path.handedBy + s.counts path.handedBy =
      UInt32.ofNat (m.lines.delivered path).length) ∧
    m.meter.logged .dropped + s.counts .dropped =
      UInt32.ofNat (RelayRecord.refusals m.lines + m.unqueued) := by
  have hm := recorded_run h
  refine ⟨?_, ?_, ?_⟩
  · intro path c hc
    rw [← hm.received path c hc]
    exact hm.reads c
  · intro path
    rw [← hm.handed path]
    exact hm.reads path.handedBy
  · rw [← hm.dropped]
    exact hm.reads .dropped

/-- The first line of the statistics is written while DriveHub's reports come in. -/
def relayStatistics : List RelayAct :=
  relayStart ++ [.packet .if0In [0x01, 0x80], .elapse 5000, .statsTick, .statsTake,
    .packet .if0In [0x01, 0x81], .take .if0In, .sent .if0In true, .statsTake]

theorem relay_statistics_add_up :
    ∃ s es, (relay (chunkedTransfer 64)).run Relay.init relayStatistics = some (s, es) ∧
      (es.foldl RelayRecord.watch .empty).meter.logged .inputSent + s.counts .inputSent =
        UInt32.ofNat ((es.foldl RelayRecord.watch .empty).lines.delivered .if0In).length := by
  have hruns : ((relay (chunkedTransfer 64)).run Relay.init relayStatistics).isSome = true := by
    decide +kernel
  obtain ⟨⟨s, es⟩, h⟩ := Option.isSome_iff_exists.mp hruns
  exact ⟨s, es, h, (statistics_add_up h).2.1 .if0In⟩

end WheelBridge
