import WheelBridge.BridgeSteps

/-!
The console's force feedback packets on their way to the wheel: read into a buffer of
the device side, queued as packets, and written from a buffer of the host side. Both
buffers are used again for every packet.
-/
namespace WheelBridge

/-- `slice::fill`. -/
def Bytes.refill {n : ℕ} (b : Bytes n) (v : UInt8) : Bytes n :=
  ⟨b.toList.map fun _ => v, by rw [List.length_map, b.length_eq]⟩

/-- The packet made of `n` bytes read into the device side's buffer. -/
def packetRead (buf : Bytes maxPacket) (n : ℕ) : Packet := Packet.new (buf.toList.take n)

/-- The report made of a packet in the host side's buffer. -/
def reportFilled (report : Bytes maxPacket) (packet : Packet) : Bytes maxPacket :=
  (report.refill 0).write packet.bytes

theorem Bytes.refill_eq_fill {n : ℕ} (b : Bytes n) (v : UInt8) : b.refill v = Bytes.fill v := by
  ext1
  change b.toList.map (fun _ => v) = List.replicate n v
  rw [List.map_const', b.length_eq]

theorem Bytes.toList_write {n : ℕ} (b : Bytes n) {data : List UInt8} (h : data.length ≤ n) :
    (b.write data).toList = data ++ b.toList.drop data.length := by
  have hlen : (b.write data).toList.length = (data ++ b.toList.drop data.length).length := by
    rw [(b.write data).length_eq, List.length_append, List.length_drop, b.length_eq]
    omega
  apply List.ext_getElem hlen
  intro i hi hj
  have hn : i < n := by rwa [(b.write data).length_eq] at hi
  have hb : i < b.toList.length := by rwa [b.length_eq]
  have hbyte := Bytes.byte_writeAt data b 0 i
  have hleft : (b.writeAt 0 data).byte i = (b.write data).toList[i] := by
    change (b.write data).toList.getD i 0 = _
    rw [List.getD_eq_getElem?_getD, List.getElem?_eq_getElem hi, Option.getD_some]
  rw [← hleft, hbyte]
  by_cases hd : i < data.length
  · have hin : 0 ≤ i ∧ i < 0 + data.length ∧ i < n := by omega
    rw [if_pos hin, List.getElem_append_left hd, Nat.sub_zero, List.getD_eq_getElem?_getD,
      List.getElem?_eq_getElem hd, Option.getD_some]
  · have hout : ¬ (0 ≤ i ∧ i < 0 + data.length ∧ i < n) := by omega
    have hidx : data.length + (i - data.length) = i := by omega
    rw [if_neg hout, List.getElem_append_right (by omega), List.getElem_drop]
    simp only [hidx]
    change b.toList.getD i 0 = b.toList[i]
    rw [List.getD_eq_getElem?_getD, List.getElem?_eq_getElem hb, Option.getD_some]

theorem Packet.new_take (data : List UInt8) :
    Packet.new (data.take maxPacket) = Packet.new data := by
  have hlen : min (data.take maxPacket).length maxPacket = min data.length maxPacket := by
    rw [List.length_take]
    omega
  have htake : (data.take maxPacket).take maxPacket = data.take maxPacket := by
    rw [List.take_take, Nat.min_self]
  simp only [Packet.new, hlen, htake]

/-- What was in the device side's buffer before does not show in a packet. -/
theorem packetRead_write (buf : Bytes maxPacket) {data : List UInt8}
    (h : data.length ≤ maxPacket) : packetRead (buf.write data) data.length = Packet.new data := by
  rw [packetRead, Bytes.toList_write buf h, List.take_left]

/-- What was in the host side's buffer before does not show in a report. -/
theorem reportFilled_eq (report : Bytes maxPacket) (packet : Packet) :
    reportFilled report packet = ffbReport packet := by
  rw [reportFilled, Bytes.refill_eq_fill]
  rfl

/-- The packet's bytes followed by zeros up to the longest report. -/
def padded (data : List UInt8) : List UInt8 :=
  data ++ List.replicate (maxPacket - data.length) 0

theorem toList_ffbReport (packet : Packet) :
    (ffbReport packet).toList = padded packet.bytes := by
  have hle : packet.bytes.length ≤ maxPacket := by
    rw [Packet.length_bytes]
    exact packet.len_le
  have hzero : (Bytes.zero : Bytes maxPacket).toList = List.replicate maxPacket 0 := rfl
  rw [ffbReport, Bytes.toList_write _ hle, hzero, List.drop_replicate, padded]

/-- The two buffers. -/
structure FfbBuffers where
  device : Bytes maxPacket
  host : Bytes maxPacket

/-- The bridge with the buffers its force packets go through. -/
def buffered : Machine (Bridge × FfbBuffers) BridgeAct BridgeEffect where
  step := fun (s, b) a =>
    match a with
    | .ffbPacket data =>
      -- The endpoint's packets have at most 64 bytes.
      let read := data.take maxPacket
      let device := b.device.write read
      if s.built then
        let (t, es) := s.queueFfb (packetRead device read.length)
        some ((t, { b with device := device }), es)
      else none
    | .ffbTake =>
      match s.session, s.ffbOut.receive with
      | some p, some (packet, q) =>
        if p.ffbOut = .receive then
          let report := reportFilled b.host packet
          some ((({ s with ffbOut := q } : Bridge).atFfb p .write, { b with host := report }),
            [.took .ffb, .ffbWrite report])
        else none
      | _, _ => none
    | .attach _ => (bridge.step s a).map fun r => ((r.1, { b with host := Bytes.zero }), r.2)
    | _ => (bridge.step s a).map fun r => ((r.1, b), r.2)

def FfbBuffers.init : FfbBuffers := ⟨Bytes.zero, Bytes.zero⟩

/-- With its buffers the bridge does what it does without them. -/
theorem buffered_step {s t : Bridge} {b c : FfbBuffers} {a : BridgeAct} {es : List BridgeEffect}
    (h : buffered.step (s, b) a = some ((t, c), es)) : bridge.step s a = some (t, es) := by
  have hplain : ∀ {c' : FfbBuffers}, (bridge.step s a).map (fun r => ((r.1, c'), r.2)) =
      some ((t, c), es) → bridge.step s a = some (t, es) := by
    intro c' h
    obtain ⟨r, hr, heq⟩ := Option.map_eq_some_iff.mp h
    cases heq
    exact hr
  cases a with
  | ffbPacket data =>
    have hread : packetRead (b.device.write (data.take maxPacket)) (data.take maxPacket).length =
        Packet.new data := by
      rw [packetRead_write _ (List.length_take_le ..), Packet.new_take]
    simp only [buffered, hread] at h
    split at h
    · next hb =>
      cases h
      exact if_pos hb
    · cases h
  | ffbTake =>
    simp only [buffered] at h
    split at h
    · next p packet q hs hq =>
      split at h
      · next hf =>
        cases h
        change s.inSession (fun p s => s.ffbTake p) = _
        rw [reportFilled_eq]
        simp only [Bridge.inSession, hs, Bridge.ffbTake, hf, hq]
      · cases h
    · cases h
  | _ => exact hplain h

/-- The force packets since the queue was cleared last, or since the session started, with
those that were waiting then. -/
structure FfbTraffic where
  /-- The packet read in this step. -/
  read : Option (List UInt8)
  /-- Those that `FFB_OUT` accepted, and the reports written. -/
  accepted : List (List UInt8)
  written : List (List UInt8)

namespace FfbTraffic

def init : FfbTraffic := ⟨none, [], []⟩

def watch (m : FfbTraffic) : BridgeAct ⊕ BridgeEffect → FfbTraffic
  -- The endpoint's packets have at most 64 bytes.
  | .inl (.ffbPacket data) => { m with read := some (data.take maxPacket) }
  | .inl _ => { m with read := none }
  | .inr (.queued .ffb) => { m with accepted := m.accepted ++ m.read.toList }
  | .inr (.ffbWrite report) => { m with written := m.written ++ [report.toList] }
  | .inr .attached => { m with accepted := m.accepted.drop m.written.length, written := [] }
  | .inr .cleared => { m with accepted := [], written := [] }
  | .inr _ => m

end FfbTraffic

/-- The reports written are the packets dequeued, in order and padded; the others wait. -/
structure InOrder (s : Bridge) (m : FfbTraffic) : Prop where
  written : m.written = (m.accepted.take m.written.length).map padded
  waiting : s.ffbOut.items.map Packet.bytes = m.accepted.drop m.written.length

/-- After a step the reports are in order, and a packet that was read is accepted or counted
once. -/
structure Delivers (s : Bridge) (m : FfbTraffic) (es : List (BridgeAct ⊕ BridgeEffect))
    (t : Bridge) : Prop where
  inOrder : InOrder t (es.foldl FfbTraffic.watch m)
  fate : ∀ data, .inl (.ffbPacket data) ∈ es →
    (es.foldl FfbTraffic.watch m).accepted = m.accepted ++ [data.take maxPacket] ∧
        t.dropped = s.dropped ∨
      (es.foldl FfbTraffic.watch m).accepted = m.accepted ∧ t.dropped = s.dropped + 1

namespace InOrder

variable {s t : Bridge} {m : FfbTraffic}

theorem length_le (h : InOrder s m) : m.written.length ≤ m.accepted.length := by
  have hlen := congrArg List.length h.written
  rw [List.length_map, List.length_take] at hlen
  omega

theorem frame (h : InOrder s m) (ht : t.ffbOut = s.ffbOut) (r : Option (List UInt8)) :
    InOrder t { m with read := r } where
  written := h.written
  waiting := by
    rw [ht]
    exact h.waiting

theorem accept (h : InOrder s m) {packet : Packet}
    (hq : t.ffbOut.items = s.ffbOut.items ++ [packet]) (r : Option (List UInt8)) :
    InOrder t { m with read := r, accepted := m.accepted ++ [packet.bytes] } where
  written := by
    change m.written = ((m.accepted ++ [packet.bytes]).take m.written.length).map padded
    rw [List.take_append_of_le_length h.length_le]
    exact h.written
  waiting := by
    change _ = (m.accepted ++ [packet.bytes]).drop m.written.length
    rw [hq, List.drop_append_of_le_length h.length_le, List.map_append, h.waiting,
      List.map_singleton]

theorem write (h : InOrder s m) {packet : Packet}
    (hq : s.ffbOut.items = packet :: t.ffbOut.items) (r : Option (List UInt8)) :
    InOrder t { m with read := r, written := m.written ++ [(ffbReport packet).toList] } := by
  have hdrop : m.accepted.drop m.written.length =
      packet.bytes :: t.ffbOut.items.map Packet.bytes := by
    rw [← h.waiting, hq, List.map_cons]
  have hnext : m.accepted[m.written.length]? = some packet.bytes := by
    rw [← List.head?_drop, hdrop, List.head?_cons]
  constructor
  · change m.written ++ _ = (m.accepted.take (m.written ++ _).length).map padded
    rw [List.length_append, List.length_singleton, List.take_add_one, hnext, List.map_append,
      ← h.written, toList_ffbReport]
    rfl
  · change _ = m.accepted.drop (m.written ++ _).length
    rw [List.length_append, List.length_singleton, ← List.drop_drop, hdrop]
    rfl

theorem attach (h : InOrder s m) (ht : t.ffbOut = s.ffbOut) (r : Option (List UInt8)) :
    InOrder t { read := r, accepted := m.accepted.drop m.written.length, written := [] } where
  written := rfl
  waiting := by
    rw [ht]
    exact h.waiting

theorem clear (ht : t.ffbOut = Channel.empty) (r : Option (List UInt8)) :
    InOrder t { read := r, accepted := [], written := [] } where
  written := rfl
  waiting := by
    rw [ht]
    rfl

end InOrder

/-- Only a packet of the console is queued as one. -/
theorem queued_ffb {s t : Bridge} {a : BridgeAct}
    (h : bridge.step s a = some (t, [.queued .ffb])) : ∃ data, a = .ffbPacket data := by
  change s.step a = some (t, [.queued .ffb]) at h
  cases a <;> simp only [Bridge.step, Bridge.inSession_eq_some, Option.ite_none_right_eq_some,
    Option.map_eq_some_iff] at h
  case ffbPacket data => exact ⟨data, rfl⟩
  all_goals exfalso
  case inputReply r =>
    unfold Bridge.inputReply at h
    grind
  case hidppReply r answers =>
    unfold Bridge.hidppReply at h
    grind
  case ffbInReply r =>
    unfold Bridge.ffbInReply at h
    grind
  case ffbReply e =>
    unfold Bridge.ffbReply at h
    grind [Bridge.recoverFfb]
  all_goals
    grind [Bridge.followStep, Bridge.queueControl, Bridge.queueIf0, Bridge.ep0Done, Bridge.ep0Timer,
      Bridge.ep0Answer, Bridge.ep0Control, Bridge.ep0If0, Bridge.ep0Recover, Bridge.ep0Tick,
      Bridge.ffbTake, Bridge.ffbCleared, Bridge.ffbTimeout, Bridge.queryDone, Bridge.query]

/-- A packet that is read is accepted, or counted. -/
theorem packet_delivers {s t : Bridge} {m : FfbTraffic} {data : List UInt8}
    {fs : List BridgeEffect} (h : InOrder s m)
    (hstep : bridge.step s (.ffbPacket data) = some (t, fs)) :
    Delivers s m (.inl (.ffbPacket data) :: fs.map .inr) t := by
  change s.step (.ffbPacket data) = some (t, fs) at hstep
  simp only [Bridge.step, Option.ite_none_right_eq_some, Option.some.injEq] at hstep
  obtain ⟨-, hstep⟩ := hstep
  unfold Bridge.queueFfb at hstep
  cases hq : s.ffbOut.trySend (Packet.new data) with
  | some q =>
    simp only [hq] at hstep
    cases hstep
    have hitems := (Channel.trySend_eq_some.mp hq).2
    constructor
    · have hin := h.accept (t := { s with ffbOut := q }) hitems (some (data.take maxPacket))
      rwa [Packet.bytes_new] at hin
    · intro data' hmem
      have heq : data' = data := by simpa using hmem
      subst heq
      exact Or.inl ⟨rfl, rfl⟩
  | none =>
    simp only [hq] at hstep
    cases hstep
    constructor
    · refine h.frame ?_ (some (data.take maxPacket))
      rfl
    · intro data' _
      exact Or.inr ⟨rfl, rfl⟩

/-- Any other step keeps the reports in order. -/
theorem other_in_order {s t : Bridge} {m : FfbTraffic} {a : BridgeAct} {fs : List BridgeEffect}
    (h : InOrder s m) (hstep : bridge.step s a = some (t, fs))
    (ha : ∀ data, a ≠ .ffbPacket data) :
    InOrder t ((fs.map .inr).foldl FfbTraffic.watch { m with read := none }) := by
  cases moved hstep with
  | queuedFfb packet q hb hq =>
    obtain ⟨data, rfl⟩ := queued_ffb hstep
    exact absurd rfl (ha data)
  | ffbTakes p packet q hs hf hq =>
    refine h.write ?_ none
    exact Channel.receive_eq_some.mp hq
  | attach ep hs =>
    refine h.attach ?_ none
    rfl
  | linkOn q hq hf =>
    refine InOrder.clear ?_ none
    rfl
  | message p packet answers hs =>
    obtain ⟨q, n, heq⟩ := s.hidppMessage_eq packet
    rw [heq]
    refine h.frame ?_ none
    rfl
  | _ =>
    refine h.frame ?_ none
    rfl

theorem step_delivers {s t : Bridge} {m : FfbTraffic} {a : BridgeAct} {fs : List BridgeEffect}
    (h : InOrder s m) (hstep : bridge.step s a = some (t, fs)) :
    Delivers s m (.inl a :: fs.map .inr) t := by
  by_cases ha : ∃ data, a = .ffbPacket data
  · obtain ⟨data, rfl⟩ := ha
    exact packet_delivers h hstep
  · have hne : ∀ data, a ≠ .ffbPacket data := fun data heq => ha ⟨data, heq⟩
    have hread : m.watch (.inl a) = { m with read := none } := by
      unfold FfbTraffic.watch
      split
      · next data heq => exact absurd (Sum.inl.inj heq) (hne data)
      all_goals first | rfl | (next heq => cases heq)
    constructor
    · rw [List.foldl_cons, hread]
      exact other_in_order h hstep hne
    · intro data hmem
      have heq : a = .ffbPacket data := by simpa [eq_comm] using hmem
      exact absurd heq (hne data)

/-- In every run of the bridge, buffers included, the reports written to the wheel are
exactly the accepted packets that have been dequeued, in order and padded with zeros, and
every packet read is accepted or counted once. -/
theorem ffb_delivered (as : List BridgeAct) :
    buffered.recorded.Along FfbTraffic.watch (fun s m es t => Delivers s.1 m es t.1)
      (Bridge.init, FfbBuffers.init) FfbTraffic.init as := by
  apply Machine.along_always (fun s m => InOrder s.1 m)
  · intro s m a es t h hstep
    obtain ⟨fs, hfs, rfl⟩ := Machine.recorded_step.mp hstep
    have hdel := step_delivers h (buffered_step hfs)
    exact ⟨hdel.inOrder, hdel⟩
  · exact ⟨rfl, rfl⟩

end WheelBridge
