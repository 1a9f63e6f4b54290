import WheelBridge.FfbDelivery
import WheelBridge.Lanes
import WheelBridge.MirrorSteps

/-!
What goes through the mirror: on each data path the packets handed to the other side are
those received, one by one and byte for byte.
-/
namespace WheelBridge

/-- The packets received and not counted as dropped, and those handed to the other side. -/
abbrev MirrorLanes := Lanes DataPath (List UInt8)

def MirrorLanes.watch (m : MirrorLanes) : MirrorEffect → MirrorLanes
  | .received path data counted => if counted then m else m.take path data
  | .handed path packet => m.deliver path packet
  | .failed _ | .bridge _ => m

/-- A packet counted is counted once, and no other is. -/
def CountsOnce (s t : Mirror) : MirrorEffect → Prop
  | .received _ _ counted => t.bridge.dropped = s.bridge.dropped + counted.toNat
  | .handed _ _ | .failed _ | .bridge _ => True

/-- After the step the packets handed over are the first of those received and not counted,
with the same bytes, and the others are in the bridge. -/
structure Transparent (s : Mirror) (m : MirrorLanes) (es : List MirrorEffect) (t : Mirror) :
    Prop where
  carries : (es.foldl MirrorLanes.watch m).Carries t.held
  counts : ∀ e ∈ es, CountsOnce s t e

/-- Nothing that is received is ignored, only whole reports are written to the wheel, and no
transfer fails. -/
def PassesUnchanged (s : Mirror) : MirrorEffect → Prop
  | .received path data _ => path.Passes data
  | .handed .ffbOut _ => ∀ packet, s.sending .ffbOut = some packet → packet.len = maxPacket
  | .handed _ _ => True
  | .failed _ => False
  | .bridge _ => True

/-- An IN endpoint of the device gives the host one packet for each, the same. -/
theorem transfer_in {writeTransfer : WriteTransfer}
    (hw : SendsChunks mirrorPacketSize writeTransfer) {path : DataPath} (hpath : path ≠ .ffbOut)
    (packet : Packet) : Mirror.transfer writeTransfer packet path = [packet.bytes] := by
  have hlen : packet.bytes.length ≤ mirrorPacketSize := by
    rw [Packet.length_bytes]
    exact packet.len_le
  have hframe : forwardReport .mirror writeTransfer packet = [packet.bytes] := by
    rw [forwardReport_eq_frame (by decide) hw]
    exact Framing.frame_of_le (by decide) hlen
  cases path with
  | ffbOut => exact absurd rfl hpath
  | _ => exact hframe

theorem padded_eq_iff (packet : Packet) :
    padded packet.bytes = packet.bytes ↔ packet.len = maxPacket := by
  have hle := packet.len_le
  unfold padded
  rw [List.append_right_eq_self, List.replicate_eq_nil_iff, Packet.length_bytes]
  omega

theorem watch_bridge (m : MirrorLanes) (es : List BridgeEffect) :
    (es.map MirrorEffect.bridge).foldl MirrorLanes.watch m = m := by
  apply foldl_unheeded
  intro e he
  obtain ⟨b, -, rfl⟩ := List.mem_map.mp he
  rfl

theorem transparent_one_iff (s : Mirror) (m : MirrorLanes) (e : MirrorEffect) (t : Mirror) :
    Transparent s m [e] t ↔ (m.watch e).Carries t.held ∧ CountsOnce s t e := by
  constructor
  · intro h
    exact ⟨h.carries, h.counts e (List.mem_singleton_self e)⟩
  · intro h
    refine ⟨h.1, ?_⟩
    rw [List.forall_mem_singleton]
    exact h.2

/-- A step is transparent exactly when it passes every packet on unchanged. -/
theorem step_transparent_iff {writeTransfer : WriteTransfer}
    (hw : SendsChunks mirrorPacketSize writeTransfer) {s t : Mirror} {m : MirrorLanes}
    {es : List MirrorEffect} (h : m.Carries s.held) (hstep : Passed writeTransfer s t es) :
    Transparent s m es t ↔ ∀ e ∈ es, PassesUnchanged s e := by
  cases hstep with
  | aside es hheld =>
    have hbridge : ∀ e ∈ es.map MirrorEffect.bridge, CountsOnce s t e ∧ PassesUnchanged s e := by
      intro e he
      obtain ⟨b, -, rfl⟩ := List.mem_map.mp he
      exact ⟨trivial, trivial⟩
    refine iff_of_true ⟨?_, fun e he => (hbridge e he).1⟩ fun e he => (hbridge e he).2
    rw [watch_bridge, hheld]
    exact h
  | queued path data hp hheld hd =>
    have hcarries : (m.take path data).Carries t.held := by
      rw [hheld]
      exact h.take path data
    rw [transparent_one_iff, List.forall_mem_singleton]
    exact iff_of_true ⟨hcarries, hd⟩ hp
  | counted path data hp hheld hd =>
    have hcarries : m.Carries t.held := by
      rw [hheld]
      exact h
    rw [transparent_one_iff, List.forall_mem_singleton]
    exact iff_of_true ⟨hcarries, hd⟩ hp
  | ignored path data hp hheld hd =>
    have hwithheld : ¬ (m.take path data).Carries t.held := by
      rw [hheld]
      exact h.not_withheld path data
    rw [transparent_one_iff, List.forall_mem_singleton]
    exact iff_of_false (fun htrans => hwithheld htrans.1) hp
  | handed path packet rest hs hfirst hheld =>
    have hone : ∀ x, Transparent s m [.handed path x] t ↔ x = packet.bytes := by
      intro x
      have hdeliver := h.deliver_iff hfirst x
      rw [← hheld] at hdeliver
      rw [transparent_one_iff, ← hdeliver]
      exact and_iff_left trivial
    by_cases hpath : path = .ffbOut
    · subst hpath
      rw [Mirror.transfer, List.map_singleton, hone, toList_ffbReport, padded_eq_iff,
        List.forall_mem_singleton]
      simp only [PassesUnchanged, hs, Option.some.injEq, forall_eq']
    · rw [transfer_in hw hpath, List.map_singleton, hone, List.forall_mem_singleton]
      cases path with
      | ffbOut => exact absurd rfl hpath
      | _ => exact iff_of_true rfl trivial
  | failed path es b rest hfirst hheld =>
    have hlost : ¬ m.Carries t.held := by
      rw [hheld]
      exact h.not_lost hfirst
    constructor
    · intro htrans
      have hcarries := htrans.carries
      rw [List.foldl_append, watch_bridge] at hcarries
      exact absurd hcarries hlost
    · intro hpass
      exact (hpass (.failed path) (List.mem_append_right _ (List.mem_singleton_self _))).elim

/-- In every run the packets handed over are exactly those received, in order and with the
same bytes, but for those counted as dropped, if and only if every IF0 report has the length
of the wheel's, no HID++ message carries the bridge's software ID, every packet written to
the wheel is as long as its report, and no transfer fails. -/
theorem mirror_transparent_iff {writeTransfer : WriteTransfer}
    (hw : SendsChunks mirrorPacketSize writeTransfer) (as : List MirrorAct) :
    (mirror writeTransfer).Along MirrorLanes.watch Transparent Mirror.init Lanes.empty as ↔
      (mirror writeTransfer).Along MirrorLanes.watch
        (fun s _ es _ => ∀ e ∈ es, PassesUnchanged s e) Mirror.init Lanes.empty as := by
  apply Machine.along_iff (fun s m => m.Carries s.held ∧ Inert s.bridge)
  · intro s m a es t h hstep htrans
    exact ⟨htrans.carries, (passed h.2 hstep).2⟩
  · intro s m a es t h hstep
    exact step_transparent_iff hw h.1 (passed h.2 hstep).1
  · refine ⟨fun path => by cases path <;> rfl, rfl, ?_⟩
    intro p hp
    cases hp

instance (m : MirrorLanes) (held : DataPath → List (List UInt8)) : Decidable (m.Carries held) :=
  decidable_of_iff
    (m.taken .input = m.delivered .input ++ held .input ∧
      m.taken .hidpp = m.delivered .hidpp ++ held .hidpp ∧
      m.taken .ffbIn = m.delivered .ffbIn ++ held .ffbIn ∧
      m.taken .ffbOut = m.delivered .ffbOut ++ held .ffbOut)
    ⟨fun h path => by cases path <;> simp only [h], fun h => ⟨h _, h _, h _, h _⟩⟩

instance (s t : Mirror) (e : MirrorEffect) : Decidable (CountsOnce s t e) :=
  match e with
  | .received _ _ counted => inferInstanceAs (Decidable (_ = _ + counted.toNat))
  | .handed _ _ | .failed _ | .bridge _ => isTrue trivial

instance (s : Mirror) (m : MirrorLanes) (es : List MirrorEffect) (t : Mirror) :
    Decidable (Transparent s m es t) :=
  decidable_of_iff ((es.foldl MirrorLanes.watch m).Carries t.held ∧ ∀ e ∈ es, CountsOnce s t e)
    ⟨fun h => ⟨h.1, h.2⟩, fun h => ⟨h.carries, h.counts⟩⟩

instance (data : List UInt8) (path : DataPath) : Decidable (path.Passes data) :=
  match path with
  | .input => inferInstanceAs (Decidable (_ = _))
  | .hidpp => inferInstanceAs (Decidable (_ ≠ _))
  | .ffbIn | .ffbOut => isTrue trivial

instance (s : Mirror) (e : MirrorEffect) : Decidable (PassesUnchanged s e) :=
  match e with
  | .received path data _ => inferInstanceAs (Decidable (path.Passes data))
  | .handed .ffbOut _ =>
    decidable_of_iff (∀ packet ∈ (s.sending .ffbOut).toList, packet.len = maxPacket)
      (by simp [PassesUnchanged])
  | .handed .input _ | .handed .hidpp _ | .handed .ffbIn _ | .bridge _ => isTrue trivial
  | .failed _ => isFalse id

/-- The mirror over endpoints of its packet size. -/
abbrev c272Mirror : Machine Mirror MirrorAct MirrorEffect :=
  mirror (chunkedTransfer mirrorPacketSize)

/-- A whole force feedback report waits for the wheel; the wheel answers a request with
another software ID, sends an empty message and a report. -/
def plainRun : List MirrorAct :=
  [.packet .ffbOut (0x01 :: List.replicate 63 0x00), .attach 0x03, .send .ffbOut,
    .packet .hidpp [0x10, 0xff, 0x00, 0x1c, 0x04, 0x02, 0x5a], .packet .hidpp [],
    .packet .input (List.replicate 30 0x08), .sent .ffbOut none, .send .hidpp, .send .input,
    .sent .hidpp none, .send .hidpp, .sent .input none, .sent .hidpp none]

theorem plain_run_transparent :
    (c272Mirror.run Mirror.init plainRun).isSome = true ∧
      c272Mirror.Along MirrorLanes.watch Transparent Mirror.init Lanes.empty plainRun := by
  refine ⟨by decide +kernel, ?_⟩
  exact (mirror_transparent_iff (fun _ _ => rfl) plainRun).mpr (by decide +kernel)

/-- The wheel answers a request of the upstream host with the bridge's software ID. -/
def answerRun : List MirrorAct :=
  [.attach 0x03, .packet .hidpp [0x10, 0xff, 0x00, 0x1b, 0x04, 0x02, 0x5a]]

/-- The upstream host sends a force feedback report cut short. -/
def shortForceRun : List MirrorAct :=
  [.attach 0x03, .packet .ffbOut [0x01, 0x00, 0x00, 0x00, 0x01, 0x00, 0x00], .send .ffbOut,
    .sent .ffbOut none]

/-- The wheel sends an IF0 report of 31 bytes. -/
def longInputRun : List MirrorAct :=
  [.attach 0x03, .packet .input (List.replicate 31 0x08)]

theorem packets_withheld_or_padded :
    ((c272Mirror.run Mirror.init answerRun).isSome = true ∧
      ¬ c272Mirror.Along MirrorLanes.watch Transparent Mirror.init Lanes.empty answerRun) ∧
    ((c272Mirror.run Mirror.init shortForceRun).isSome = true ∧
      ¬ c272Mirror.Along MirrorLanes.watch Transparent Mirror.init Lanes.empty shortForceRun) ∧
    ((c272Mirror.run Mirror.init longInputRun).isSome = true ∧
      ¬ c272Mirror.Along MirrorLanes.watch Transparent Mirror.init Lanes.empty longInputRun) := by
  decide +kernel

end WheelBridge
