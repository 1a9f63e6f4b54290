import WheelBridge.Device
import WheelBridge.Framing

/-!
The reports of the wheel on an IN endpoint of the native device: one transfer a report,
read by a host that knows the longest report and the endpoint's packet size.
-/
namespace WheelBridge

/-- The packets an endpoint's `write_transfer(buf, needs_zlp)` puts on the bus. -/
abbrev WriteTransfer := List UInt8 → Bool → List (List UInt8)

/-- `write_transfer` sends its buffer in packets of the endpoint's size, then an empty one
if it is asked to and the length is a multiple of that size. -/
def SendsChunks (maxPacketSize : ℕ) (writeTransfer : WriteTransfer) : Prop :=
  ∀ buf needsZlp, writeTransfer buf needsZlp =
    Framing.chunks maxPacketSize buf ++
      if needsZlp = true ∧ buf.length % maxPacketSize = 0 then [[]] else []

/-- What `forward_in` writes for one packet of its queue. -/
def forwardReport (role : Role) (writeTransfer : WriteTransfer) (packet : Packet) :
    List (List UInt8) :=
  let report := packet.bytes
  -- Relay: the framing of the backend's endpoint is kept as it is.
  if role = .relay then [report]
  else writeTransfer report (decide (report.length < maxPacket))

/-- What `forward_in` writes for the packets it takes from its queue. -/
def forwardIn (role : Role) (writeTransfer : WriteTransfer) (queue : List Packet) :
    List (List UInt8) :=
  queue.flatMap (forwardReport role writeTransfer)

/-- A host reads transfers of up to the longest report. -/
def readReports (maxPacketSize : ℕ) (packets : List (List UInt8)) :
    List (List UInt8) × List UInt8 :=
  Framing.receive maxPacketSize maxPacket [] packets

/-- Outside the relay role each report is framed as a transfer of its own. -/
theorem forwardReport_eq_frame {role : Role} {maxPacketSize : ℕ} {writeTransfer : WriteTransfer}
    (hrole : role ≠ .relay) (hw : SendsChunks maxPacketSize writeTransfer) (packet : Packet) :
    forwardReport role writeTransfer packet =
      Framing.frame maxPacketSize maxPacket packet.bytes := by
  simp only [forwardReport, if_neg hrole, hw packet.bytes, decide_eq_true_eq, Framing.frame,
    Framing.terminator]

/-- Whatever is in the queue, the host reads its packets one by one, with nothing left over. -/
theorem readReports_forwardIn {role : Role} (hrole : role ≠ .relay) {maxPacketSize : ℕ}
    (hsize : 0 < maxPacketSize) {writeTransfer : WriteTransfer}
    (hw : SendsChunks maxPacketSize writeTransfer) (queue : List Packet) :
    readReports maxPacketSize (forwardIn role writeTransfer queue) =
      (queue.map Packet.bytes, []) := by
  have hframes : forwardIn role writeTransfer queue =
      (queue.map Packet.bytes).flatMap (Framing.frame maxPacketSize maxPacket) := by
    have heach := funext (forwardReport_eq_frame hrole hw)
    rw [forwardIn, heach, List.flatMap_map]
  have hshort : ∀ report ∈ queue.map Packet.bytes, report.length ≤ maxPacket := by
    intro report hmem
    obtain ⟨packet, -, rfl⟩ := List.mem_map.mp hmem
    rw [Packet.length_bytes]
    exact packet.len_le
  rw [readReports, hframes]
  exact Framing.receive_frames hsize (by decide) _ hshort

/-- Reports of at most the longest size are read by the host exactly as they were queued. -/
theorem reports_read_back {role : Role} (hrole : role ≠ .relay) {maxPacketSize : ℕ}
    (hsize : 0 < maxPacketSize) {writeTransfer : WriteTransfer}
    (hw : SendsChunks maxPacketSize writeTransfer) (reports : List (List UInt8))
    (hfit : ∀ report ∈ reports, report.length ≤ maxPacket) :
    readReports maxPacketSize (forwardIn role writeTransfer (reports.map Packet.new)) =
      (reports, []) := by
  have hwhole : (reports.map Packet.new).map Packet.bytes = reports := by
    rw [List.map_map]
    refine (List.map_congr_left fun report hmem => ?_).trans reports.map_id
    exact (Packet.bytes_new report).trans (List.take_of_length_le (hfit report hmem))
  rw [readReports_forwardIn hrole hsize hw, hwhole]

/-- An endpoint of the given size that does so. -/
def chunkedTransfer (maxPacketSize : ℕ) : WriteTransfer := fun buf needsZlp =>
  Framing.chunks maxPacketSize buf ++
    if needsZlp = true ∧ buf.length % maxPacketSize = 0 then [[]] else []

/-- Reports of 20, 0 and 64 bytes on the HID++ endpoint. -/
theorem hidpp_reports_read_back :
    readReports 20 (forwardIn .wheel (chunkedTransfer 20)
      ([List.replicate 20 0x11, [], List.replicate 64 0x12].map Packet.new)) =
        ([List.replicate 20 0x11, [], List.replicate 64 0x12], []) :=
  reports_read_back (by decide) (by decide) (fun _ _ => rfl) _ (by decide)

end WheelBridge
