import WheelBridge.HidInterfaces
import WheelBridge.ReportSummary

/-!
`probe` and `read_feature_reports`: what is asked of a device on its USB-A port, interface
by interface. The replies to feature reports and to SET_IDLE are only logged.
-/
namespace WheelBridge.Hid

/-- Largest report descriptor fetched; longer ones are truncated. -/
def reportDescBufLen : ℕ := 512

/-- Largest feature report read (plus its ID byte); longer ones are truncated. -/
def featureBufLen : ℕ := 256

/-- Usage page of the PlayStation authentication reports (F0..F3). Not read: a GET_REPORT
there can change the device's auth state. -/
def usagePagePsAuth : UInt16 := 0xfff0

inductive Action
  | getDescriptor (iface : UInt8) (len : ℕ)
  /-- The report descriptor that came. -/
  | received (desc : List UInt8)
  | getFeature (iface id : UInt8) (len : ℕ)
  | setIdle (iface : UInt8)
  | panicked
deriving DecidableEq

/-- wLength: the report and its ID byte, as far as the buffer goes. -/
def featureLen (r : ReportSize) : ℕ := min ((r.bits.toNat + 7) / 8 + 1) featureBufLen

def readFeatureReports (iface : UInt8) (reports : List (Option ReportSize)) : List Action :=
  ((reports.filterMap id).filter fun r => r.kind = .feature ∧ r.id ≠ 0).filterMap fun r =>
    if r.usagePage = usagePagePsAuth then none
    else some (.getFeature iface r.id (featureLen r))

/-- The interfaces, each with what the device answers to GET_DESCRIPTOR, of which at most
the wanted length is taken in. EP0 is open. -/
def probe {ε : Type*} (p : Profile) : List (HidInterface ε × Option (List UInt8)) → List Action
  | [] => []
  | (iface, reply) :: rest =>
    let len := min iface.reportDescLen.toNat reportDescBufLen
    .getDescriptor iface.number len ::
      match reply with
      | none => .setIdle iface.number :: probe p rest
      | some bytes =>
        let desc := bytes.take len
        .received desc ::
          match logReportSummary p desc with
          | none => [.panicked]
          | some reports =>
            readFeatureReports iface.number reports ++ .setIdle iface.number :: probe p rest

end WheelBridge.Hid
