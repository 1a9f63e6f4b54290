import Mathlib.Algebra.Ring.Nat
import WheelBridge.ReportItems

/-!
`log_report_summary`: one index loop over a report descriptor that splits it into items,
decodes them, follows the global state on a stack of four entries and adds up the size of
every (report ID, type) pair. None stands for a panic. What is only logged is left out.
-/
namespace WheelBridge.Hid

/-- (report ID, type) pairs tracked per report descriptor. -/
def maxReports : ℕ := 24

def stackLen : ℕ := 4

/-- How the firmware is built: arithmetic that overflows panics, or wraps. -/
inductive Profile
  | dev
  | release
deriving DecidableEq

/-- `a * b` on `u32`. -/
def Profile.mul (p : Profile) (a b : UInt32) : Option UInt32 :=
  if p = .dev ∧ 2 ^ 32 ≤ a.toNat * b.toNat then none else some (a * b)

/-- `a + b` on `u32`. -/
def Profile.add (p : Profile) (a b : UInt32) : Option UInt32 :=
  if p = .dev ∧ 2 ^ 32 ≤ a.toNat + b.toNat then none else some (a + b)

structure ReportSize where
  id : UInt8
  kind : ReportKind
  bits : UInt32
  /-- Usage page in effect at the report's first main item. -/
  usagePage : UInt16
deriving DecidableEq

/-- What the loop carries besides its index. -/
structure Scan where
  reports : List (Option ReportSize)
  g : Globals
  stack : List Globals
  depth : ℕ

def Scan.init : Scan where
  reports := List.replicate maxReports none
  g := Globals.default
  stack := List.replicate stackLen Globals.default
  depth := 0

/-- `desc.get(start..stop)`. -/
def getRange (desc : List UInt8) (start stop : ℕ) : Option (List UInt8) :=
  if start ≤ stop ∧ stop ≤ desc.length then some ((desc.take stop).drop start) else none

def itemData (bytes : List UInt8) : UInt32 :=
  bytes.reverse.foldl (fun acc b => acc <<< 8 ||| b.toUInt32) 0

/-- The size of a main item is added to the entry of its pair, or starts one in the first
free slot. -/
def addBits (p : Profile) (kind : ReportKind) (g : Globals) (bits : UInt32)
    (reports : List (Option ReportSize)) : Option (List (Option ReportSize)) :=
  match reports.findIdx? fun slot => slot.any fun r => r.id = g.reportId ∧ r.kind = kind with
  | some i =>
    match reports[i]? with
    | some (some r) =>
      (p.add r.bits bits).map fun bits => reports.set i (some { r with bits := bits })
    | _ => none
  | none =>
    match reports.findIdx? Option.isNone with
    | some i => some (reports.set i (some ⟨g.reportId, kind, bits, g.usagePage⟩))
    | none => some reports

def Scan.mainItem (p : Profile) (kind : ReportKind) (s : Scan) : Option Scan :=
  match p.mul s.g.reportSize s.g.reportCount with
  | none => none
  | some bits =>
    (addBits p kind s.g bits s.reports).map fun reports => { s with reports := reports }

def Scan.globalItem (tag : UInt8) (data : UInt32) (s : Scan) : Option Scan :=
  if tag = 0x0 then some { s with g := { s.g with usagePage := data.toUInt16 } }
  else if tag = 0x7 then some { s with g := { s.g with reportSize := data } }
  else if tag = 0x8 then some { s with g := { s.g with reportId := data.toUInt8 } }
  else if tag = 0x9 then some { s with g := { s.g with reportCount := data } }
  else if tag = 0xa ∧ s.depth < s.stack.length then
    some { s with stack := s.stack.set s.depth s.g, depth := s.depth + 1 }
  else if tag = 0xb ∧ 0 < s.depth then
    -- the stack is indexed after `depth` went down
    s.stack[s.depth - 1]?.map fun g => { s with g := g, depth := s.depth - 1 }
  else some s

/-- The effect of a short item with its prefix and its data. -/
def Scan.shortItem (p : Profile) (pre : UInt8) (data : UInt32) (s : Scan) : Option Scan :=
  let tag := itemTag pre
  if itemType pre = 0 then
    if tag = 0x8 then s.mainItem p .input
    else if tag = 0x9 then s.mainItem p .output
    else if tag = 0xb then s.mainItem p .feature
    else some s
  else if itemType pre = 1 then s.globalItem tag data
  else some s

/-- The loop from index `i` on; none also where it is not over after `fuel` rounds. -/
def Scan.loop (p : Profile) (desc : List UInt8) : ℕ → ℕ → Scan → Option Scan
  | 0, i, s => if i < desc.length then none else some s
  | fuel + 1, i, s =>
    if h : i < desc.length then
      let pre := desc[i]
      if pre = longPrefix then
        let size := (desc[i + 1]?.getD 0).toNat
        loop p desc fuel (i + (3 + size)) s
      else
        let size := dataLen pre
        match getRange desc (i + 1) (i + 1 + size) with
        | none => some s
        | some bytes =>
          match s.shortItem p pre (itemData bytes) with
          | none => none
          | some s => loop p desc fuel (i + (1 + size)) s
    else some s

/-- Each round moves the index, so there are at most as many as there are bytes. -/
def logReportSummary (p : Profile) (desc : List UInt8) : Option (List (Option ReportSize)) :=
  (Scan.loop p desc desc.length 0 Scan.init).map Scan.reports

end WheelBridge.Hid
