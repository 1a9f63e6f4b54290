import WheelBridge.ReportItems
import WheelBridge.Slots

/-!
`find_interfaces`: the HID interfaces of a configuration, collected by callbacks that the
descriptor visitor makes once for each descriptor, in order. None stands for a panic.
-/
namespace WheelBridge.Hid

/-- HID interfaces tracked per device. -/
def maxHidInterfaces : ℕ := 4

def classHid : UInt8 := 0x03
def descTypeHid : UInt8 := 0x21
def descTypeReport : UInt8 := 0x22

structure InterfaceDescriptor where
  interfaceNumber : UInt8
  alternateSetting : UInt8
  interfaceClass : UInt8

/-- A descriptor that is neither an interface nor an endpoint, with its header. -/
structure RawDescriptor where
  bytes : List UInt8
  two_le : 2 ≤ bytes.length

inductive Descriptor (ε : Type*)
  | interface (i : InterfaceDescriptor)
  | endpoint (e : ε)
  | other (raw : RawDescriptor)

structure HidInterface (ε : Type*) where
  number : UInt8
  reportDescLen : UInt16
  inEp : Option ε
  outEp : Option ε

structure HidFinder (ε : Type*) where
  ifaces : List (Option (HidInterface ε))
  /-- Slot of the HID interface whose sub-descriptors are being visited. -/
  current : Option ℕ

/-- What is asked of an endpoint descriptor. -/
structure EndpointKind (ε : Type*) where
  isInterrupt : ε → Bool
  isIn : ε → Bool

/-- bDescriptorType and wDescriptorLength. -/
structure Entry where
  type : UInt8
  len : UInt16

/-- The complete entries. -/
def entries : List UInt8 → List Entry
  | type :: lo :: hi :: rest => ⟨type, UInt16.ofNat (littleEndian [lo, hi])⟩ :: entries rest
  | _ => []

/-- The first report descriptor among the listed entries of a HID descriptor. -/
def RawDescriptor.reportDesc (raw : RawDescriptor) : Option Entry :=
  have := raw.two_le
  if h : raw.bytes[1] = descTypeHid ∧ 6 ≤ raw.bytes.length then
    have := h.2
    ((entries (raw.bytes.drop 6)).take raw.bytes[5].toNat).find? fun entry =>
      entry.type = descTypeReport
  else none

/-- `as_chunks::<3>().0`. -/
def chunks : List UInt8 → List (UInt8 × UInt8 × UInt8)
  | a :: b :: c :: rest => (a, b, c) :: chunks rest
  | _ => []

namespace HidFinder

variable {ε : Type*}

def init : HidFinder ε := ⟨List.replicate maxHidInterfaces none, none⟩

def onInterface (f : HidFinder ε) (i : InterfaceDescriptor) : HidFinder ε :=
  let f := { f with current := none }
  if i.interfaceClass ≠ classHid ∨ i.alternateSetting ≠ 0 then f
  else
    match f.ifaces.findIdx? Option.isNone with
    | some slot =>
      { f with
        ifaces := f.ifaces.set slot (some ⟨i.interfaceNumber, 0, none, none⟩)
        current := some slot }
    | none => f

/-- `self.current.and_then(|slot| self.ifaces[slot].as_mut())`, and the change made there. -/
def atCurrent (f : HidFinder ε) (change : HidInterface ε → HidInterface ε) :
    Option (HidFinder ε) :=
  match f.current with
  | none => some f
  | some slot =>
    match f.ifaces[slot]? with
    | none => none
    | some none => some f
    | some (some iface) => some { f with ifaces := f.ifaces.set slot (some (change iface)) }

/-- The first interrupt endpoint of each direction is kept (`get_or_insert`). -/
def addEndpoint (k : EndpointKind ε) (e : ε) (iface : HidInterface ε) : HidInterface ε :=
  if k.isInterrupt e then
    if k.isIn e then { iface with inEp := iface.inEp.or (some e) }
    else { iface with outEp := iface.outEp.or (some e) }
  else iface

/-- The loop over the listed entries; it breaks at the first report descriptor. -/
def addListed : List (UInt8 × UInt8 × UInt8) → HidInterface ε → HidInterface ε
  | [], iface => iface
  | (type, lo, hi) :: rest, iface =>
    if type = descTypeReport then
      { iface with reportDescLen := UInt16.ofNat (littleEndian [lo, hi]) }
    else addListed rest iface

def addOther (raw : RawDescriptor) (iface : HidInterface ε) : HidInterface ε :=
  have := raw.two_le
  if h : raw.bytes[1] = descTypeHid ∧ 6 ≤ raw.bytes.length then
    have := h.2
    addListed ((chunks (raw.bytes.drop 6)).take raw.bytes[5].toNat) iface
  else iface

def onEndpoint (k : EndpointKind ε) (f : HidFinder ε) (e : ε) : Option (HidFinder ε) :=
  f.atCurrent (addEndpoint k e)

def onOther (f : HidFinder ε) (raw : RawDescriptor) : Option (HidFinder ε) :=
  f.atCurrent (addOther raw)

/-- Every callback lets the visitor go on. -/
def visit (k : EndpointKind ε) (f : HidFinder ε) : Descriptor ε → Option (HidFinder ε)
  | .interface i => some (f.onInterface i)
  | .endpoint e => f.onEndpoint k e
  | .other raw => f.onOther raw

end HidFinder

section Interfaces

variable {ε : Type*} (k : EndpointKind ε)

/-- `cfg` are the descriptors of a configuration; none where the bytes are not one. -/
def findInterfaces (cfg : Option (List (Descriptor ε))) :
    Option (List (Option (HidInterface ε))) :=
  match cfg with
  | none => some HidFinder.init.ifaces
  | some ds => (ds.foldlM (HidFinder.visit k) HidFinder.init).map HidFinder.ifaces

def Descriptor.isInterface : Descriptor ε → Bool
  | .interface _ => true
  | .endpoint _ | .other _ => false

/-- The descriptors before the next interface. -/
def span (ds : List (Descriptor ε)) : List (Descriptor ε) := ds.takeWhile fun d => !d.isInterface

/-- An interrupt endpoint of one direction. -/
def Descriptor.interrupt (dirIn : Bool) : Descriptor ε → Option ε
  | .endpoint e => if k.isInterrupt e ∧ k.isIn e = dirIn then some e else none
  | .interface _ | .other _ => none

def Descriptor.reportDescLen : Descriptor ε → Option UInt16
  | .other raw => raw.reportDesc.map Entry.len
  | .interface _ | .endpoint _ => none

/-- An interface with its own descriptors. -/
def described (i : InterfaceDescriptor) (own : List (Descriptor ε)) : HidInterface ε where
  number := i.interfaceNumber
  reportDescLen := (own.filterMap Descriptor.reportDescLen).getLast?.getD 0
  inEp := own.findSome? (Descriptor.interrupt k true)
  outEp := own.findSome? (Descriptor.interrupt k false)

/-- The HID interfaces with alternate setting 0, in order. -/
def hidInterfaces : List (Descriptor ε) → List (HidInterface ε)
  | [] => []
  | .interface i :: ds =>
    if i.interfaceClass = classHid ∧ i.alternateSetting = 0 then
      described k i (span ds) :: hidInterfaces ds
    else hidInterfaces ds
  | .endpoint _ :: ds | .other _ :: ds => hidInterfaces ds

/-- What a descriptor adds to the interface before it. -/
def HidInterface.extend (iface : HidInterface ε) : Descriptor ε → HidInterface ε
  | .interface _ => iface
  | .endpoint e => HidFinder.addEndpoint k e iface
  | .other raw => HidFinder.addOther raw iface

theorem entries_eq (bytes : List UInt8) :
    entries bytes = (chunks bytes).map fun c =>
      ⟨c.1, UInt16.ofNat (littleEndian [c.2.1, c.2.2])⟩ := by
  fun_induction entries bytes with
  | case1 type lo hi rest ih => rw [chunks, List.map_cons, ih]
  | case2 bytes hshort =>
    rw [chunks]
    · rfl
    · exact hshort

/-- The loop takes the length from the first report descriptor that is listed. -/
theorem addListed_eq (listed : List (UInt8 × UInt8 × UInt8)) (iface : HidInterface ε) :
    HidFinder.addListed listed iface =
      match (listed.map fun c => (⟨c.1, UInt16.ofNat (littleEndian [c.2.1, c.2.2])⟩ : Entry)).find?
        fun entry => entry.type = descTypeReport with
      | some entry => { iface with reportDescLen := entry.len }
      | none => iface := by
  induction listed with
  | nil => rfl
  | cons c listed ih =>
    obtain ⟨type, lo, hi⟩ := c
    by_cases htype : type = descTypeReport
    · simp [HidFinder.addListed, htype]
    · simpa [HidFinder.addListed, htype] using ih

theorem addOther_eq (raw : RawDescriptor) (iface : HidInterface ε) :
    HidFinder.addOther raw iface =
      match raw.reportDesc with
      | some entry => { iface with reportDescLen := entry.len }
      | none => iface := by
  have := raw.two_le
  by_cases h : raw.bytes[1] = descTypeHid ∧ 6 ≤ raw.bytes.length
  · simp only [HidFinder.addOther, RawDescriptor.reportDesc, dif_pos h, addListed_eq, entries_eq,
      List.map_take]
  · simp only [HidFinder.addOther, RawDescriptor.reportDesc, dif_neg h]

theorem foldl_extend (own : List (Descriptor ε)) (iface : HidInterface ε) :
    own.foldl (HidInterface.extend k) iface =
      { number := iface.number
        reportDescLen := (own.filterMap Descriptor.reportDescLen).getLast?.getD iface.reportDescLen
        inEp := iface.inEp.or (own.findSome? (Descriptor.interrupt k true))
        outEp := iface.outEp.or (own.findSome? (Descriptor.interrupt k false)) } := by
  induction own generalizing iface with
  | nil => simp
  | cons d own ih =>
    rw [List.foldl_cons, ih]
    cases d with
    | interface i => rfl
    | endpoint e =>
      cases hint : k.isInterrupt e <;> cases hin : k.isIn e <;>
        simp [HidInterface.extend, HidFinder.addEndpoint, Descriptor.interrupt,
          Descriptor.reportDescLen, List.findSome?_cons, hint, hin]
    | other raw =>
      cases hraw : raw.reportDesc <;>
        simp [HidInterface.extend, addOther_eq, Descriptor.interrupt,
          Descriptor.reportDescLen, List.findSome?_cons, hraw, List.getLast?_cons]

theorem described_eq (i : InterfaceDescriptor) (own : List (Descriptor ε)) :
    own.foldl (HidInterface.extend k) ⟨i.interfaceNumber, 0, none, none⟩ = described k i own := by
  rw [foldl_extend]
  rfl

/-- The finder with the interfaces before the current one, and the current one. -/
def finderWith (table : List (HidInterface ε)) : Option (HidInterface ε) → HidFinder ε
  | none => ⟨slots maxHidInterfaces table, none⟩
  | some iface => ⟨slots maxHidInterfaces (table ++ [iface]), some table.length⟩

/-- What is collected once the descriptors `ds` are visited as well. -/
def collected (table : List (HidInterface ε)) (current : Option (HidInterface ε))
    (ds : List (Descriptor ε)) : List (HidInterface ε) :=
  table ++ (current.map ((span ds).foldl (HidInterface.extend k))).toList ++ hidInterfaces k ds

theorem atCurrent_finderWith (table : List (HidInterface ε)) (current : Option (HidInterface ε))
    (change : HidInterface ε → HidInterface ε) :
    (finderWith table current).atCurrent change = some (finderWith table (current.map change)) := by
  cases current with
  | none => rfl
  | some iface =>
    have hlt : table.length < (table ++ [iface]).length := by simp
    have hat : (table ++ [iface])[table.length] = iface := by simp
    simp only [finderWith, HidFinder.atCurrent, getElem?_slots _ hlt, hat, slots_set _ hlt]
    simp

/-- An interface closes the one before it; it has a slot as long as one is free. -/
theorem onInterface_finderWith {table : List (HidInterface ε)}
    (hle : table.length ≤ maxHidInterfaces) (current : Option ℕ) (i : InterfaceDescriptor) :
    (HidFinder.onInterface ⟨slots maxHidInterfaces table, current⟩ i) =
      finderWith table
        (if (i.interfaceClass = classHid ∧ i.alternateSetting = 0) ∧
            table.length < maxHidInterfaces then some ⟨i.interfaceNumber, 0, none, none⟩
          else none) := by
  unfold HidFinder.onInterface
  dsimp only
  rw [findIdx?_slots_free hle]
  by_cases hhid : i.interfaceClass = classHid ∧ i.alternateSetting = 0
  · have hno : ¬ (i.interfaceClass ≠ classHid ∨ i.alternateSetting ≠ 0) := by
      rw [hhid.1, hhid.2]
      simp
    by_cases hlt : table.length < maxHidInterfaces
    · simp only [if_neg hno, if_pos hlt, if_pos (And.intro hhid hlt), slots_append hlt]
      rfl
    · simp only [if_neg hno, if_neg hlt, if_neg fun h => hlt (And.right h)]
      rfl
  · have hskip : i.interfaceClass ≠ classHid ∨ i.alternateSetting ≠ 0 :=
      not_and_or.mp hhid
    simp only [if_pos hskip, if_neg fun h => hhid (And.left h)]
    rfl

/-- A descriptor of the current interface. -/
theorem visit_own {d : Descriptor ε} (hd : d.isInterface = false)
    (table : List (HidInterface ε)) (current : Option (HidInterface ε)) :
    HidFinder.visit k (finderWith table current) d =
      some (finderWith table (current.map fun iface => iface.extend k d)) := by
  cases d with
  | interface i => cases hd
  | endpoint e => exact atCurrent_finderWith table current (HidFinder.addEndpoint k e)
  | other raw => exact atCurrent_finderWith table current (HidFinder.addOther raw)

theorem collected_own {d : Descriptor ε} (hd : d.isInterface = false)
    (table : List (HidInterface ε)) (current : Option (HidInterface ε))
    (ds : List (Descriptor ε)) :
    collected k table current (d :: ds) =
      collected k table (current.map fun iface => iface.extend k d) ds := by
  cases d with
  | interface i => cases hd
  | endpoint e => cases current <;> rfl
  | other raw => cases current <;> rfl

/-- An interface after those collected; past the last slot it is not kept. -/
theorem collected_interface (table : List (HidInterface ε)) (current : Option (HidInterface ε))
    (i : InterfaceDescriptor) (ds : List (Descriptor ε)) :
    (collected k table current (.interface i :: ds)).take maxHidInterfaces =
      (collected k (table ++ current.toList)
        (if (i.interfaceClass = classHid ∧ i.alternateSetting = 0) ∧
            (table ++ current.toList).length < maxHidInterfaces then
          some ⟨i.interfaceNumber, 0, none, none⟩ else none) ds).take maxHidInterfaces := by
  have hclosed : collected k table current (.interface i :: ds) =
      table ++ current.toList ++ hidInterfaces k (.interface i :: ds) := by
    cases current <;> rfl
  rw [hclosed, hidInterfaces]
  generalize table ++ current.toList = kept
  by_cases hhid : i.interfaceClass = classHid ∧ i.alternateSetting = 0
  · rw [if_pos hhid]
    by_cases hlt : kept.length < maxHidInterfaces
    · rw [if_pos ⟨hhid, hlt⟩, collected, Option.map_some, described_eq, Option.toList_some,
        List.append_assoc _ [_], List.singleton_append]
    · rw [if_neg fun h => hlt h.2, collected, Option.map_none, Option.toList_none,
        List.append_nil, List.take_append_of_le_length (by omega),
        List.take_append_of_le_length (by omega)]
  · rw [if_neg hhid, if_neg fun h => hhid h.1, collected, Option.map_none, Option.toList_none,
      List.append_nil]

/-- The descriptors are all visited, within the slots, and the first interfaces are kept. -/
theorem visit_all (ds : List (Descriptor ε)) {table : List (HidInterface ε)}
    {current : Option (HidInterface ε)}
    (hle : (table ++ current.toList).length ≤ maxHidInterfaces) :
    (ds.foldlM (HidFinder.visit k) (finderWith table current)).map HidFinder.ifaces =
      some (slots maxHidInterfaces ((collected k table current ds).take maxHidInterfaces)) := by
  induction ds generalizing table current with
  | nil =>
    have hall : collected k table current [] = table ++ current.toList := by
      cases current <;> simp [collected, span, hidInterfaces]
    rw [hall, List.take_of_length_le hle]
    cases current <;> simp [finderWith]
  | cons d ds ih =>
    rw [List.foldlM_cons, Option.bind_eq_bind]
    cases hd : d.isInterface with
    | true =>
      obtain ⟨i, rfl⟩ : ∃ i, d = .interface i := by
        cases d with
        | interface i => exact ⟨i, rfl⟩
        | endpoint | other => cases hd
      obtain ⟨slot, hfinder⟩ : ∃ slot, finderWith table current =
          ⟨slots maxHidInterfaces (table ++ current.toList), slot⟩ := by
        cases current with
        | none => exact ⟨none, by rw [finderWith, Option.toList_none, List.append_nil]⟩
        | some iface => exact ⟨some table.length, rfl⟩
      rw [hfinder, HidFinder.visit, onInterface_finderWith hle, Option.bind_some, ih,
        collected_interface]
      split
      · next h =>
        rw [Option.toList_some, List.length_append, List.length_singleton]
        exact h.2
      · rwa [Option.toList_none, List.append_nil]
    | false =>
      rw [visit_own k hd, Option.bind_some, ih, collected_own k hd]
      cases current <;> simpa using hle

/-- The finder stays within its slots; slot `n` is the `n`-th HID interface with alternate
setting 0, described by its own descriptors alone. -/
theorem interfaces_found (cfg : Option (List (Descriptor ε))) :
    ∃ ifaces, findInterfaces k cfg = some ifaces ∧ ifaces.length = maxHidInterfaces ∧
      ∀ n < maxHidInterfaces, ifaces[n]? = some (hidInterfaces k (cfg.getD []))[n]? := by
  have hall : findInterfaces k cfg = some (slots maxHidInterfaces
      ((hidInterfaces k (cfg.getD [])).take maxHidInterfaces)) := by
    cases cfg with
    | none => rfl
    | some ds =>
      have hnone : (([] : List (HidInterface ε)) ++ none.toList).length ≤ maxHidInterfaces :=
        Nat.zero_le _
      exact visit_all k ds hnone
  refine ⟨_, hall, length_slots (List.length_take_le ..), ?_⟩
  intro n hn
  rw [getElem?_slots_of_lt n hn, List.getElem?_take_of_lt hn]

end Interfaces

end WheelBridge.Hid
