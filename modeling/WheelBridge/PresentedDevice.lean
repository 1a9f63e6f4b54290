import WheelBridge.HidProbe
import WheelBridge.Profiles
import Mathlib.Data.List.Induction

/-!
What the device presents on the bus, and what a host that looks for HID interfaces makes
of it: the interfaces are found as the personality has them, and their report descriptors
are read whole. A bridge can therefore be served by another one.
-/
namespace WheelBridge

open Hid

/-- What `task` asks of the USB device builder for the function. -/
inductive BuilderCall
  /-- `func.interface()`, and its `alt_setting`. -/
  | interface (class_ subClass protocol : UInt8)
  | descriptor (type : UInt8) (bytes : List UInt8)
  | endpointInterruptIn (ep : Ep)
  | endpointInterruptOut (ep : Ep)
deriving DecidableEq

/-- Class-specific HID descriptor, without bLength/bDescriptorType: bcdHID, bCountryCode,
bNumDescriptors, report descriptor type and length. -/
def hidDescriptor (bcdHid : UInt16) (reportLen : ℕ) : List UInt8 :=
  let len := UInt16.ofNat reportLen
  [bcdHid.toUInt8, (bcdHid >>> 8).toUInt8, 0x00, 0x01, descTypeReport, len.toUInt8,
    (len >>> 8).toUInt8]

namespace Profile

variable (p : Profile)

def interfaceCalls (i : Fin 3) : List BuilderCall :=
  [.interface classHid 0 0, .descriptor descTypeHid (hidDescriptor (p.hid i).1 (p.hid i).2.length)]

/-- The calls of `task`, in order. -/
def builderCalls : List BuilderCall :=
  p.interfaceCalls 0 ++ (p.if0Out.map .endpointInterruptOut).toList ++
    [.endpointInterruptIn p.if0In] ++
    p.interfaceCalls 1 ++ [.endpointInterruptIn p.if1In] ++
    p.interfaceCalls 2 ++ [.endpointInterruptIn p.if2In, .endpointInterruptOut p.if2Out]

/-- The interfaces as the personality has them; `endpoint ep dirIn` describes an endpoint. -/
def interfaces {ε : Type*} (endpoint : Ep → Bool → ε) : List (HidInterface ε) :=
  [⟨0, UInt16.ofNat (p.hid 0).2.length, some (endpoint p.if0In true),
      p.if0Out.map fun ep => endpoint ep false⟩,
    ⟨1, UInt16.ofNat (p.hid 1).2.length, some (endpoint p.if1In true), none⟩,
    ⟨2, UInt16.ofNat (p.hid 2).2.length, some (endpoint p.if2In true),
      some (endpoint p.if2Out false)⟩]

end Profile

/-- The builder on the one side, and on the other the visitor that walks through what it has
built: the descriptors a host is shown for the calls, and how it is shown an endpoint. -/
structure UsbBuilder (ε : Type*) where
  configuration : List BuilderCall → List (Descriptor ε)
  endpoint : Ep → Bool → ε
  kind : EndpointKind ε

/-- The number of interfaces that the calls begin. -/
def interfaceCount (calls : List BuilderCall) : ℕ :=
  calls.countP fun
    | .interface _ _ _ => true
    | _ => false

/-- Each call adds one descriptor, in order: interfaces are numbered from 0, a class-specific
descriptor gets its header, and an endpoint is what it was asked for. -/
structure UsbBuilder.Documented {ε : Type*} (b : UsbBuilder ε) : Prop where
  start : b.configuration [] = []
  interface : ∀ calls c sub proto, b.configuration (calls ++ [.interface c sub proto]) =
    b.configuration calls ++ [.interface ⟨UInt8.ofNat (interfaceCount calls), 0, c⟩]
  descriptor : ∀ calls bytes, bytes.length + 2 < 256 → ∃ raw : RawDescriptor,
    raw.bytes = UInt8.ofNat (bytes.length + 2) :: descTypeHid :: bytes ∧
      b.configuration (calls ++ [.descriptor descTypeHid bytes]) =
        b.configuration calls ++ [.other raw]
  endpointIn : ∀ calls ep, b.configuration (calls ++ [.endpointInterruptIn ep]) =
    b.configuration calls ++ [.endpoint (b.endpoint ep true)]
  endpointOut : ∀ calls ep, b.configuration (calls ++ [.endpointInterruptOut ep]) =
    b.configuration calls ++ [.endpoint (b.endpoint ep false)]
  interrupt : ∀ ep dirIn, b.kind.isInterrupt (b.endpoint ep dirIn) = true
  direction : ∀ ep dirIn, b.kind.isIn (b.endpoint ep dirIn) = dirIn

theorem two_le_header (a b : UInt8) (rest : List UInt8) : 2 ≤ (a :: b :: rest).length :=
  Nat.le_add_left 2 rest.length

/-- A descriptor with its header. -/
def rawDescriptor (type : UInt8) (bytes : List UInt8) : RawDescriptor :=
  ⟨UInt8.ofNat (bytes.length + 2) :: type :: bytes, two_le_header ..⟩

section Emitted

variable {ε : Type*} (endpoint : Ep → Bool → ε)

/-- The descriptors of the calls, after `n` interfaces. -/
def emitted (n : ℕ) : List BuilderCall → List (Descriptor ε)
  | [] => []
  | .interface c _ _ :: calls => .interface ⟨UInt8.ofNat n, 0, c⟩ :: emitted (n + 1) calls
  | .descriptor type bytes :: calls => .other (rawDescriptor type bytes) :: emitted n calls
  | .endpointInterruptIn ep :: calls => .endpoint (endpoint ep true) :: emitted n calls
  | .endpointInterruptOut ep :: calls => .endpoint (endpoint ep false) :: emitted n calls

theorem emitted_append (n : ℕ) (calls more : List BuilderCall) :
    emitted endpoint n (calls ++ more) =
      emitted endpoint n calls ++ emitted endpoint (n + interfaceCount calls) more := by
  induction calls generalizing n with
  | nil => rfl
  | cons call calls ih =>
    cases call with
    | interface c sub proto =>
      have hcount : n + interfaceCount (.interface c sub proto :: calls) =
          n + 1 + interfaceCount calls := by
        simp [interfaceCount, Nat.add_comm, Nat.add_assoc]
      rw [hcount]
      simp only [List.cons_append, emitted, ih]
    | descriptor | endpointInterruptIn | endpointInterruptOut =>
      simp only [List.cons_append, emitted, ih]
      simp [interfaceCount]

/-- Class-specific descriptors are HID descriptors that fit. -/
def BuilderCall.Plain : BuilderCall → Prop
  | .descriptor type bytes => type = descTypeHid ∧ bytes.length + 2 < 256
  | _ => True

/-- What the builder emits is all that its documentation says. -/
theorem UsbBuilder.Documented.configuration_eq {b : UsbBuilder ε} (hb : b.Documented)
    (calls : List BuilderCall) (hplain : ∀ call ∈ calls, call.Plain) :
    b.configuration calls = emitted b.endpoint 0 calls := by
  induction calls using List.reverseRecOn with
  | nil => exact hb.start
  | append_singleton calls call ih =>
    have hbefore := ih fun c hc => hplain c (List.mem_append_left _ hc)
    have hcall := hplain call (by simp)
    rw [emitted_append, Nat.zero_add, ← hbefore]
    cases call with
    | interface c sub proto => exact hb.interface calls c sub proto
    | descriptor type bytes =>
      obtain ⟨rfl, hlen⟩ := hcall
      obtain ⟨raw, hraw, heq⟩ := hb.descriptor calls bytes hlen
      rw [heq]
      obtain ⟨rawBytes, htwo⟩ := raw
      subst hraw
      rfl
    | endpointInterruptIn ep => exact hb.endpointIn calls ep
    | endpointInterruptOut ep => exact hb.endpointOut calls ep

end Emitted

/-- `relay::run` and `proxy::run` look for an interface by number. -/
def findInterface {ε : Type*} (ifaces : List (Option (HidInterface ε))) (n : UInt8) :
    Option (HidInterface ε) :=
  (ifaces.filterMap id).find? fun i => i.number = n

/-- The endpoints `relay::run` forwards: IF0, IF1, IF2, each IN before OUT. -/
def relayEndpoints {ε : Type*} (ifaces : List (Option (HidInterface ε))) :
    Option (ε × ε × ε × ε × ε) :=
  match (findInterface ifaces 0).bind fun i => i.inEp.bind fun e => i.outEp.map fun f => (e, f),
    (findInterface ifaces 1).bind HidInterface.inEp,
    (findInterface ifaces 2).bind fun i => i.inEp.bind fun e => i.outEp.map fun f => (e, f) with
  | some (if0In, if0Out), some if1In, some (if2In, if2Out) =>
    some (if0In, if0Out, if1In, if2In, if2Out)
  | _, _, _ => none

/-- The endpoints `proxy::run` forwards. -/
def proxyEndpoints {ε : Type*} (ifaces : List (Option (HidInterface ε))) :
    Option (ε × ε × ε × ε) :=
  match (findInterface ifaces 0).bind HidInterface.inEp,
    (findInterface ifaces 1).bind HidInterface.inEp,
    (findInterface ifaces 2).bind fun i => i.inEp.bind fun e => i.outEp.map fun f => (e, f) with
  | some if0In, some if1In, some (if2In, if2Out) => some (if0In, if1In, if2In, if2Out)
  | _, _, _ => none

theorem littleEndian_halves (x : UInt16) :
    UInt16.ofNat (littleEndian [x.toUInt8, (x >>> 8).toUInt8]) = x := by
  have hlt := x.toNat_lt
  have hvalue : littleEndian [x.toUInt8, (x >>> 8).toUInt8] = x.toNat := by
    have hshift : 2 ^ (8 % 16) = 256 := by decide
    simp only [littleEndian, UInt16.toNat_toUInt8, UInt16.toNat_shiftRight, UInt16.reduceToNat,
      Nat.shiftRight_eq_div_pow, hshift]
    omega
  rw [hvalue, UInt16.ofNat_toNat]

/-- The length in a HID descriptor is the one that is read from it. -/
theorem reportDesc_hidDescriptor (bcdHid : UInt16) (reportLen : ℕ) :
    (rawDescriptor descTypeHid (hidDescriptor bcdHid reportLen)).reportDesc =
      some ⟨descTypeReport, UInt16.ofNat reportLen⟩ := by
  unfold hidDescriptor
  generalize UInt16.ofNat reportLen = len
  have hentry := littleEndian_halves len
  simp [RawDescriptor.reportDesc, rawDescriptor, entries, hentry]

theorem Profile.builderCalls_plain (p : Profile) : ∀ call ∈ p.builderCalls, call.Plain := by
  have hhid : ∀ i, ∀ call ∈ p.interfaceCalls i, call.Plain := by
    intro i call hcall
    simp only [Profile.interfaceCalls, List.mem_cons, List.not_mem_nil, or_false] at hcall
    rcases hcall with rfl | rfl
    · trivial
    · exact ⟨rfl, by simp [hidDescriptor]⟩
  intro call hcall
  simp only [Profile.builderCalls, List.mem_append, List.mem_cons,
    List.not_mem_nil, or_false, Option.mem_toList, Option.map_eq_some_iff] at hcall
  rcases hcall with ((((((hcall | ⟨ep, -, rfl⟩) | rfl) | hcall) | rfl) | hcall) | (rfl | rfl))
  · exact hhid 0 call hcall
  · trivial
  · trivial
  · exact hhid 1 call hcall
  · trivial
  · exact hhid 2 call hcall
  · trivial
  · trivial

section Presented

variable {ε : Type*} {b : UsbBuilder ε} (hb : b.Documented) (p : Profile)
include hb

theorem hidInterfaces_configuration :
    hidInterfaces b.kind (b.configuration p.builderCalls) = p.interfaces b.endpoint := by
  rw [hb.configuration_eq _ p.builderCalls_plain]
  cases hout : p.if0Out <;>
    simp [Profile.builderCalls, Profile.interfaceCalls, Profile.interfaces, emitted, hidInterfaces,
      described, span, Descriptor.isInterface, Descriptor.interrupt, Descriptor.reportDescLen,
      hb.interrupt, hb.direction, reportDesc_hidDescriptor, hout, List.findSome?_cons,
      List.filterMap_cons]

/-- The device's configuration, searched for HID interfaces. -/
theorem findInterfaces_configuration :
    findInterfaces b.kind (some (b.configuration p.builderCalls)) =
      some (slots maxHidInterfaces (p.interfaces b.endpoint)) := by
  have hempty : ([] ++ (none : Option (HidInterface ε)).toList).length ≤ maxHidInterfaces :=
    Nat.zero_le _
  have hall := visit_all b.kind (b.configuration p.builderCalls) hempty
  rw [collected] at hall
  simp only [Option.map_none, Option.toList_none, List.append_nil, List.nil_append,
    hidInterfaces_configuration hb p] at hall
  exact hall

end Presented

section Interfaces

variable {ε : Type*} (endpoint : Ep → Bool → ε) (p : Profile)

theorem relayEndpoints_interfaces :
    relayEndpoints (slots maxHidInterfaces (p.interfaces endpoint)) = p.if0Out.map fun out =>
      (endpoint p.if0In true, endpoint out false, endpoint p.if1In true, endpoint p.if2In true,
        endpoint p.if2Out false) := by
  unfold relayEndpoints findInterface
  rw [filterMap_slots]
  cases hout : p.if0Out <;> simp [Profile.interfaces, hout]

theorem proxyEndpoints_interfaces :
    proxyEndpoints (slots maxHidInterfaces (p.interfaces endpoint)) =
      some (endpoint p.if0In true, endpoint p.if1In true, endpoint p.if2In true,
        endpoint p.if2Out false) := by
  unfold proxyEndpoints findInterface
  rw [filterMap_slots]
  simp [Profile.interfaces]

end Interfaces

/-- GET_DESCRIPTOR(report), as the probe asks for it. -/
def descriptorRequest (iface : Fin 3) : Request where
  requestType := .standard
  recipient := .interface
  request := getDescriptor
  value := 0x2200
  index := UInt16.ofNat iface

theorem controlIn_descriptorRequest (p : Profile) (input : Bytes c269Len)
    (report : Option (List UInt8)) (iface : Fin 3) :
    controlIn p input report (descriptorRequest iface) = some (.accepted (p.hid iface).2) := by
  have hkind : (descriptorRequest iface).kind = descTypeReport := by
    change ((0x2200 : UInt16) >>> 8).toUInt8 = descTypeReport
    decide
  have hindex : (descriptorRequest iface).index.toNat = iface := by
    match iface with
    | 0 | 1 | 2 => rfl
  simp only [controlIn, hkind, hindex]
  simp [descriptorRequest]

/-- Whatever the personality, a host that looks for HID interfaces finds the three there are
and no other, each with its endpoints and the length of its report descriptor; `proxy::run`
takes the device, and `relay::run` does where IF0 has an OUT endpoint; and the report
descriptor the probe asks for, by the length it was told, is the one the handler gives,
whole. -/
theorem presented_device_found {ε : Type*} {b : UsbBuilder ε} (hb : b.Documented) (p : Profile)
    (hlen : ∀ i, (p.hid i).2.length ≤ reportDescBufLen) :
    ∃ ifaces, findInterfaces b.kind (some (b.configuration p.builderCalls)) = some ifaces ∧
      ifaces = slots maxHidInterfaces (p.interfaces b.endpoint) ∧
      proxyEndpoints ifaces =
        some (b.endpoint p.if0In true, b.endpoint p.if1In true, b.endpoint p.if2In true,
          b.endpoint p.if2Out false) ∧
      relayEndpoints ifaces = (p.if0Out.map fun out =>
        (b.endpoint p.if0In true, b.endpoint out false, b.endpoint p.if1In true,
          b.endpoint p.if2In true, b.endpoint p.if2Out false)) ∧
      ∀ i : Fin 3, ∃ iface, findInterface ifaces (UInt8.ofNat i) = some iface ∧
        ∀ input report, controlIn p input report (descriptorRequest i) =
          some (.accepted (p.hid i).2) ∧
          min iface.reportDescLen.toNat reportDescBufLen = (p.hid i).2.length := by
  refine ⟨_, findInterfaces_configuration hb p, rfl, proxyEndpoints_interfaces b.endpoint p,
    relayEndpoints_interfaces b.endpoint p, ?_⟩
  intro i
  have hnat : (UInt16.ofNat (p.hid i).2.length).toNat = (p.hid i).2.length := by
    apply UInt16.toNat_ofNat_of_lt
    exact Nat.lt_of_le_of_lt (hlen i) (by decide)
  have hmin : min (UInt16.ofNat (p.hid i).2.length).toNat reportDescBufLen =
      (p.hid i).2.length := by
    rw [hnat]
    exact Nat.min_eq_left (hlen i)
  have hfind : ∃ iface, findInterface (slots maxHidInterfaces (p.interfaces b.endpoint))
      (UInt8.ofNat i) = some iface ∧ iface.reportDescLen = UInt16.ofNat (p.hid i).2.length := by
    unfold findInterface
    rw [filterMap_slots]
    match i with
    | 0 | 1 | 2 => simp [Profile.interfaces]
  obtain ⟨iface, hiface, hreport⟩ := hfind
  refine ⟨iface, hiface, fun input report => ⟨controlIn_descriptorRequest p input report i, ?_⟩⟩
  rw [hreport]
  exact hmin

/-- A builder whose descriptors are shown as they were asked for. -/
def plainBuilder : UsbBuilder (Ep × Bool) where
  configuration := emitted Prod.mk 0
  endpoint := Prod.mk
  kind := ⟨fun _ => true, Prod.snd⟩

theorem plainBuilder_documented : plainBuilder.Documented where
  start := rfl
  interface calls c sub proto := by
    simp [plainBuilder, emitted_append, emitted]
  descriptor calls bytes _ :=
    ⟨rawDescriptor descTypeHid bytes, rfl, emitted_append Prod.mk 0 calls _⟩
  endpointIn calls ep := emitted_append Prod.mk 0 calls _
  endpointOut calls ep := emitted_append Prod.mk 0 calls _
  interrupt _ _ := rfl
  direction _ _ := rfl

theorem c269_found :
    ∃ ifaces, findInterfaces plainBuilder.kind
        (some (plainBuilder.configuration relayC269.builderCalls)) = some ifaces ∧
      (relayEndpoints ifaces).isSome = true := by
  have hshort : ∀ i, (relayC269.hid i).2.length ≤ reportDescBufLen
    | 0 | 1 | 2 => by decide +kernel
  obtain ⟨ifaces, hfound, -, -, hrelay, -⟩ :=
    presented_device_found plainBuilder_documented relayC269 hshort
  exact ⟨ifaces, hfound, by rw [hrelay]; rfl⟩

end WheelBridge
