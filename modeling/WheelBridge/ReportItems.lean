import Mathlib.Data.Fintype.Basic
import Mathlib.Tactic.Common
import Mathlib.Tactic.FinCases

/-!
Items of a HID report descriptor (HID 1.11 §6.2.2): how bytes are split into whole items,
what the items of interest mean, and which main items a descriptor declares under which
global state. How many states a Push finds room for is left open.
-/
namespace WheelBridge.Hid

def longPrefix : UInt8 := 0xfe

/-- The number of data bytes that the prefix of a short item tells. -/
def dataLen (pre : UInt8) : ℕ := if pre &&& 0x03 = 3 then 4 else (pre &&& 0x03).toNat

structure ShortItem where
  pre : UInt8
  data : List UInt8
  ne_long : pre ≠ longPrefix
  length_eq : data.length = dataLen pre

/-- bDataSize is the length of `data`. -/
structure LongItem where
  tag : UInt8
  data : List UInt8
  length_lt : data.length < 256

inductive Item
  | short (x : ShortItem)
  | long (x : LongItem)

/-- A short item, written out. -/
def Item.ofShort (pre : UInt8) (data : List UInt8)
    (h : decide (pre ≠ longPrefix ∧ data.length = dataLen pre) = true) : Item :=
  .short ⟨pre, data, (of_decide_eq_true h).1, (of_decide_eq_true h).2⟩

/-- Usage Page (Generic Desktop), Usage Page (0xFFF0), Feature. -/
def desktopItem : Item := .ofShort 0x05 [1] rfl
def authItem : Item := .ofShort 0x06 [0xf0, 0xff] rfl
def featureItem : Item := .ofShort 0xb1 [2] rfl

def LongItem.bytes (x : LongItem) : List UInt8 :=
  longPrefix :: UInt8.ofNat x.data.length :: x.tag :: x.data

def Item.bytes : Item → List UInt8
  | .short x => x.pre :: x.data
  | .long x => x.bytes

/-- The rest of a long item after its prefix, and the bytes after it. -/
def nextLong : List UInt8 → Option (LongItem × List UInt8)
  | size :: tag :: rest =>
    if h : size.toNat ≤ rest.length then
      some (⟨tag, rest.take size.toNat, by
        rw [List.length_take, Nat.min_eq_left h]
        exact size.toNat_lt⟩, rest.drop size.toNat)
    else none
  | _ => none

/-- The whole item that the bytes begin with, and the bytes after it. -/
def nextItem : List UInt8 → Option (Item × List UInt8)
  | [] => none
  | pre :: rest =>
    if h : pre = longPrefix then (nextLong rest).map fun r => (.long r.1, r.2)
    else if hlen : dataLen pre ≤ rest.length then
      some (.short ⟨pre, rest.take (dataLen pre), h, by
        rw [List.length_take, Nat.min_eq_left hlen]⟩, rest.drop (dataLen pre))
    else none

theorem nextItem_short (x : ShortItem) (rest : List UInt8) :
    nextItem (x.pre :: (x.data ++ rest)) = some (.short x, rest) := by
  obtain ⟨pre, data, hne, hlen⟩ := x
  have hle : dataLen pre ≤ (data ++ rest).length := by
    rw [List.length_append]
    omega
  rw [nextItem, dif_neg hne, dif_pos hle]
  simp only [List.take_left' hlen, List.drop_left' hlen]

theorem nextItem_long (x : LongItem) (rest : List UInt8) :
    nextItem (x.bytes ++ rest) = some (.long x, rest) := by
  obtain ⟨tag, data, hlt⟩ := x
  have hsize : (UInt8.ofNat data.length).toNat = data.length := UInt8.toNat_ofNat_of_lt' hlt
  have hle : (UInt8.ofNat data.length).toNat ≤ (data ++ rest).length := by
    rw [hsize, List.length_append]
    omega
  simp only [LongItem.bytes, List.cons_append, nextItem, nextLong, dif_pos, dif_pos hle,
    List.take_left' hsize.symm, List.drop_left' hsize.symm, Option.map_some]

theorem nextItem_bytes (x : Item) (rest : List UInt8) :
    nextItem (x.bytes ++ rest) = some (x, rest) := by
  cases x with
  | short x => exact nextItem_short x rest
  | long x => exact nextItem_long x rest

theorem bytes_of_nextLong {bs rest : List UInt8} {x : LongItem}
    (h : nextLong bs = some (x, rest)) : longPrefix :: bs = x.bytes ++ rest := by
  unfold nextLong at h
  split at h
  · next size tag tail =>
    split at h
    · next hsize =>
      cases h
      have hlen : (tail.take size.toNat).length = size.toNat := by
        rw [List.length_take, Nat.min_eq_left hsize]
      simp [LongItem.bytes, hlen]
    · cases h
  · cases h

theorem bytes_of_nextItem {bs rest : List UInt8} {x : Item} (h : nextItem bs = some (x, rest)) :
    bs = x.bytes ++ rest := by
  unfold nextItem at h
  split at h
  · cases h
  · next pre tail =>
    split at h
    · next hlong =>
      obtain ⟨r, hr, heq⟩ := Option.map_eq_some_iff.mp h
      cases heq
      rw [hlong]
      exact bytes_of_nextLong hr
    · split at h
      · cases h
        simp [Item.bytes]
      · cases h

/-- A long item is cut short where its size tells more than there is. -/
theorem nextLong_eq_none {bs : List UInt8} (h : nextLong bs = none) :
    bs.length < 2 + (bs[0]?.getD 0).toNat := by
  unfold nextLong at h
  split at h
  · next size tag tail =>
    split at h
    · cases h
    · next hsize =>
      simp only [List.length_cons, List.getElem?_cons_zero, Option.getD_some]
      omega
  · next hshort =>
    match bs with
    | [] => simp
    | [size] => simp only [List.length_singleton]; omega
    | size :: tag :: tail => exact absurd rfl (hshort size tag tail)

theorem Item.length_bytes_pos (x : Item) : 0 < x.bytes.length := by
  cases x with
  | short x => exact Nat.succ_pos _
  | long x => exact Nat.succ_pos _

/-- The whole items of a descriptor, up to the first that is cut short. -/
def items (bs : List UInt8) : List Item :=
  match _h : nextItem bs with
  | none => []
  | some (x, rest) => x :: items rest
termination_by bs.length
decreasing_by
  rw [bytes_of_nextItem _h, List.length_append]
  have hpos := x.length_bytes_pos
  omega

theorem items_of_none {bs : List UInt8} (h : nextItem bs = none) : items bs = [] := by
  rw [items]
  split
  · rfl
  · next x rest heq => rw [h] at heq; cases heq

theorem items_of_some {bs rest : List UInt8} {x : Item} (h : nextItem bs = some (x, rest)) :
    items bs = x :: items rest := by
  rw [items]
  split
  · next heq => rw [h] at heq; cases heq
  · next y rest' heq =>
    rw [h] at heq
    cases heq
    rfl

/-- Whole items are read back, whatever follows. -/
theorem items_bytes (xs : List Item) (rest : List UInt8) :
    items (xs.flatMap Item.bytes ++ rest) = xs ++ items rest := by
  induction xs with
  | nil => rfl
  | cons x xs ih =>
    rw [List.flatMap_cons, List.append_assoc, items_of_some (nextItem_bytes x _), ih,
      List.cons_append]

def littleEndian : List UInt8 → ℕ
  | [] => 0
  | b :: bs => b.toNat + 256 * littleEndian bs

def ShortItem.value (x : ShortItem) : UInt32 := UInt32.ofNat (littleEndian x.data)

/-- bType and bTag of a prefix. -/
def itemType (pre : UInt8) : UInt8 := (pre >>> 2) &&& 0x03
def itemTag (pre : UInt8) : UInt8 := pre >>> 4

inductive ReportKind
  | input
  | output
  | feature
deriving DecidableEq

inductive Meaning
  | main (kind : ReportKind)
  | usagePage (page : UInt16)
  | reportSize (size : UInt32)
  | reportId (id : UInt8)
  | reportCount (count : UInt32)
  | push
  | pop
  /-- Collections, local items and the globals that no size depends on. -/
  | other
deriving DecidableEq

def mainMeaning (tag : UInt8) : Meaning :=
  if tag = 0x8 then .main .input
  else if tag = 0x9 then .main .output
  else if tag = 0xb then .main .feature
  else .other

def globalMeaning (tag : UInt8) (value : UInt32) : Meaning :=
  if tag = 0x0 then .usagePage value.toUInt16
  else if tag = 0x7 then .reportSize value
  else if tag = 0x8 then .reportId value.toUInt8
  else if tag = 0x9 then .reportCount value
  else if tag = 0xa then .push
  else if tag = 0xb then .pop
  else .other

def ShortItem.meaning (x : ShortItem) : Meaning :=
  if itemType x.pre = 0 then mainMeaning (itemTag x.pre)
  else if itemType x.pre = 1 then globalMeaning (itemTag x.pre) x.value
  else .other

section prefixes

/-- A prefix by its fields: bTag, bType and bSize, the highest bits first. -/
def shortPrefix (tag : Fin 16) (type size : Fin 4) : UInt8 :=
  UInt8.ofNat (16 * tag + 4 * type + size)

theorem exists_shortPrefix (pre : UInt8) :
    ∃ tag type size, pre = shortPrefix tag type size := by
  have hlt := pre.toNat_lt
  refine ⟨⟨pre.toNat / 16, by omega⟩, ⟨pre.toNat / 4 % 4, by omega⟩,
    ⟨pre.toNat % 4, by omega⟩, ?_⟩
  rw [← UInt8.toNat_inj, shortPrefix, UInt8.toNat_ofNat_of_lt']
  · dsimp only
    omega
  · dsimp only [UInt8.size]
    omega

/-- The fields are read back. bSize 3 stands for four bytes. -/
theorem shortPrefix_fields (tag : Fin 16) (type size : Fin 4) :
    itemTag (shortPrefix tag type size) = UInt8.ofNat tag ∧
      itemType (shortPrefix tag type size) = UInt8.ofNat type ∧
      dataLen (shortPrefix tag type size) = if size = 3 then 4 else size.val := by
  decide +revert +kernel

theorem shortPrefix_sizeless (tag : Fin 16) (type size : Fin 4) :
    shortPrefix tag type size &&& 0xfc = shortPrefix tag type 0 := by
  decide +revert +kernel

/-- The items in use, by their prefixes with no bSize, as HID 1.11 lists them. -/
def listedMeaning (sizeless : UInt8) (value : UInt32) : Meaning :=
  if sizeless = 0x80 then .main .input
  else if sizeless = 0x90 then .main .output
  else if sizeless = 0xb0 then .main .feature
  else if sizeless = 0x04 then .usagePage value.toUInt16
  else if sizeless = 0x74 then .reportSize value
  else if sizeless = 0x84 then .reportId value.toUInt8
  else if sizeless = 0x94 then .reportCount value
  else if sizeless = 0xa4 then .push
  else if sizeless = 0xb4 then .pop
  else .other

/-- Tag and type tell the items apart just as the listed prefixes do. -/
theorem ShortItem.meaning_listed (x : ShortItem) :
    x.meaning = listedMeaning (x.pre &&& 0xfc) x.value := by
  obtain ⟨tag, type, size, hpre⟩ := exists_shortPrefix x.pre
  obtain ⟨htag, htype, -⟩ := shortPrefix_fields tag type size
  rw [meaning, hpre, shortPrefix_sizeless, htag, htype]
  fin_cases type <;> fin_cases tag <;> rfl

end prefixes

/-- A long item has no meaning. -/
def Item.meaning : Item → Meaning
  | .short x => x.meaning
  | .long _ => .other

structure Globals where
  usagePage : UInt16
  reportSize : UInt32
  reportCount : UInt32
  reportId : UInt8
deriving DecidableEq

def Globals.default : Globals := ⟨0, 0, 0, 0⟩

/-- The globals in effect, and those that Push has saved, the last one first. -/
structure GlobalState where
  current : Globals
  saved : List Globals
deriving DecidableEq

def GlobalState.init : GlobalState := ⟨Globals.default, []⟩

/-- A Push that finds no room and a Pop that finds nothing saved are ignored. -/
def GlobalState.apply (room : ℕ → Bool) (s : GlobalState) : Meaning → GlobalState
  | .usagePage page => { s with current := { s.current with usagePage := page } }
  | .reportSize size => { s with current := { s.current with reportSize := size } }
  | .reportId id => { s with current := { s.current with reportId := id } }
  | .reportCount count => { s with current := { s.current with reportCount := count } }
  | .push => if room s.saved.length then { s with saved := s.current :: s.saved } else s
  | .pop =>
    match s.saved with
    | [] => s
    | g :: saved => ⟨g, saved⟩
  | .main _ | .other => s

/-- An Input, Output or Feature item with the globals in effect. -/
structure MainItem where
  kind : ReportKind
  globals : Globals
deriving DecidableEq

/-- The main items, in order. -/
def declared (room : ℕ → Bool) (s : GlobalState) : List Meaning → List MainItem
  | [] => []
  | m :: ms =>
    match m with
    | .main kind => ⟨kind, s.current⟩ :: declared room s ms
    | m => declared room (s.apply room m) ms

theorem declared_append (room : ℕ → Bool) (s : GlobalState) (ms ms' : List Meaning) :
    declared room s (ms ++ ms') =
      declared room s ms ++ declared room (ms.foldl (GlobalState.apply room) s) ms' := by
  induction ms generalizing s with
  | nil => rfl
  | cons m ms ih =>
    rw [List.cons_append, List.foldl_cons]
    cases m with
    | main kind => exact congrArg (List.cons _) (ih s)
    | usagePage | reportSize | reportId | reportCount | push | pop | other => exact ih _

end WheelBridge.Hid
