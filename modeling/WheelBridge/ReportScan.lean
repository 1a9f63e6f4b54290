import WheelBridge.ReportSummary
import WheelBridge.Slots
import WheelBridge.Tally

/-!
The scan of a report descriptor in two stages: the bytes are split into whole items, and
the items are folded over the global state and a bounded table of report sizes. The index
loop does the same, on any bytes, with its slots filled from the front.
-/
namespace WheelBridge.Hid

/-- A report is counted by its ID and type. -/
def reportSizes : Counter MainItem (UInt8 × ReportKind) ReportSize where
  key d := (d.globals.reportId, d.kind)
  keyOf r := (r.id, r.kind)
  start d := ⟨d.globals.reportId, d.kind, d.globals.reportSize * d.globals.reportCount,
    d.globals.usagePage⟩
  add r d := { r with bits := r.bits + d.globals.reportSize * d.globals.reportCount }
  keyOf_start _ := rfl
  keyOf_add _ _ := rfl

def stackRoom (n : ℕ) : Bool := n < stackLen

/-- The item semantics: the globals with four entries for Push, and the table. -/
structure Summary where
  globals : GlobalState
  table : List ReportSize

namespace Summary

def init : Summary := ⟨GlobalState.init, []⟩

def apply (t : Summary) : Meaning → Summary
  | .main kind =>
    { t with table := reportSizes.record maxReports t.table ⟨kind, t.globals.current⟩ }
  | m => { t with globals := t.globals.apply stackRoom m }

/-- The item's product, or the sum with it, does not fit 32 bits. -/
def Overflows (t : Summary) : Meaning → Prop
  | .main kind =>
    let g := t.globals.current
    2 ^ 32 ≤ g.reportSize.toNat * g.reportCount.toNat ∨
      ∃ r ∈ t.table, reportSizes.keyOf r = (g.reportId, kind) ∧
        2 ^ 32 ≤ r.bits.toNat + (g.reportSize * g.reportCount).toNat
  | _ => False

instance (t : Summary) : (m : Meaning) → Decidable (t.Overflows m)
  | .main _ => inferInstanceAs (Decidable (_ ∨ _))
  | .usagePage _ | .reportSize _ | .reportId _ | .reportCount _ | .push | .pop | .other =>
    isFalse id

/-- The fold; in the dev profile it ends at the first overflow. -/
def run (p : Profile) (t : Summary) : List Meaning → Option Summary
  | [] => some t
  | m :: ms => if p = .dev ∧ t.Overflows m then none else run p (t.apply m) ms

end Summary

/-- The scan's state is that of the item semantics. -/
structure Scan.Refines (s : Scan) (t : Summary) : Prop where
  reports : s.reports = slots maxReports t.table
  g : s.g = t.globals.current
  depth : s.depth = t.globals.saved.length
  saved : s.stack.take s.depth = t.globals.saved.reverse
  length_stack : s.stack.length = stackLen
  nodup : (t.table.map reportSizes.keyOf).Nodup
  length_le : t.table.length ≤ maxReports

/-- Shifting in the next byte. -/
theorem shift_or (acc : UInt32) (b : UInt8) :
    acc <<< 8 ||| b.toUInt32 = acc * 256 + b.toUInt32 := by
  have hb := b.toNat_lt
  apply UInt32.toNat_inj.mp
  have hshift : (acc <<< 8).toNat = 2 ^ 8 * (acc.toNat % 2 ^ 24) := by
    rw [UInt32.toNat_shiftLeft]
    simp [Nat.shiftLeft_eq]
    omega
  rw [UInt32.toNat_or, hshift, UInt8.toNat_toUInt32, ← Nat.two_pow_add_eq_or_of_lt hb,
    UInt32.toNat_add, UInt32.toNat_mul, UInt8.toNat_toUInt32]
  simp
  omega

theorem itemData_eq (bytes : List UInt8) : itemData bytes = UInt32.ofNat (littleEndian bytes) := by
  unfold itemData
  rw [List.foldl_reverse]
  induction bytes with
  | nil => rfl
  | cons b bs ih =>
    rw [List.foldr_cons, ih, shift_or, littleEndian, UInt32.ofNat_add, UInt32.ofNat_mul]
    have hb : UInt32.ofNat b.toNat = b.toUInt32 := by
      apply UInt32.toNat_inj.mp
      have hlt := b.toNat_lt
      rw [UInt8.toNat_toUInt32, UInt32.toNat_ofNat_of_lt' (by change _ < 4294967296; omega)]
    rw [hb]
    grind

section Slots

variable {table : List ReportSize}

/-- Where keys are distinct, one entry is changed by changing all with its key. -/
theorem set_eq_map {κ : Type*} [DecidableEq κ] {α : Type*} {keyOf : α → κ} {t : List α}
    (hnodup : (t.map keyOf).Nodup) (i : ℕ) (hi : i < t.length) (f : α → α) :
    t.set i (f t[i]) = t.map fun a => if keyOf a = keyOf t[i] then f a else a := by
  apply List.ext_getElem
  · rw [List.length_set, List.length_map]
  · intro j hj hj'
    rw [List.length_set] at hj
    rw [List.getElem_set, List.getElem_map]
    by_cases hij : i = j
    · subst hij
      rw [if_pos rfl, if_pos rfl]
    · have hne : keyOf t[j] ≠ keyOf t[i] := by
        have hpairs := List.pairwise_iff_getElem.mp (List.pairwise_map.mp hnodup)
        rcases Nat.lt_or_gt_of_ne hij with hlt | hgt
        · exact (hpairs i j hi hj hlt).symm
        · exact hpairs j i hj hi hgt
      rw [if_neg hij, if_neg hne]

/-- The size of a main item is added in the slots as in the table. -/
theorem addBits_slots (p : Profile) (kind : ReportKind) (g : Globals)
    (hnodup : (table.map reportSizes.keyOf).Nodup) (hle : table.length ≤ maxReports) :
    addBits p kind g (g.reportSize * g.reportCount) (slots maxReports table) =
      if p = .dev ∧ ∃ r ∈ table, reportSizes.keyOf r = (g.reportId, kind) ∧
        2 ^ 32 ≤ r.bits.toNat + (g.reportSize * g.reportCount).toNat then none
      else some (slots maxReports (reportSizes.record maxReports table ⟨kind, g⟩)) := by
  have hkey : reportSizes.key ⟨kind, g⟩ = (g.reportId, kind) := rfl
  unfold addBits
  rw [findIdx?_slots, findIdx?_slots_free hle]
  cases hfind : table.findIdx? fun r => r.id = g.reportId ∧ r.kind = kind with
  | some i =>
    obtain ⟨hi, hmatch, -⟩ := List.findIdx?_eq_some_iff_getElem.mp hfind
    have hki : reportSizes.keyOf table[i] = (g.reportId, kind) := by
      obtain ⟨hid, hkind⟩ := of_decide_eq_true hmatch
      exact Prod.ext hid hkind
    have hslot : (slots maxReports table)[i]? = some (some table[i]) := getElem?_slots i hi
    have hmem : reportSizes.key ⟨kind, g⟩ ∈ table.map reportSizes.keyOf := by
      rw [hkey, ← hki]
      exact List.mem_map_of_mem (List.getElem_mem hi)
    have hover : (∃ r ∈ table, reportSizes.keyOf r = (g.reportId, kind) ∧
        2 ^ 32 ≤ r.bits.toNat + (g.reportSize * g.reportCount).toNat) ↔
          2 ^ 32 ≤ table[i].bits.toNat + (g.reportSize * g.reportCount).toNat := by
      constructor
      · intro h
        obtain ⟨r, hr, hkr, hbig⟩ := h
        obtain rfl : r = table[i] :=
          List.inj_on_of_nodup_map hnodup hr (List.getElem_mem hi) (hkr.trans hki.symm)
        exact hbig
      · exact fun h => ⟨table[i], List.getElem_mem hi, hki, h⟩
    have hset := set_eq_map hnodup i hi fun r => reportSizes.add r ⟨kind, g⟩
    rw [hki, ← hkey] at hset
    dsimp only
    rw [hslot]
    dsimp only
    rw [Counter.record, if_pos hmem, ← hset, ← slots_set i hi]
    simp only [hover]
    unfold Profile.add
    split <;> rfl
  | none =>
    have hnone : ∀ r ∈ table, reportSizes.keyOf r ≠ (g.reportId, kind) := by
      intro r hr heq
      have hmatch := List.findIdx?_eq_none_iff.mp hfind r hr
      obtain ⟨hid, hkind⟩ := Prod.mk.inj heq
      exact absurd (And.intro hid hkind) (of_decide_eq_false hmatch)
    have hover : ¬ (p = .dev ∧ ∃ r ∈ table, reportSizes.keyOf r = (g.reportId, kind) ∧
        2 ^ 32 ≤ r.bits.toNat + (g.reportSize * g.reportCount).toNat) := by
      intro h
      obtain ⟨-, r, hr, hkr, -⟩ := h
      exact hnone r hr hkr
    have hmem : reportSizes.key ⟨kind, g⟩ ∉ table.map reportSizes.keyOf := by
      intro h
      obtain ⟨r, hr, hkr⟩ := List.mem_map.mp h
      exact hnone r hr hkr
    rw [if_neg hover, Counter.record, if_neg hmem]
    by_cases hlt : table.length < maxReports
    · rw [if_pos hlt, if_pos hlt]
      exact congrArg some (slots_append hlt _)
    · rw [if_neg hlt, if_neg hlt]

end Slots

namespace Scan.Refines

variable {s : Scan} {t : Summary}

theorem init : Scan.init.Refines Summary.init where
  reports := rfl
  g := rfl
  depth := rfl
  saved := rfl
  length_stack := rfl
  nodup := List.nodup_nil
  length_le := Nat.zero_le _

/-- A main item. -/
theorem mainItem (h : s.Refines t) (p : Profile) (kind : ReportKind) :
    Option.Rel Scan.Refines (s.mainItem p kind) (t.run p [.main kind]) := by
  have hadd := addBits_slots p kind t.globals.current h.nodup h.length_le
  unfold Scan.mainItem Profile.mul
  rw [h.g, h.reports, Summary.run]
  by_cases hmul : p = .dev ∧
      2 ^ 32 ≤ t.globals.current.reportSize.toNat * t.globals.current.reportCount.toNat
  · rw [if_pos hmul, if_pos ⟨hmul.1, Or.inl hmul.2⟩]
    exact .none
  · rw [if_neg hmul]
    dsimp only
    rw [hadd]
    by_cases hsum : p = .dev ∧ ∃ r ∈ t.table,
        reportSizes.keyOf r = (t.globals.current.reportId, kind) ∧ 2 ^ 32 ≤ r.bits.toNat +
          (t.globals.current.reportSize * t.globals.current.reportCount).toNat
    · rw [if_pos hsum, if_pos ⟨hsum.1, Or.inr hsum.2⟩]
      exact .none
    · have hfits : ¬ (p = .dev ∧ t.Overflows (.main kind)) := by
        intro hover
        obtain ⟨hp, hproduct | hentry⟩ := hover
        · exact hmul ⟨hp, hproduct⟩
        · exact hsum ⟨hp, hentry⟩
      rw [if_neg hsum, if_neg hfits]
      refine .some ⟨rfl, rfl, h.depth, h.saved, h.length_stack, ?_, ?_⟩
      · exact reportSizes.record_nodup maxReports h.nodup _
      · exact reportSizes.length_record_le maxReports h.length_le _

/-- The globals change. -/
theorem setGlobals (h : s.Refines t) (g : Globals) :
    { s with g := g }.Refines { t with globals := { t.globals with current := g } } where
  reports := h.reports
  g := rfl
  depth := h.depth
  saved := h.saved
  length_stack := h.length_stack
  nodup := h.nodup
  length_le := h.length_le

theorem push (h : s.Refines t) (hroom : s.depth < s.stack.length) :
    { s with stack := s.stack.set s.depth s.g, depth := s.depth + 1 }.Refines
      (t.apply .push) := by
  have hdepth := h.depth
  have hlen := h.length_stack
  have happly : t.apply .push =
      { t with globals := ⟨t.globals.current, t.globals.current :: t.globals.saved⟩ } := by
    have htake : stackRoom t.globals.saved.length = true := decide_eq_true (by omega)
    simp only [Summary.apply, GlobalState.apply, htake, if_true]
  rw [happly]
  constructor
  · exact h.reports
  · exact h.g
  · simp only [List.length_cons, hdepth]
  · simp only [List.reverse_cons]
    rw [List.take_add_one, List.getElem?_set_self hroom, List.take_set_of_le (by omega), h.saved,
      h.g]
    rfl
  · simp only [List.length_set]
    exact hlen
  · exact h.nodup
  · exact h.length_le

theorem push_full (h : s.Refines t) (hfull : ¬ s.depth < s.stack.length) :
    s.Refines (t.apply .push) := by
  have hdepth := h.depth
  have hlen := h.length_stack
  have happly : t.apply .push = t := by
    have hno : stackRoom t.globals.saved.length = false := decide_eq_false (by omega)
    simp [Summary.apply, GlobalState.apply, hno]
  rwa [happly]

theorem pop (h : s.Refines t) (hpos : 0 < s.depth) :
    ∃ g, s.stack[s.depth - 1]? = some g ∧
      { s with g := g, depth := s.depth - 1 }.Refines (t.apply .pop) := by
  have hdepth := h.depth
  have hlen := h.length_stack
  have hsaved := h.saved
  cases hs : t.globals.saved with
  | nil =>
    rw [hs] at hdepth
    exact absurd hdepth (by simp; omega)
  | cons g saved =>
    have hin : s.depth - 1 < s.stack.length := by
      have hle : (s.stack.take s.depth).length = t.globals.saved.length := by
        rw [hsaved, List.length_reverse]
      rw [List.length_take, ← hdepth] at hle
      omega
    have hcut : s.stack.take (s.depth - 1) ++ [s.stack[s.depth - 1]] = saved.reverse ++ [g] := by
      rw [List.take_append_getElem hin, Nat.sub_add_cancel hpos, hsaved, hs, List.reverse_cons]
    obtain ⟨htake, hlast⟩ := List.append_inj' hcut rfl
    have hg : s.stack[s.depth - 1] = g := by simpa using hlast
    have happly : t.apply .pop = { t with globals := ⟨g, saved⟩ } := by
      simp only [Summary.apply, GlobalState.apply, hs]
    refine ⟨g, by rw [List.getElem?_eq_getElem hin, hg], ?_⟩
    rw [happly]
    constructor
    · exact h.reports
    · rfl
    · rw [hs, List.length_cons] at hdepth
      change s.depth - 1 = saved.length
      omega
    · exact htake
    · exact hlen
    · exact h.nodup
    · exact h.length_le

theorem pop_empty (h : s.Refines t) (hempty : ¬ 0 < s.depth) : s.Refines (t.apply .pop) := by
  have hdepth := h.depth
  have hnil : t.globals.saved = [] := List.eq_nil_of_length_eq_zero (by omega)
  have happly : t.apply .pop = t := by
    simp only [Summary.apply, GlobalState.apply, hnil]
  rwa [happly]

theorem run_one (p : Profile) {m : Meaning} (h : ¬ t.Overflows m) :
    t.run p [m] = some (t.apply m) := by
  rw [Summary.run, if_neg fun hover => h hover.2, Summary.run]

/-- A global item. A Push on a full stack and a Pop on an empty one are ignored. -/
theorem globalItem (h : s.Refines t) (p : Profile) (tag : UInt8) (value : UInt32) :
    Option.Rel Scan.Refines (s.globalItem tag value) (t.run p [globalMeaning tag value]) := by
  have hg := h.g
  unfold Scan.globalItem globalMeaning
  by_cases hpush : tag = 0xa
  · subst hpush
    have hrun := run_one (t := t) p (m := .push) id
    by_cases hroom : s.depth < s.stack.length
    · simpa [hroom, hrun] using h.push hroom
    · simpa [hroom, hrun] using h.push_full hroom
  by_cases hpop : tag = 0xb
  · subst hpop
    have hrun := run_one (t := t) p (m := .pop) id
    by_cases hpos : 0 < s.depth
    · obtain ⟨g, hget, hscan⟩ := h.pop hpos
      simpa [hpos, hrun, hget] using hscan
    · simpa [hpos, hrun] using h.pop_empty hpos
  · simp only [hpush, hpop, false_and, if_false]
    split_ifs
    · rw [run_one p id, hg]
      exact .some (h.setGlobals _)
    · rw [run_one p id, hg]
      exact .some (h.setGlobals _)
    · rw [run_one p id, hg]
      exact .some (h.setGlobals _)
    · rw [run_one p id, hg]
      exact .some (h.setGlobals _)
    · rw [run_one p id]
      exact .some h

theorem shortItem (h : s.Refines t) (p : Profile) (x : ShortItem) :
    Option.Rel Scan.Refines (s.shortItem p x.pre x.value) (t.run p [x.meaning]) := by
  unfold Scan.shortItem ShortItem.meaning mainMeaning
  dsimp only
  split_ifs
  · exact h.mainItem p .input
  · exact h.mainItem p .output
  · exact h.mainItem p .feature
  · rw [run_one p id]
    exact .some h
  · exact h.globalItem p _ _
  · rw [run_one p id]
    exact .some h

end Scan.Refines

theorem Summary.run_cons (p : Profile) (t : Summary) (m : Meaning) (ms : List Meaning) :
    t.run p (m :: ms) = (t.run p [m]).bind fun t => t.run p ms := by
  rw [Summary.run, Summary.run]
  split
  · rfl
  · rw [Summary.run, Option.bind_some]

def meanings (bs : List UInt8) : List Meaning := (items bs).map Item.meaning

theorem getRange_eq (desc : List UInt8) (i n : ℕ) :
    getRange desc i (i + n) =
      if i + n ≤ desc.length then some ((desc.drop i).take n) else none := by
  unfold getRange
  by_cases hle : i + n ≤ desc.length
  · rw [if_pos ⟨by omega, hle⟩, if_pos hle, List.drop_take, Nat.add_sub_cancel_left]
  · rw [if_neg fun h => hle h.2, if_neg hle]

/-- After the whole item at index `i`. -/
theorem drop_of_nextItem {desc rest : List UInt8} {i : ℕ} {x : Item}
    (h : nextItem (desc.drop i) = some (x, rest)) : desc.drop (i + x.bytes.length) = rest := by
  rw [← List.drop_drop, bytes_of_nextItem h, List.drop_left]

namespace Scan

/-- The effect of a whole item. -/
def item (p : Profile) (s : Scan) : Item → Option Scan
  | .short x => s.shortItem p x.pre x.value
  | .long _ => some s

theorem Refines.item {s : Scan} {t : Summary} (h : s.Refines t) (p : Profile) (x : Item) :
    Option.Rel Scan.Refines (s.item p x) (t.run p [x.meaning]) := by
  cases x with
  | short x => exact h.shortItem p x
  | long x =>
    have hother : t.run p [(Item.long x).meaning] = some t := Refines.run_one p id
    rw [hother]
    exact .some h

/-- Whole items have the effect of their meanings. -/
theorem Refines.items {s : Scan} {t : Summary} (h : s.Refines t) (p : Profile)
    (xs : List Item) :
    Option.Rel Scan.Refines (xs.foldlM (Scan.item p) s) (t.run p (xs.map Item.meaning)) := by
  induction xs generalizing s t with
  | nil => exact .some h
  | cons x xs ih =>
    rw [List.foldlM_cons, List.map_cons, Summary.run_cons, Option.bind_eq_bind]
    have hitem := h.item p x
    generalize s.item p x = s' at hitem ⊢
    generalize t.run p [x.meaning] = t' at hitem ⊢
    cases hitem with
    | none => exact .none
    | some hst => exact ih hst

variable {p : Profile} {desc : List UInt8}

theorem loop_past {i : ℕ} (hi : desc.length ≤ i) (fuel : ℕ) (s : Scan) :
    loop p desc fuel i s = some s := by
  cases fuel with
  | zero => rw [loop, if_neg (by omega)]
  | succ fuel => rw [loop, dif_neg (by omega)]

/-- The index moves past a long item. -/
theorem loop_long {rest : List UInt8} {i : ℕ} {x : LongItem}
    (h : nextItem (desc.drop i) = some (.long x, rest)) (fuel : ℕ) (s : Scan) :
    loop p desc (fuel + 1) i s = loop p desc fuel (i + x.bytes.length) s := by
  have hbytes : desc.drop i = x.bytes ++ rest := bytes_of_nextItem h
  have hi : i < desc.length := by
    by_contra hge
    rw [List.drop_eq_nil_of_le (by omega)] at h
    cases h
  have hhead : desc[i] = longPrefix := by
    have hat := congrArg (fun bs => bs[0]?) hbytes
    simpa [LongItem.bytes, List.getElem?_eq_getElem hi] using hat
  have hsize : desc[i + 1]? = some (UInt8.ofNat x.data.length) := by
    have hat := congrArg (fun bs => bs[1]?) hbytes
    simpa [LongItem.bytes] using hat
  have hlen : 3 + x.data.length = x.bytes.length := by
    simp only [LongItem.bytes, List.length_cons]
    omega
  rw [loop, dif_pos hi]
  dsimp only
  rw [if_pos hhead, hsize, Option.getD_some, UInt8.toNat_ofNat_of_lt' x.length_lt, hlen]

/-- A short item has its effect, and the index moves past it. -/
theorem loop_short {rest : List UInt8} {i : ℕ} {x : ShortItem}
    (h : nextItem (desc.drop i) = some (.short x, rest)) (fuel : ℕ) (s : Scan) :
    loop p desc (fuel + 1) i s =
      (s.shortItem p x.pre x.value).bind (loop p desc fuel (i + (Item.short x).bytes.length)) := by
  have hbytes : desc.drop i = x.pre :: x.data ++ rest := bytes_of_nextItem h
  have hi : i < desc.length := by
    by_contra hge
    rw [List.drop_eq_nil_of_le (by omega)] at h
    cases h
  have hdrop := List.drop_eq_getElem_cons hi
  rw [hbytes, List.cons_append, List.cons.injEq] at hdrop
  obtain ⟨hhead, htail⟩ := hdrop
  have hlen : i + 1 + dataLen x.pre ≤ desc.length := by
    have hsum := congrArg List.length htail
    rw [List.length_append, List.length_drop, x.length_eq] at hsum
    omega
  have hdata : (desc.drop (i + 1)).take (dataLen x.pre) = x.data := by
    rw [← htail, List.take_left' x.length_eq]
  rw [loop, dif_pos hi]
  dsimp only
  rw [← hhead, if_neg x.ne_long, getRange_eq, if_pos hlen, hdata]
  have hmove : (Item.short x).bytes.length = 1 + dataLen x.pre := by
    simp only [Item.bytes, List.length_cons, x.length_eq]
    omega
  dsimp only
  rw [hmove, ShortItem.value, itemData_eq]
  cases s.shortItem p x.pre (UInt32.ofNat (littleEndian x.data)) <;> rfl

/-- At an item that is cut short, and at the end, the loop ends. -/
theorem loop_cut {i : ℕ} (h : nextItem (desc.drop i) = none) (fuel : ℕ) (s : Scan) :
    loop p desc (fuel + 1) i s = some s := by
  by_cases hi : i < desc.length
  · rw [List.drop_eq_getElem_cons hi, nextItem] at h
    rw [loop, dif_pos hi]
    dsimp only
    by_cases hlong : desc[i] = longPrefix
    · rw [dif_pos hlong] at h
      have hshort := nextLong_eq_none (Option.map_eq_none_iff.mp h)
      rw [List.length_drop, List.getElem?_drop, Nat.add_zero] at hshort
      rw [if_pos hlong]
      exact loop_past (by omega) fuel s
    · rw [dif_neg hlong] at h
      have hlen : ¬ i + 1 + dataLen desc[i] ≤ desc.length := by
        intro hle
        rw [dif_pos (by rw [List.length_drop]; omega)] at h
        cases h
      rw [if_neg hlong, getRange_eq, if_neg hlen]
  · exact loop_past (by omega) _ s

/-- From an item on, the index loop goes through the whole items from there. -/
theorem loop_items (fuel i : ℕ) (s : Scan) (hfuel : desc.length ≤ i + fuel) :
    loop p desc fuel i s = (items (desc.drop i)).foldlM (Scan.item p) s := by
  induction fuel generalizing i s with
  | zero =>
    rw [loop_past (by omega), List.drop_eq_nil_of_le (by omega), items_of_none rfl]
    rfl
  | succ fuel ih =>
    cases hnext : nextItem (desc.drop i) with
    | none =>
      rw [loop_cut hnext, items_of_none hnext]
      rfl
    | some r =>
      obtain ⟨x, rest⟩ := r
      have hrest := drop_of_nextItem hnext
      have hpos := x.length_bytes_pos
      rw [items_of_some hnext, List.foldlM_cons, Option.bind_eq_bind, ← hrest]
      cases x with
      | short x =>
        rw [loop_short hnext]
        change _ = (s.shortItem p x.pre x.value).bind _
        cases s.shortItem p x.pre x.value with
        | none => rfl
        | some s => exact ih _ s (by omega)
      | long x =>
        have hlen : (Item.long x).bytes.length = x.bytes.length := rfl
        rw [loop_long hnext, hlen]
        exact ih _ s (by omega)

end Scan

/-- The loop ends, and has the effect of the whole items. -/
theorem scan_items (p : Profile) (desc : List UInt8) :
    logReportSummary p desc =
      ((items desc).foldlM (Scan.item p) Scan.init).map Scan.reports := by
  unfold logReportSummary
  rw [Scan.loop_items desc.length 0 Scan.init (by omega), List.drop_zero]

/-- The loop ends, stays in range, and returns what the two stages give. -/
theorem logReportSummary_eq (p : Profile) (desc : List UInt8) :
    logReportSummary p desc =
      (Summary.init.run p (meanings desc)).map fun t => slots maxReports t.table := by
  have hrel := Scan.Refines.init.items p (items desc)
  rw [scan_items]
  change Option.Rel _ _ (Summary.init.run p (meanings desc)) at hrel
  generalize (items desc).foldlM (Scan.item p) Scan.init = s at hrel
  generalize Summary.init.run p (meanings desc) = t at hrel
  cases hrel with
  | none => rfl
  | some h => exact congrArg some h.reports

end WheelBridge.Hid
