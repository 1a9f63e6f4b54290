import WheelBridge.InputMap

/-!
The documented mapping of the controls, bit by bit and axis by axis, and that the
translation is this mapping: nothing of a report is lost that it maps, and nothing else
shows in the result.
-/
namespace WheelBridge

/-- What holds of every byte is decided by trying them all. -/
instance decidableForallByte (p : UInt8 → Prop) [DecidablePred p] : Decidable (∀ b, p b) :=
  decidable_of_iff (∀ n ∈ List.range 256, p (UInt8.ofNat n)) (by
    constructor
    · intro h b
      simpa using h b.toNat (List.mem_range.mpr b.toNat_lt)
    · exact fun h n _ => h (UInt8.ofNat n))

namespace InputMap

/-- A bit of a report: its byte and its mask. -/
structure Bit where
  byte : ℕ
  mask : UInt8
deriving DecidableEq

def Bit.isSet {n : ℕ} (x : Bit) (r : Bytes n) : Bool := r.byte x.byte &&& x.mask ≠ 0

def masks : List UInt8 := [0x01, 0x02, 0x04, 0x08, 0x10, 0x20, 0x40, 0x80]

/-- The hat and the buttons: (c272 bit, c269 bit). -/
def controls : List (Bit × Bit) :=
  [ -- hat
    (⟨0, 0x01⟩, ⟨5, 0x01⟩), (⟨0, 0x02⟩, ⟨5, 0x02⟩), (⟨0, 0x04⟩, ⟨5, 0x04⟩),
    (⟨0, 0x08⟩, ⟨5, 0x08⟩),
    -- A, X, B, Y
    (⟨0, 0x10⟩, ⟨5, 0x20⟩), (⟨0, 0x20⟩, ⟨5, 0x10⟩), (⟨0, 0x40⟩, ⟨5, 0x40⟩),
    (⟨0, 0x80⟩, ⟨5, 0x80⟩),
    -- GEAR_UP, GEAR_DOWN, RT, LT, SHARE, MENU, RSB, LSB
    (⟨1, 0x01⟩, ⟨6, 0x02⟩), (⟨1, 0x02⟩, ⟨6, 0x01⟩), (⟨1, 0x04⟩, ⟨6, 0x08⟩),
    (⟨1, 0x08⟩, ⟨6, 0x04⟩), (⟨1, 0x10⟩, ⟨6, 0x10⟩), (⟨1, 0x20⟩, ⟨6, 0x20⟩),
    (⟨1, 0x40⟩, ⟨6, 0x80⟩), (⟨1, 0x80⟩, ⟨6, 0x40⟩),
    -- Xbox
    (⟨3, 0x80⟩, ⟨7, 0x01⟩),
    -- right rotary CW, CCW, click, left rotary CW, CCW, click
    (⟨3, 0x02⟩, ⟨54, 0x04⟩), (⟨3, 0x04⟩, ⟨54, 0x02⟩), (⟨3, 0x08⟩, ⟨54, 0x01⟩),
    (⟨3, 0x10⟩, ⟨54, 0x10⟩), (⟨3, 0x20⟩, ⟨54, 0x08⟩), (⟨3, 0x40⟩, ⟨54, 0x20⟩)]

/-- Accelerator, brake and clutch: where the axis is in c272 and in c269. -/
def pedals : List (ℕ × ℕ) := [(6, 45), (8, 47), (10, 49)]

def wheelAxis : ℕ × ℕ := (4, 43)

/-- A 16-bit little-endian axis. -/
def axis {n : ℕ} (r : Bytes n) (i : ℕ) : UInt16 := fromLe (r.byte i) (r.byte (i + 1))

/-- The bits of c269 that no control is mapped to. -/
def Unmapped (x : Bit) : Prop :=
  x.byte < c269Len ∧ x.mask ∈ masks ∧ (∀ c ∈ controls, c.2 ≠ x) ∧
    ∀ a ∈ wheelAxis :: pedals, x.byte ≠ a.2 ∧ x.byte ≠ a.2 + 1

/-- The result has the documented value at every bit. -/
structure Documented (src : Bytes c272Len) (r : Bytes c269Len) : Prop where
  controls : ∀ c ∈ controls, c.2.isSet r = c.1.isSet src
  wheel : axis r wheelAxis.2 = axis src wheelAxis.1
  pedals : ∀ p ∈ pedals, axis r p.2 = 0xffff - axis src p.1
  unmapped : ∀ x, Unmapped x → x.isSet r = x.isSet neutral

/-- The two reports are the same on everything that is mapped. -/
def Agree (a b : Bytes c272Len) : Prop :=
  a.byte 0 = b.byte 0 ∧ a.byte 1 = b.byte 1 ∧ a.byte 3 &&& 0xfe = b.byte 3 &&& 0xfe ∧
    ∀ k, 4 ≤ k → k < 12 → a.byte k = b.byte k

theorem toNat_fromLe (lo hi : UInt8) : (fromLe lo hi).toNat = lo.toNat + 256 * hi.toNat := by
  have hlo := lo.toNat_lt
  have hhi := hi.toNat_lt
  have hshift : (hi.toUInt16 <<< 8).toNat = 2 ^ 8 * hi.toNat := by
    simp [Nat.shiftLeft_eq]
    omega
  unfold fromLe
  rw [UInt16.toNat_or, hshift, UInt8.toNat_toUInt16, Nat.or_comm,
    ← Nat.two_pow_add_eq_or_of_lt (by omega)]
  omega

theorem fromLe_injective {lo hi lo' hi' : UInt8} (h : fromLe lo hi = fromLe lo' hi') :
    lo = lo' ∧ hi = hi' := by
  have hnat := congrArg UInt16.toNat h
  have hlo := lo.toNat_lt
  have hlo' := lo'.toNat_lt
  rw [toNat_fromLe, toNat_fromLe] at hnat
  refine ⟨UInt8.toNat_inj.mp ?_, UInt8.toNat_inj.mp ?_⟩
  · omega
  · omega

/-- The complement of a pedal is that of its bytes. -/
theorem fromLe_complement (lo hi : UInt8) :
    fromLe (0xff - lo) (0xff - hi) = 0xffff - fromLe lo hi := by
  have hlo := lo.toNat_lt
  have hhi := hi.toNat_lt
  have hsub : ∀ b : UInt8, (0xff - b).toNat = 255 - b.toNat := by decide +kernel
  apply UInt16.toNat_inj.mp
  rw [UInt16.toNat_sub_of_le, toNat_fromLe, toNat_fromLe, hsub, hsub]
  · change _ = 65535 - _
    omega
  · rw [UInt16.le_iff_toNat_le, toNat_fromLe]
    change _ ≤ 65535
    omega

theorem toLe_fromLe (lo hi : UInt8) : toLe (fromLe lo hi) = [lo, hi] := by
  have hlo := lo.toNat_lt
  have hhi := hi.toNat_lt
  have hnat := toNat_fromLe lo hi
  have hlow : (fromLe lo hi).toUInt8 = lo := by
    apply UInt8.toNat_inj.mp
    rw [UInt16.toNat_toUInt8, hnat]
    omega
  have hhigh : (fromLe lo hi >>> 8).toUInt8 = hi := by
    apply UInt8.toNat_inj.mp
    rw [UInt16.toNat_toUInt8, UInt16.toNat_shiftRight, hnat]
    simp [Nat.shiftRight_eq_div_pow]
    omega
  rw [toLe, hlow, hhigh]

/-- A pedal is written complemented, byte by byte. -/
theorem byte_pedal (src : Bytes c272Len) (r : Bytes c269Len) (dst s k : ℕ)
    (hd : dst + 1 < c269Len) :
    (pedal src r dst s).byte k =
      if k = dst ∨ k = dst + 1 then 0xff - src.byte (k - dst + s) else r.byte k := by
  unfold pedal
  rw [← fromLe_complement, toLe_fromLe, Bytes.byte_writeAt]
  simp only [List.length_cons, List.length_nil]
  by_cases h0 : k = dst
  · subst h0
    rw [if_pos (by omega), if_pos (Or.inl rfl), Nat.sub_self, Nat.zero_add]
    rfl
  · by_cases h1 : k = dst + 1
    · subst h1
      rw [if_pos (by omega), if_pos (Or.inr rfl), Nat.add_sub_cancel_left, Nat.add_comm 1 s]
      rfl
    · rw [if_neg (by omega), if_neg (by omega)]

/-- The buttons' bytes of the result, before the axes are written. -/
theorem byte_buttons (src : Bytes c272Len) (r : Bytes c269Len) (k : ℕ) (hk : k < c269Len) :
    ((if src.byte 3 &&& xboxButton ≠ 0 then r.set 7 psButton else r).set 54
        (remap (src.byte 3) rotary)).byte k =
      if k = 54 then remap (src.byte 3) rotary
      else if k = 7 ∧ src.byte 3 &&& xboxButton ≠ 0 then psButton else r.byte k := by
  rw [Bytes.byte_set]
  by_cases h54 : k = 54
  · rw [if_pos ⟨h54.symm, hk⟩, if_pos h54]
  · rw [if_neg (by omega), if_neg h54]
    by_cases hx : src.byte 3 &&& xboxButton ≠ 0
    · rw [if_pos hx, Bytes.byte_set]
      by_cases h7 : k = 7
      · rw [if_pos ⟨h7.symm, hk⟩, if_pos ⟨h7, hx⟩]
      · rw [if_neg (by omega), if_neg (by omega)]
    · rw [if_neg hx, if_neg fun h => hx h.2]

/-- Where a mapped byte has the bit. -/
theorem remap_and_ne_zero (b m : UInt8) (map : BitMap) :
    remap b map &&& m ≠ 0 ↔ ∃ p ∈ map, b &&& p.1 ≠ 0 ∧ p.2 &&& m ≠ 0 := by
  have hfold : ∀ (ps : BitMap) (acc : UInt8),
      ps.foldl (fun acc p => acc ||| p.2) acc &&& m ≠ 0 ↔
        acc &&& m ≠ 0 ∨ ∃ p ∈ ps, p.2 &&& m ≠ 0 := by
    intro ps
    induction ps with
    | nil => simp
    | cons p ps ih =>
      intro acc
      rw [List.foldl_cons, ih]
      have hor : (acc ||| p.2) &&& m ≠ 0 ↔ acc &&& m ≠ 0 ∨ p.2 &&& m ≠ 0 := by
        have hdistrib : (acc ||| p.2) &&& m = acc &&& m ||| p.2 &&& m := by
          apply UInt8.eq_of_toBitVec_eq
          exact BitVec.and_or_distrib_right
        rw [hdistrib, ne_eq, UInt8.or_eq_zero_iff]
        tauto
      rw [hor, or_assoc]
      simp
  unfold remap
  rw [hfold]
  simp [and_assoc]

/-- A byte is made of its bits. -/
theorem remap_masks : ∀ b, remap b (masks.map fun m => (m, m)) = b := by
  decide +kernel

theorem eq_of_masks {a b : UInt8} (h : ∀ m ∈ masks, a &&& m ≠ 0 ↔ b &&& m ≠ 0) : a = b := by
  have hsame : remap a (masks.map fun m => (m, m)) = remap b (masks.map fun m => (m, m)) := by
    unfold remap
    congr 1
    apply List.filter_congr
    intro p hp
    obtain ⟨m, hm, rfl⟩ := List.mem_map.mp hp
    exact decide_eq_decide.mpr (h m hm)
  rwa [remap_masks, remap_masks] at hsame

/-- The bytes of the result. -/
theorem byte_translate (src : Bytes c272Len) (k : ℕ) (hk : k < c269Len) :
    (translate src).byte k =
      if k = 5 then src.byte 0 &&& 0x0f ||| remap (src.byte 0) face
      else if k = 6 then remap (src.byte 1) shoulder
      else if k = 7 then (if src.byte 3 &&& xboxButton ≠ 0 then psButton else 0)
      else if k = 54 then remap (src.byte 3) rotary
      else if 43 ≤ k ∧ k < 45 then src.byte (k - 39)
      else if 45 ≤ k ∧ k < 51 then 0xff - src.byte (k - 39)
      else neutral.byte k := by
  have h7 : neutral.byte 7 = 0 := by decide +kernel
  unfold translate
  rw [byte_pedal _ _ _ _ _ (by decide), byte_pedal _ _ _ _ _ (by decide),
    byte_pedal _ _ _ _ _ (by decide), Bytes.byte_writeAt, byte_buttons _ _ _ hk, Bytes.byte_set,
    Bytes.byte_set]
  have hlen : c269Len = 64 := rfl
  simp only [List.length_cons, List.length_nil]
  by_cases haxes : 43 ≤ k ∧ k < 51
  · obtain rfl | rfl | rfl | rfl | rfl | rfl | rfl | rfl : k = 43 ∨ k = 44 ∨ k = 45 ∨ k = 46 ∨
        k = 47 ∨ k = 48 ∨ k = 49 ∨ k = 50 := by omega
    all_goals rfl
  · rw [if_neg (by omega), if_neg (by omega), if_neg (by omega), if_neg (by omega)]
    grind

/-- The bytes of c269 that buttons are mapped to: the byte of c272 they come from, and how
its bits go. -/
def buttonBytes : List (ℕ × ℕ × BitMap) :=
  [(5, 0, masks.take 4 |>.map (fun m => (m, m)) |>.append face), (6, 1, shoulder),
    (7, 3, [(xboxButton, psButton)]), (54, 3, rotary)]

theorem byte_button (src : Bytes c272Len) : ∀ x ∈ buttonBytes,
    (translate src).byte x.1 = remap (src.byte x.2.1) x.2.2 := by
  have hhat : ∀ b, b &&& 0x0f ||| remap b face =
      remap b (masks.take 4 |>.map (fun m => (m, m)) |>.append face) := by
    decide +kernel
  have hxbox : ∀ b : UInt8, (if b &&& xboxButton ≠ 0 then psButton else 0) =
      remap b [(xboxButton, psButton)] := by
    decide +kernel
  have hlt : ∀ x ∈ buttonBytes, x.1 < c269Len := by decide
  intro x hx
  rw [byte_translate src _ (hlt x hx)]
  simp only [buttonBytes, List.mem_cons, List.not_mem_nil, or_false] at hx
  rcases hx with rfl | rfl | rfl | rfl
  · exact hhat _
  · rfl
  · exact hxbox _
  · rfl

/-- The bit of a control comes from its own bit of c272 and no other. -/
theorem controls_mapped : ∀ c ∈ controls, ∃ x ∈ buttonBytes, x.1 = c.2.byte ∧ x.2.1 = c.1.byte ∧
    (∃ p ∈ x.2.2, p.1 = c.1.mask ∧ p.2 &&& c.2.mask ≠ 0) ∧
      ∀ p ∈ x.2.2, p.2 &&& c.2.mask ≠ 0 → p.1 = c.1.mask := by
  have hall : (controls.all fun c => buttonBytes.any fun x =>
      decide (x.1 = c.2.byte) && (decide (x.2.1 = c.1.byte) &&
        ((x.2.2.any fun p => decide (p.1 = c.1.mask ∧ p.2 &&& c.2.mask ≠ 0)) &&
          x.2.2.all fun p => decide (p.2 &&& c.2.mask ≠ 0 → p.1 = c.1.mask)))) = true := by
    decide +kernel
  simpa only [List.all_eq_true, List.any_eq_true, Bool.and_eq_true, decide_eq_true_eq] using hall

/-- No button goes to an unmapped bit, which is not set in `neutral`. -/
theorem buttons_unmapped : ∀ x ∈ buttonBytes, ∀ m ∈ masks, (∀ c ∈ controls, c.2 ≠ ⟨x.1, m⟩) →
    (∀ p ∈ x.2.2, p.2 &&& m = 0) ∧ neutral.byte x.1 &&& m = 0 := by
  have hall : (buttonBytes.all fun x => masks.all fun m =>
      (controls.any fun c => decide (c.2 = ⟨x.1, m⟩)) ||
        ((x.2.2.all fun p => decide (p.2 &&& m = 0)) &&
          decide (neutral.byte x.1 &&& m = 0))) = true := by
    decide +kernel
  intro x hx m hm hnone
  have hm' := List.all_eq_true.mp (List.all_eq_true.mp hall x hx) m hm
  simp only [Bool.or_eq_true, Bool.and_eq_true, List.any_eq_true, List.all_eq_true,
    decide_eq_true_eq] at hm'
  rcases hm' with ⟨c, hc, heq⟩ | hzero
  · exact absurd heq (hnone c hc)
  · exact hzero

/-- A byte without a control or an axis is the neutral one. -/
theorem byte_other (src : Bytes c272Len) (k : ℕ) (hk : k < c269Len)
    (hb : ∀ x ∈ buttonBytes, x.1 ≠ k) (ha : ∀ a ∈ wheelAxis :: pedals, k ≠ a.2 ∧ k ≠ a.2 + 1) :
    (translate src).byte k = neutral.byte k := by
  simp only [buttonBytes, wheelAxis, pedals, List.forall_mem_cons] at hb ha
  obtain ⟨h5, h6, h7, h54, -⟩ := hb
  obtain ⟨hwheel, haccelerator, hbrake, hclutch, -⟩ := ha
  rw [byte_translate src k hk, if_neg (Ne.symm h5), if_neg (Ne.symm h6), if_neg (Ne.symm h7),
    if_neg (Ne.symm h54), if_neg (by omega), if_neg (by omega)]

theorem documented_translate (src : Bytes c272Len) : Documented src (translate src) where
  controls c hc := by
    obtain ⟨x, hx, hdst, hsrc, ⟨p, hp, hfrom, hto⟩, honly⟩ := controls_mapped c hc
    unfold Bit.isSet
    rw [← hdst, ← hsrc, byte_button src x hx]
    apply decide_eq_decide.mpr
    rw [remap_and_ne_zero]
    constructor
    · intro h
      obtain ⟨q, hq, hset, hmask⟩ := h
      rwa [honly q hq hmask] at hset
    · intro h
      exact ⟨p, hp, by rwa [hfrom], hto⟩
  wheel := by
    unfold axis
    rw [byte_translate src _ (by decide), byte_translate src _ (by decide)]
    rfl
  pedals p hp := by
    unfold axis
    rw [← fromLe_complement]
    simp only [pedals, List.mem_cons, List.not_mem_nil, or_false] at hp
    rcases hp with rfl | rfl | rfl
    all_goals
      rw [byte_translate src _ (by decide), byte_translate src _ (by decide)]
      rfl
  unmapped x hx := by
    obtain ⟨hlt, hmask, hfree, haxes⟩ := hx
    unfold Bit.isSet
    by_cases hb : ∃ y ∈ buttonBytes, y.1 = x.byte
    · obtain ⟨y, hy, hyx⟩ := hb
      have hnone := buttons_unmapped y hy x.mask hmask
      rw [hyx] at hnone
      obtain ⟨hzero, hneutral⟩ := hnone hfree
      rw [hneutral, ← hyx, byte_button src y hy]
      apply decide_eq_decide.mpr
      rw [remap_and_ne_zero]
      constructor
      · intro h
        obtain ⟨p, hp, -, hset⟩ := h
        exact absurd (hzero p hp) hset
      · exact fun h => absurd rfl h
    · push Not at hb
      rw [byte_other src _ hlt hb haxes]

/-- There is one documented result. -/
theorem Documented.unique {src : Bytes c272Len} {r r' : Bytes c269Len} (h : Documented src r)
    (h' : Documented src r') : r = r' := by
  apply Bytes.ext_byte
  intro k hk
  have haxis : ∀ i, axis r i = axis r' i → k = i ∨ k = i + 1 → r.byte k = r'.byte k := by
    intro i haxis hki
    obtain ⟨hlo, hhi⟩ := fromLe_injective haxis
    rcases hki with rfl | rfl
    · exact hlo
    · exact hhi
  by_cases hwheel : k = wheelAxis.2 ∨ k = wheelAxis.2 + 1
  · exact haxis _ (h.wheel.trans h'.wheel.symm) hwheel
  · by_cases hpedal : ∃ p ∈ InputMap.pedals, k = p.2 ∨ k = p.2 + 1
    · obtain ⟨p, hp, hkp⟩ := hpedal
      exact haxis _ ((h.pedals p hp).trans (h'.pedals p hp).symm) hkp
    · apply eq_of_masks
      intro m hm
      have hbit : (Bit.mk k m).isSet r = (Bit.mk k m).isSet r' := by
        by_cases hc : ∃ c ∈ InputMap.controls, c.2 = ⟨k, m⟩
        · obtain ⟨c, hc, heq⟩ := hc
          rw [← heq, h.controls c hc, h'.controls c hc]
        · push Not at hc hpedal
          have hfree : Unmapped ⟨k, m⟩ := by
            refine ⟨hk, hm, hc, ?_⟩
            rw [List.forall_mem_cons]
            exact ⟨not_or.mp hwheel, hpedal⟩
          rw [h.unmapped _ hfree, h'.unmapped _ hfree]
      exact decide_eq_decide.mp hbit

/-- What is mapped is the same where the results are. -/
theorem Documented.agree {a b : Bytes c272Len} {r : Bytes c269Len} (ha : Documented a r)
    (hb : Documented b r) : Agree a b := by
  have hneg : ∀ x y : UInt16, 0xffff - x = 0xffff - y → x = y := by grind
  have hbits : ∀ c ∈ InputMap.controls, a.byte c.1.byte &&& c.1.mask ≠ 0 ↔
      b.byte c.1.byte &&& c.1.mask ≠ 0 := by
    intro c hc
    exact decide_eq_decide.mp ((ha.controls c hc).symm.trans (hb.controls c hc))
  have hwhole : ∀ k < 2, ∀ m ∈ masks, ∃ c ∈ InputMap.controls, c.1 = ⟨k, m⟩ := by
    decide +kernel
  have hbyte3 : ∀ m ∈ masks, (0xfe : UInt8) &&& m = 0 ∨
      (0xfe : UInt8) &&& m = m ∧ ∃ c ∈ InputMap.controls, c.1 = ⟨3, m⟩ := by
    decide +kernel
  have heq : ∀ k < 2, a.byte k = b.byte k := by
    intro k hk
    apply eq_of_masks
    intro m hm
    obtain ⟨c, hc, hcm⟩ := hwhole k hk m hm
    have hbit := hbits c hc
    rwa [hcm] at hbit
  have hwheel := fromLe_injective (ha.wheel.symm.trans hb.wheel)
  have hpedals : ∀ p ∈ InputMap.pedals, a.byte p.1 = b.byte p.1 ∧
      a.byte (p.1 + 1) = b.byte (p.1 + 1) := by
    intro p hp
    exact fromLe_injective (hneg _ _ ((ha.pedals p hp).symm.trans (hb.pedals p hp)))
  refine ⟨heq 0 (by decide), heq 1 (by decide), ?_, ?_⟩
  · apply eq_of_masks
    intro m hm
    rw [UInt8.and_assoc, UInt8.and_assoc]
    rcases hbyte3 m hm with hzero | ⟨hself, c, hc, hcm⟩
    · rw [hzero, UInt8.and_zero, UInt8.and_zero]
    · have hbit := hbits c hc
      rwa [hself, ← show c.1.mask = m by rw [hcm], ← show c.1.byte = 3 by rw [hcm]]
  · intro k hlo hhi
    obtain rfl | rfl | rfl | rfl | rfl | rfl | rfl | rfl : k = 4 ∨ k = 5 ∨ k = 6 ∨ k = 7 ∨
        k = 8 ∨ k = 9 ∨ k = 10 ∨ k = 11 := by omega
    · exact hwheel.1
    · exact hwheel.2
    · exact (hpedals (6, 45) (by decide)).1
    · exact (hpedals (6, 45) (by decide)).2
    · exact (hpedals (8, 47) (by decide)).1
    · exact (hpedals (8, 47) (by decide)).2
    · exact (hpedals (10, 49) (by decide)).1
    · exact (hpedals (10, 49) (by decide)).2

/-- A documented result is one for every report that agrees on what is mapped. -/
theorem Documented.of_agree {a b : Bytes c272Len} {r : Bytes c269Len} (ha : Documented a r)
    (h : Agree a b) : Documented b r := by
  obtain ⟨h0, h1, h3, haxes⟩ := h
  have hmapped : ∀ c ∈ InputMap.controls, c.1.byte = 0 ∨ c.1.byte = 1 ∨
      c.1.byte = 3 ∧ (0xfe : UInt8) &&& c.1.mask = c.1.mask := by decide
  have haxis : ∀ x ∈ wheelAxis :: InputMap.pedals, axis b x.1 = axis a x.1 := by
    have hrange : ∀ x ∈ wheelAxis :: InputMap.pedals, 4 ≤ x.1 ∧ x.1 + 1 < 12 := by decide
    intro x hx
    obtain ⟨hlo, hhi⟩ := hrange x hx
    unfold axis
    rw [haxes x.1 hlo (by omega), haxes (x.1 + 1) (by omega) hhi]
  constructor
  · intro c hc
    rw [ha.controls c hc]
    unfold Bit.isSet
    rcases hmapped c hc with hk | hk | ⟨hk, hmask⟩
    · rw [hk, h0]
    · rw [hk, h1]
    · rw [hk, ← hmask, ← UInt8.and_assoc, ← UInt8.and_assoc, h3]
  · rw [ha.wheel, haxis _ (List.mem_cons_self ..)]
  · intro p hp
    rw [ha.pedals p hp, haxis _ (List.mem_cons_of_mem _ hp)]
  · exact ha.unmapped

/-- The translation is the documented mapping; two reports have the same result if and
only if they agree on what is mapped. -/
theorem input_translated :
    (∀ src, Documented src (translate src)) ∧
      ∀ a b, translate a = translate b ↔ Agree a b := by
  refine ⟨documented_translate, ?_⟩
  intro a b
  constructor
  · intro h
    have ha := documented_translate a
    rw [h] at ha
    exact ha.agree (documented_translate b)
  · intro h
    exact ((documented_translate a).of_agree h).unique (documented_translate b)

end InputMap

end WheelBridge
