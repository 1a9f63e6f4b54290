import WheelBridge.HidProbe
import WheelBridge.ReportTable

/-!
When the recorded sizes are the sizes of the reports: the sums are taken modulo 2 ^ 32, and
the dev profile panics where one leaves 32 bits.
-/
namespace WheelBridge.Hid

/-- In bits. -/
def MainItem.size (d : MainItem) : ℕ := d.globals.reportSize.toNat * d.globals.reportCount.toNat

/-- The size of a report: the sum over its main items. -/
def trueBits (ds : List MainItem) (k : UInt8 × ReportKind) : ℕ :=
  ((ds.filter fun d => reportSizes.key d = k).map MainItem.size).sum

/-- What is recorded of a report, and the length asked for, are of its size. -/
structure SizedRight (ds : List MainItem) (r : ReportSize) : Prop where
  bits : r.bits.toNat = trueBits ds (r.id, r.kind)
  wLength : featureLen r = min ((trueBits ds (r.id, r.kind) + 7) / 8 + 1) featureBufLen

/-- The scan does not panic and records every report with its size. -/
def SizesExact (p : Profile) (desc : List UInt8) : Prop :=
  ∃ reports, logReportSummary p desc = some reports ∧
    ∀ r, some r ∈ reports → SizedRight (mainItems desc) r

/-- Every main item, and each of the reports recorded, has less than 2 ^ 32 bits. -/
structure Fits (ds : List MainItem) : Prop where
  item : ∀ d ∈ ds, d.size < 2 ^ 32
  report : ∀ d ∈ (reportSizes.firsts ds).take maxReports, trueBits ds (reportSizes.key d) < 2 ^ 32

theorem trueBits_concat (ds : List MainItem) (d : MainItem) (k : UInt8 × ReportKind) :
    trueBits (ds ++ [d]) k = trueBits ds k + if reportSizes.key d = k then d.size else 0 := by
  unfold trueBits
  rw [List.filter_append, List.map_append, List.sum_append]
  congr 1
  by_cases hk : reportSizes.key d = k <;> simp [hk]

/-- The running sum wraps. -/
theorem bits_foldl (ds : List MainItem) (r : ReportSize) :
    (ds.foldl reportSizes.add r).bits.toNat =
      (r.bits.toNat + (ds.map MainItem.size).sum) % 2 ^ 32 := by
  induction ds generalizing r with
  | nil =>
    have hlt := r.bits.toNat_lt
    simp
  | cons d ds ih =>
    have hadd : (reportSizes.add r d).bits.toNat = (r.bits.toNat + d.size) % 2 ^ 32 := by
      change (r.bits + d.globals.reportSize * d.globals.reportCount).toNat = _
      rw [UInt32.toNat_add, UInt32.toNat_mul, Nat.add_mod_mod]
      rfl
    rw [List.foldl_cons, ih, hadd, List.map_cons, List.sum_cons, Nat.mod_add_mod, Nat.add_assoc]

theorem bits_total {ds : List MainItem} {d : MainItem} (hd : d ∈ reportSizes.firsts ds) :
    (reportSizes.total ds d).bits.toNat = trueBits ds (reportSizes.key d) % 2 ^ 32 := by
  obtain ⟨later, hlater⟩ := reportSizes.filter_of_mem_firsts hd
  have hstart : (reportSizes.start d).bits.toNat = d.size % 2 ^ 32 := UInt32.toNat_mul ..
  rw [Counter.total, trueBits, hlater, List.tail_cons, bits_foldl, hstart, List.map_cons,
    List.sum_cons, Nat.mod_add_mod]

/-- An entry of the table holds its report's size modulo 2 ^ 32. -/
theorem bits_of_mem_tally {ds : List MainItem} {r : ReportSize}
    (hr : r ∈ reportSizes.tally maxReports ds) :
    ∃ d ∈ (reportSizes.firsts ds).take maxReports, reportSizes.key d = (r.id, r.kind) ∧
      r.bits.toNat = trueBits ds (r.id, r.kind) % 2 ^ 32 := by
  rw [reportSizes.tally_eq] at hr
  obtain ⟨d, hd, rfl⟩ := List.mem_map.mp hr
  have hkey : reportSizes.key d = ((reportSizes.total ds d).id, (reportSizes.total ds d).kind) :=
    (reportSizes.keyOf_total ds d).symm
  refine ⟨d, hd, hkey, ?_⟩
  rw [← hkey]
  exact bits_total (List.mem_of_mem_take hd)

theorem Fits.of_concat {ds : List MainItem} {d : MainItem} (h : Fits (ds ++ [d])) : Fits ds where
  item e he := h.item e (List.mem_append_left _ he)
  report e he := by
    have hmem := ((reportSizes.firsts_prefix ds [d]).take maxReports).subset he
    have hsum := h.report e hmem
    rw [trueBits_concat] at hsum
    omega

/-- One more main item fits where neither its product nor the sum of its report leaves
32 bits. -/
theorem fits_concat {ds : List MainItem} (h : Fits ds) (d : MainItem) :
    Fits (ds ++ [d]) ↔ d.size < 2 ^ 32 ∧ ∀ e ∈ (reportSizes.firsts ds).take maxReports,
      reportSizes.key d = reportSizes.key e →
        trueBits ds (reportSizes.key e) + d.size < 2 ^ 32 := by
  constructor
  · intro hfits
    refine ⟨hfits.item d (List.mem_append_right _ (List.mem_singleton_self d)), ?_⟩
    intro e he hkey
    have hmem := ((reportSizes.firsts_prefix ds [d]).take maxReports).subset he
    have hsum := hfits.report e hmem
    rwa [trueBits_concat, if_pos hkey] at hsum
  · intro hd
    refine ⟨?_, ?_⟩
    · intro e he
      rcases List.mem_append.mp he with he | he
      · exact h.item e he
      · rw [List.mem_singleton.mp he]
        exact hd.1
    · intro e he
      rw [trueBits_concat]
      by_cases hmem : e ∈ (reportSizes.firsts ds).take maxReports
      · split
        · next hkey => exact hd.2 e hmem hkey
        · exact h.report e hmem
      · -- a new report
        have hnew : e = d ∧ reportSizes.key d ∉ ds.map reportSizes.key := by
          rw [reportSizes.firsts_concat] at he
          split at he
          · exact absurd he hmem
          · next hkey =>
            rw [List.take_append] at he
            rcases List.mem_append.mp he with he | he
            · exact absurd he hmem
            · exact ⟨List.mem_singleton.mp (List.mem_of_mem_take he), hkey⟩
        obtain ⟨rfl, hkey⟩ := hnew
        have hnone : trueBits ds (reportSizes.key e) = 0 := by
          have hnil : ds.filter (fun d => reportSizes.key d = reportSizes.key e) = [] := by
            rw [List.filter_eq_nil_iff]
            intro f hf
            simp only [decide_eq_true_eq]
            intro hfe
            exact hkey (List.mem_map.mpr ⟨f, hf, hfe⟩)
          rw [trueBits, hnil]
          rfl
        rw [hnone, if_pos rfl, Nat.zero_add]
        exact hd.1

/-- Where all fits, the table holds the sizes of the reports. -/
theorem Fits.bits_eq {ds : List MainItem} (h : Fits ds) {r : ReportSize}
    (hr : r ∈ reportSizes.tally maxReports ds) : r.bits.toNat = trueBits ds (r.id, r.kind) := by
  obtain ⟨d, hd, hkey, hbits⟩ := bits_of_mem_tally hr
  rw [hbits, ← hkey, Nat.mod_eq_of_lt (h.report d hd)]

/-- After items that fit, the next overflows exactly where it does not fit. -/
theorem overflows_iff {ds : List MainItem} (h : Fits ds) {t : Summary}
    (ht : t.table = reportSizes.tally maxReports ds) (kind : ReportKind) :
    t.Overflows (.main kind) ↔ ¬ Fits (ds ++ [⟨kind, t.globals.current⟩]) := by
  set d : MainItem := ⟨kind, t.globals.current⟩ with hd
  rw [fits_concat h]
  by_cases hsize : d.size < 2 ^ 32
  · have hbits : (t.globals.current.reportSize * t.globals.current.reportCount).toNat = d.size := by
      rw [UInt32.toNat_mul]
      exact Nat.mod_eq_of_lt hsize
    constructor
    · intro hover hfits
      rcases hover with hproduct | hsum
      · exact absurd hsize (Nat.not_lt.mpr hproduct)
      · obtain ⟨r, hr, hkey, hbig⟩ := hsum
        rw [ht] at hr
        obtain ⟨e, he, hek, -⟩ := bits_of_mem_tally hr
        have hlt := hfits.2 e he (hkey.symm.trans hek.symm)
        rw [h.bits_eq hr, ← hek, hbits] at hbig
        omega
    · intro hfits
      by_contra hover
      refine hfits ⟨hsize, ?_⟩
      intro e he hkey
      by_contra hbig
      have hr : reportSizes.total ds e ∈ reportSizes.tally maxReports ds := by
        rw [reportSizes.tally_eq]
        exact List.mem_map_of_mem he
      have hek : ((reportSizes.total ds e).id, (reportSizes.total ds e).kind) = reportSizes.key e :=
        reportSizes.keyOf_total ds e
      refine hover (Or.inr ⟨reportSizes.total ds e, ht ▸ hr, ?_, ?_⟩)
      · rw [reportSizes.keyOf_total, ← hkey]
        rfl
      · rw [h.bits_eq hr, hek, hbits]
        omega
  · constructor
    · exact fun _ hfits => hsize hfits.1
    · exact fun _ => Or.inl (Nat.not_lt.mp hsize)

/-- The dev profile does not panic exactly where all fits. -/
theorem run_dev_iff (ms : List Meaning) :
    Summary.init.run .dev ms ≠ none ↔ Fits (declared stackRoom GlobalState.init ms) := by
  induction ms using List.reverseRecOn with
  | nil =>
    refine iff_of_true (Option.some_ne_none _) ⟨?_, ?_⟩
    · intro d hd
      cases hd
    · intro d hd
      cases hd
  | append_singleton ms m ih =>
    rw [Summary.run_append, declared_append]
    cases hrun : Summary.init.run .dev ms with
    | none =>
      rw [hrun] at ih
      have hover : ¬ Fits (declared stackRoom GlobalState.init ms) := fun h => ih.mpr h rfl
      refine iff_of_false (fun h => h rfl) ?_
      intro hfits
      cases m with
      | main kind => exact hover hfits.of_concat
      | usagePage | reportSize | reportId | reportCount | push | pop | other =>
        exact hover (by simpa [declared] using hfits)
    | some t =>
      have hfits : Fits (declared stackRoom GlobalState.init ms) :=
        ih.mp (by rw [hrun]; exact Option.some_ne_none t)
      have ht := Summary.run_eq_some hrun
      have hglobals : t.globals = ms.foldl (GlobalState.apply stackRoom) GlobalState.init := by
        rw [ht, Summary.globals_foldl]
        rfl
      have htable : t.table =
          reportSizes.tally maxReports (declared stackRoom GlobalState.init ms) := by
        rw [ht, Summary.table_foldl]
        rfl
      rw [Option.bind_some]
      cases m with
      | main kind =>
        have hover := overflows_iff hfits htable kind
        rw [hglobals] at hover
        rw [Summary.run]
        change _ ↔ Fits (_ ++ [_])
        by_cases hfit : Fits (declared stackRoom GlobalState.init ms ++
            [⟨kind, (ms.foldl (GlobalState.apply stackRoom) GlobalState.init).current⟩])
        · rw [if_neg fun h => hover.mp h.2 hfit]
          exact iff_of_true (Option.some_ne_none _) hfit
        · rw [if_pos ⟨rfl, hover.mpr hfit⟩]
          exact iff_of_false (fun h => h rfl) hfit
      | usagePage | reportSize | reportId | reportCount | push | pop | other =>
        rw [Scan.Refines.run_one .dev id]
        exact iff_of_true (Option.some_ne_none _) (by simpa [declared] using hfits)

/-- The recorded sizes are exact in both profiles exactly where all sizes fit 32 bits. -/
theorem sizes_exact_iff (desc : List UInt8) :
    (∀ p, SizesExact p desc) ↔ Fits (mainItems desc) := by
  constructor
  · intro h
    obtain ⟨reports, hscan, -⟩ := h .dev
    rw [logReportSummary_eq] at hscan
    obtain ⟨t, hrun, -⟩ := Option.map_eq_some_iff.mp hscan
    exact (run_dev_iff _).mp (by rw [hrun]; exact Option.some_ne_none t)
  · intro hfits p
    obtain ⟨t, hrun⟩ : ∃ t, Summary.init.run p (meanings desc) = some t := by
      cases p with
      | dev => exact Option.ne_none_iff_exists'.mp ((run_dev_iff _).mpr hfits)
      | release => exact ⟨_, Summary.run_release _ _⟩
    refine ⟨slots maxReports t.table, by rw [logReportSummary_eq, hrun]; rfl, ?_⟩
    intro r hr
    have hmem : r ∈ reportSizes.tally maxReports (mainItems desc) := by
      have htable : t.table = reportSizes.tally maxReports (mainItems desc) := by
        rw [Summary.run_eq_some hrun]
        exact table_summarise desc
      have hslots : (slots maxReports t.table).filterMap id = t.table := filterMap_slots
      rw [← htable, ← hslots]
      exact List.mem_filterMap.mpr ⟨some r, hr, rfl⟩
    have hbits := hfits.bits_eq hmem
    exact ⟨hbits, by rw [featureLen, hbits]⟩

/-- Report Size and Report Count 65536, Report ID 1, Feature. -/
def hugeItems : List Item :=
  [.ofShort 0x77 [0, 0, 1, 0] rfl, .ofShort 0x97 [0, 0, 1, 0] rfl, .ofShort 0x85 [1] rfl,
    featureItem]

def hugeFeature : List UInt8 := hugeItems.flatMap Item.bytes

theorem mainItems_hugeFeature : mainItems hugeFeature = [⟨.feature, 0, 65536, 65536, 1⟩] := by
  have hitems : items (hugeItems.flatMap Item.bytes ++ []) = hugeItems := by
    rw [items_bytes, items_of_none rfl, List.append_nil]
  rw [List.append_nil] at hitems
  rw [mainItems, meanings, hugeFeature, hitems]
  decide +kernel

/-- The product is 2 ^ 32: the dev profile panics, and release records no bits, so only the
ID byte is asked for. -/
theorem product_wraps :
    ¬ SizesExact .dev hugeFeature ∧ ¬ SizesExact .release hugeFeature ∧
      ∃ r, logReportSummary .release hugeFeature = some (slots maxReports [r]) ∧
        featureLen r = 1 ∧ trueBits (mainItems hugeFeature) (r.id, r.kind) = 2 ^ 32 := by
  have hrelease : logReportSummary .release hugeFeature =
      some (slots maxReports [⟨1, .feature, 0, 0⟩]) := by decide +kernel
  have htrue : trueBits (mainItems hugeFeature) (1, .feature) = 2 ^ 32 := by
    rw [mainItems_hugeFeature]
    decide +kernel
  refine ⟨?_, ?_, ⟨1, .feature, 0, 0⟩, hrelease, by decide, htrue⟩
  · intro h
    obtain ⟨reports, hscan, -⟩ := h
    have hdev : logReportSummary .dev hugeFeature = none := by decide +kernel
    rw [hdev] at hscan
    cases hscan
  · intro h
    obtain ⟨reports, hscan, hall⟩ := h
    rw [hrelease] at hscan
    cases hscan
    have hbits := (hall ⟨1, .feature, 0, 0⟩ (List.mem_cons_self ..)).bits
    rw [htrue] at hbits
    exact absurd hbits (by decide)

end WheelBridge.Hid
