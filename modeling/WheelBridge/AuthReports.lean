import WheelBridge.HidProbe
import WheelBridge.ReportTable

/-!
Which feature reports the probe leaves alone: those whose first main item is on the auth
usage page. A report with an auth item is read all the same where its first item is on
another page.
-/
namespace WheelBridge.Hid

/-- A Feature item with the ID is declared on the auth page. Every Push counts. -/
def AuthDeclared (desc : List UInt8) (id : UInt8) : Prop :=
  ∃ d ∈ declared (fun _ => true) GlobalState.init (meanings desc),
    d.kind = .feature ∧ d.globals.reportId = id ∧ d.globals.usagePage = usagePagePsAuth

/-- No feature report is read that the last descriptor that came declares as auth. -/
def Spares (last : List UInt8) : List Action → Prop
  | [] => True
  | .received desc :: as => Spares desc as
  | .getFeature _ id _ :: as => ¬ AuthDeclared last id ∧ Spares last as
  | .getDescriptor .. :: as | .setIdle _ :: as | .panicked :: as => Spares last as

/-- Of each feature report that is recorded and has an auth item, the first item that the
scan sees is on the auth page. -/
def AuthFirst (desc : List UInt8) : Prop :=
  ∀ d ∈ (reportSizes.firsts (mainItems desc)).take maxReports, d.kind = .feature →
    d.globals.reportId ≠ 0 → AuthDeclared desc d.globals.reportId →
      d.globals.usagePage = usagePagePsAuth

/-- The descriptor that comes for an interface. -/
def fetched {ε : Type*} (turn : HidInterface ε × Option (List UInt8)) : Option (List UInt8) :=
  turn.2.map fun bytes => bytes.take (min turn.1.reportDescLen.toNat reportDescBufLen)

/-- The feature reports of an interface. -/
theorem spares_readFeatureReports (last : List UInt8) (iface : UInt8)
    (reports : List (Option ReportSize)) (as : List Action) :
    Spares last (readFeatureReports iface reports ++ as) ↔
      (∀ r ∈ reports.filterMap id, r.kind = .feature → r.id ≠ 0 →
        AuthDeclared last r.id → r.usagePage = usagePagePsAuth) ∧ Spares last as := by
  unfold readFeatureReports
  induction reports.filterMap id with
  | nil => simp
  | cons r rs ih =>
    rw [List.forall_mem_cons, and_assoc, ← ih]
    by_cases hread : r.kind = .feature ∧ r.id ≠ 0
    · rw [List.filter_cons_of_pos (by simpa using hread)]
      by_cases hauth : r.usagePage = usagePagePsAuth
      · rw [List.filterMap_cons, if_pos hauth]
        simp [hauth]
      · rw [List.filterMap_cons, if_neg hauth]
        dsimp only
        rw [List.cons_append, Spares]
        simp [hread.1, hread.2, hauth]
    · rw [List.filter_cons_of_neg (by simpa using hread)]
      rw [not_and] at hread
      exact ⟨fun h => ⟨fun hk hid => absurd hid (hread hk), h⟩, fun h => h.2⟩

/-- What the scan records of a descriptor is read as its first items say. -/
theorem spares_recorded (desc : List UInt8) (iface : UInt8) (as : List Action) :
    Spares desc (readFeatureReports iface
        (slots maxReports (summarise (meanings desc)).table) ++ as) ↔
      AuthFirst desc ∧ Spares desc as := by
  rw [spares_readFeatureReports, filterMap_slots, table_summarise, reportSizes.tally_eq,
    List.forall_mem_map]
  refine and_congr_left fun _ => forall₂_congr fun d _ => ?_
  have hpage : (reportSizes.total (mainItems desc) d).usagePage = d.globals.usagePage :=
    usagePage_foldl _ _
  obtain ⟨hid, hkind⟩ := Prod.mk.inj (reportSizes.keyOf_total (mainItems desc) d)
  change _ = d.kind at hkind
  change _ = d.globals.reportId at hid
  rw [hpage, hid, hkind]

/-- In the dev profile the scan may panic, and gives the same otherwise. -/
theorem logReportSummary_dev (desc : List UInt8) :
    logReportSummary .dev desc = none ∨
      logReportSummary .dev desc = logReportSummary .release desc := by
  rw [logReportSummary_eq, logReportSummary_eq, Summary.run_release]
  cases hrun : Summary.init.run .dev (meanings desc) with
  | none => exact Or.inl rfl
  | some t =>
    rw [Summary.run_eq_some hrun]
    exact Or.inr rfl

section Probe

variable {ε : Type*}

theorem spares_release (turns : List (HidInterface ε × Option (List UInt8)))
    (last : List UInt8) :
    Spares last (probe .release turns) ↔
      ∀ turn ∈ turns, ∀ desc, fetched turn = some desc → AuthFirst desc := by
  induction turns generalizing last with
  | nil => simp [probe, Spares]
  | cons turn turns ih =>
    obtain ⟨iface, reply⟩ := turn
    rw [List.forall_mem_cons]
    cases reply with
    | none =>
      rw [probe]
      simp only [Spares]
      rw [ih]
      simp [fetched]
    | some bytes =>
      rw [probe]
      simp only [Spares, fetched, Option.map_some]
      rw [logReportSummary_eq, Summary.run_release]
      change Spares _ (readFeatureReports _ (slots maxReports (summarise _).table) ++ _) ↔ _
      rw [spares_recorded, Spares, ih]
      simp [fetched]

/-- A panic only ends the probe. -/
theorem spares_dev (turns : List (HidInterface ε × Option (List UInt8))) (last : List UInt8)
    (h : Spares last (probe .release turns)) : Spares last (probe .dev turns) := by
  induction turns generalizing last with
  | nil => exact h
  | cons turn turns ih =>
    obtain ⟨iface, reply⟩ := turn
    cases reply with
    | none => exact ih last h
    | some bytes =>
      rw [probe] at h ⊢
      simp only [Spares] at h ⊢
      rcases logReportSummary_dev (bytes.take (min iface.reportDescLen.toNat reportDescBufLen))
        with hpanic | hsame
      · rw [hpanic]
        trivial
      · rw [hsame]
        cases hscan : logReportSummary .release
            (bytes.take (min iface.reportDescLen.toNat reportDescBufLen)) with
        | none => trivial
        | some reports =>
          rw [hscan] at h
          dsimp only at h ⊢
          rw [spares_readFeatureReports] at h ⊢
          exact ⟨h.1, ih _ h.2⟩

/-- The probe reads no auth report, in either profile, exactly where the first item of each
recorded feature report with an auth item is on the auth page. -/
theorem auth_spared_iff (turns : List (HidInterface ε × Option (List UInt8))) :
    (∀ p, Spares [] (probe p turns)) ↔
      ∀ turn ∈ turns, ∀ desc, fetched turn = some desc → AuthFirst desc := by
  rw [← spares_release turns []]
  constructor
  · exact fun h => h .release
  · intro h p
    cases p with
    | dev => exact spares_dev turns [] h
    | release => exact h

end Probe

/-- Report ID 5; a Feature item on page 1, another one on page 0xFFF0. -/
def mixedItems : List Item :=
  [.ofShort 0x85 [5] rfl, desktopItem, featureItem, authItem, featureItem]

def mixedReport : List UInt8 := mixedItems.flatMap Item.bytes

theorem authDeclared_mixedReport : AuthDeclared mixedReport 5 := by
  have hitems : items (mixedItems.flatMap Item.bytes ++ []) = mixedItems := by
    rw [items_bytes, items_of_none rfl, List.append_nil]
  rw [List.append_nil] at hitems
  refine ⟨⟨.feature, usagePagePsAuth, 0, 0, 5⟩, ?_, rfl, rfl, rfl⟩
  rw [meanings, mixedReport, hitems]
  decide +kernel

/-- The first item of feature report 5 is not on the auth page: it is read. -/
theorem mixed_report_read :
    ¬ ∀ p, Spares [] (probe p [((⟨0, 11, none, none⟩ : HidInterface Unit), some mixedReport)]) := by
  intro h
  have htrace : probe .release [((⟨0, 11, none, none⟩ : HidInterface Unit), some mixedReport)] =
      [.getDescriptor 0 11, .received mixedReport, .getFeature 0 5 1, .setIdle 0] := by
    decide +kernel
  have hspares := h .release
  rw [htrace] at hspares
  exact hspares.1 authDeclared_mixedReport

end WheelBridge.Hid
