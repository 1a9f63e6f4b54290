import WheelBridge.ReportScan

/-!
What the summary of a report descriptor says of its main items: one entry for each of the
first (ID, type) pairs, in order. A long item says nothing wherever it stands.
-/
namespace WheelBridge.Hid

/-- The second stage, with sums modulo 2 ^ 32. -/
def summarise (ms : List Meaning) : Summary := ms.foldl Summary.apply Summary.init

/-- The main items of a descriptor with the globals the scan applies to them. -/
def mainItems (desc : List UInt8) : List MainItem :=
  declared stackRoom GlobalState.init (meanings desc)

theorem Summary.run_append (p : Profile) (t : Summary) (ms ms' : List Meaning) :
    t.run p (ms ++ ms') = (t.run p ms).bind fun t => t.run p ms' := by
  induction ms generalizing t with
  | nil => rfl
  | cons m ms ih =>
    rw [List.cons_append, Summary.run, Summary.run]
    split
    · rfl
    · exact ih _

theorem Summary.run_release (t : Summary) (ms : List Meaning) :
    t.run .release ms = some (ms.foldl Summary.apply t) := by
  induction ms generalizing t with
  | nil => rfl
  | cons m ms ih =>
    have hp : ¬ (Profile.release = .dev ∧ t.Overflows m) := fun h => by cases h.1
    rw [Summary.run, if_neg hp, ih]
    rfl

/-- Where the run does not end early, it is the fold. -/
theorem Summary.run_eq_some {p : Profile} {t t' : Summary} {ms : List Meaning}
    (h : t.run p ms = some t') : t' = ms.foldl Summary.apply t := by
  induction ms generalizing t with
  | nil => exact (Option.some.inj h).symm
  | cons m ms ih =>
    rw [Summary.run] at h
    split at h
    · cases h
    · exact ih h

/-- The globals follow the items. -/
theorem Summary.globals_foldl (ms : List Meaning) (t : Summary) :
    (ms.foldl Summary.apply t).globals = ms.foldl (GlobalState.apply stackRoom) t.globals := by
  induction ms generalizing t with
  | nil => rfl
  | cons m ms ih =>
    rw [List.foldl_cons, ih]
    cases m <;> rfl

/-- The table counts the main items. -/
theorem Summary.table_foldl (ms : List Meaning) (t : Summary) :
    (ms.foldl Summary.apply t).table =
      (declared stackRoom t.globals ms).foldl (reportSizes.record maxReports) t.table := by
  induction ms generalizing t with
  | nil => rfl
  | cons m ms ih =>
    rw [List.foldl_cons, ih]
    cases m <;> rfl

theorem table_summarise (desc : List UInt8) :
    (summarise (meanings desc)).table = reportSizes.tally maxReports (mainItems desc) :=
  Summary.table_foldl ..

/-- The table has an entry for each of the first pairs, with the usage page of its first
main item; one that is left out came when the table was full of others. -/
structure Tabulates (ds : List MainItem) (table : List ReportSize) : Prop where
  order : table.map reportSizes.keyOf = ((reportSizes.firsts ds).take maxReports).map
    reportSizes.key
  usagePage : table.map ReportSize.usagePage = ((reportSizes.firsts ds).take maxReports).map
    fun d => d.globals.usagePage
  distinct : (table.map reportSizes.keyOf).Nodup
  left_out : ∀ before d after, ds = before ++ d :: after →
    reportSizes.key d ∉ table.map reportSizes.keyOf →
      (reportSizes.tally maxReports before).length = maxReports ∧
        reportSizes.key d ∉ (reportSizes.tally maxReports before).map reportSizes.keyOf

theorem usagePage_foldl (ds : List MainItem) (r : ReportSize) :
    (ds.foldl reportSizes.add r).usagePage = r.usagePage := by
  induction ds generalizing r with
  | nil => rfl
  | cons d ds ih =>
    rw [List.foldl_cons, ih]
    rfl

theorem tabulates_tally (ds : List MainItem) :
    Tabulates ds (reportSizes.tally maxReports ds) where
  order := reportSizes.keys_tally maxReports ds
  usagePage := by
    rw [reportSizes.tally_eq, List.map_map]
    refine List.map_congr_left fun d _ => ?_
    exact usagePage_foldl _ _
  distinct := reportSizes.keys_tally_nodup maxReports ds
  left_out before d after hds := by
    subst hds
    exact reportSizes.full_of_left_out maxReports

/-- A long item between whole items is not seen. -/
theorem long_item_unseen (p : Profile) (xs : List Item) (x : LongItem) (rest : List UInt8) :
    logReportSummary p (xs.flatMap Item.bytes ++ (x.bytes ++ rest)) =
      logReportSummary p (xs.flatMap Item.bytes ++ rest) := by
  have hlong : items (x.bytes ++ rest) = .long x :: items rest :=
    items_of_some (nextItem_long x rest)
  have hother : ∀ t : Summary, t.run p (.other :: meanings rest) = t.run p (meanings rest) := by
    intro t
    rw [Summary.run_cons, Scan.Refines.run_one p id]
    rfl
  rw [logReportSummary_eq, logReportSummary_eq]
  have hwith : meanings (xs.flatMap Item.bytes ++ (x.bytes ++ rest)) =
      xs.map Item.meaning ++ .other :: meanings rest := by
    rw [meanings, items_bytes, List.map_append, hlong, List.map_cons]
    rfl
  have hwithout : meanings (xs.flatMap Item.bytes ++ rest) =
      xs.map Item.meaning ++ meanings rest := by
    rw [meanings, items_bytes, List.map_append]
    rfl
  rw [hwith, hwithout, Summary.run_append, Summary.run_append]
  simp only [hother]

/-- On any bytes the index loop ends in range with the table of the two stages: whole items
first, then their meaning, with sums modulo 2 ^ 32. In the dev profile it panics where a sum
or a product overflows, and nowhere else. -/
theorem scan_refines (desc : List UInt8) :
    logReportSummary .release desc = some (slots maxReports (summarise (meanings desc)).table) ∧
      (∀ p, logReportSummary p desc =
        (Summary.init.run p (meanings desc)).map fun t => slots maxReports t.table) ∧
      Tabulates (mainItems desc) (summarise (meanings desc)).table ∧
      ∀ (xs : List Item) (rest : List UInt8), desc = xs.flatMap Item.bytes ++ rest →
        ∀ (x : LongItem) (p : Profile),
          logReportSummary p (xs.flatMap Item.bytes ++ (x.bytes ++ rest)) =
            logReportSummary p desc := by
  refine ⟨?_, fun p => logReportSummary_eq p desc, ?_, ?_⟩
  · rw [logReportSummary_eq, Summary.run_release]
    rfl
  · rw [table_summarise]
    exact tabulates_tally _
  · intro xs rest hdesc x p
    rw [hdesc]
    exact long_item_unseen p xs x rest

end WheelBridge.Hid
