import WheelBridge.AuthCache
import WheelBridge.PresentedDevice

/-!
The console's GET_REPORTs against what the report descriptor declares: every answer is the
report that was asked for, of the declared size, whether it comes from the personality's
tables, from the translated input or from the cache of the authentication relay.
-/
namespace WheelBridge

open Hid (ReportKind ReportSize logReportSummary)

/-- `task`'s control buffer. -/
def controlBufLen : ℕ := 256

def Request.isGetReport (req : Request) : Bool :=
  req.recipient = .interface ∧ req.requestType = .class_ ∧ req.request = hidGetReport

/-- The report type in the high byte of wValue. -/
def Request.reportKind (req : Request) : Option ReportKind :=
  if req.kind = reportTypeInput then some .input
  else if req.kind = reportTypeFeature then some .feature
  else none

theorem ifInput_lt : ifInput.toNat < 3 := by decide

namespace Profile

/-- The reports IF0's descriptor declares, with their sizes in bytes, ID byte included. -/
def reportSizes (p : Profile) : List (UInt8 × ReportKind × ℕ) :=
  let desc := (p.hid ⟨ifInput.toNat, ifInput_lt⟩).2
  (((logReportSummary .dev desc).getD []).filterMap id).map fun r =>
    (r.id, r.kind, (r.bits.toNat + 7) / 8 + if r.id = 0 then 0 else 1)

def reportLen (p : Profile) (kind : ReportKind) (id : UInt8) : Option ℕ :=
  (p.reportSizes.find? fun r => r.1 = id ∧ r.2.1 = kind).map fun r => r.2.2

end Profile

/-- What `auth::get_report` gives now. -/
def Auth.State.report (st : Auth.State) (id : UInt8) : Option (List UInt8) :=
  (Auth.getReport id st).2.2

/-- The reports that can be had: what the wheel role sends as input, and every declared feature
report but the nonce, a signature page only while one is left. -/
def Readable (p : Profile) (st : Auth.State) (kind : ReportKind) (id : UInt8) : Prop :=
  (p.reportLen kind id).isSome ∧
    match kind with
    | .input => p.role = .wheel ∧ id = inputId
    | .feature => id ≠ idNonce ∧
        (id = Auth.idSignature → st.ready = true ∧ st.nextPage < Auth.signaturePages)
    | .output => False

theorem reportSizes_c269 : ps5.reportSizes =
    [(0x01, .input, 64), (0x05, .output, 32), (0x03, .feature, 48), (0xf0, .feature, 64),
      (0xf1, .feature, 64), (0xf2, .feature, 16), (0xf3, .feature, 8), (0x30, .output, 8),
      (0x31, .feature, 253)] := by
  decide +kernel

theorem reportSizes_c272 : mirrorC272.reportSizes = [(0x00, .input, 30)] := by
  decide +kernel

/-- A GET_REPORT is answered from the cache where it is asked and has something to give, and
from the tables and the input otherwise. -/
theorem controlIn_getReport (p : Profile) (input : Bytes c269Len) (report : Option (List UInt8))
    {req : Request} (hreq : req.isGetReport = true) :
    controlIn p input report req =
      some (match if p.asksAuth req then report else none with
        | some data => .accepted data
        | none => p.getReport input req) := by
  simp only [Request.isGetReport, decide_eq_true_eq] at hreq
  obtain ⟨hrec, htype, hrequest⟩ := hreq
  simp only [controlIn, hrec, htype, hrequest, ne_eq, not_true_eq_false, reduceCtorEq, false_and,
    true_and, if_false, if_true]
  cases if p.asksAuth req then report else none <;> rfl

theorem report_eq_some {st : Auth.State} {id : UInt8} {data : List UInt8}
    (h : st.report id = some data) :
    id = Auth.idReset ∧ data.length = 8 ∨ id = Auth.idState ∧ data.length = 16 ∨
      (id = Auth.idSignature ∧ st.ready = true ∧ st.nextPage < Auth.signaturePages) ∧
        data.length = 64 := by
  unfold Auth.State.report Auth.getReport at h
  split at h
  · next hid =>
    cases h
    exact Or.inl ⟨hid, st.reset.length_eq⟩
  · split at h
    · next hid =>
      refine Or.inr (Or.inl ⟨hid, ?_⟩)
      cases Option.some.inj h
      split
      · exact st.readyState.length_eq
      · exact Bytes.length_eq _
    · split at h
      · next hid =>
        split at h
        · next hpage =>
          cases h
          exact Or.inr (Or.inr ⟨⟨hid, hpage⟩, Bytes.length_eq _⟩)
        · cases h
      · cases h

theorem report_isSome_iff {st : Auth.State} {id : UInt8} :
    (∃ data, st.report id = some data) ↔ id = Auth.idReset ∨ id = Auth.idState ∨
      id = Auth.idSignature ∧ st.ready = true ∧ st.nextPage < Auth.signaturePages := by
  constructor
  · rintro ⟨data, hdata⟩
    rcases report_eq_some hdata with h | h | h
    · exact Or.inl h.1
    · exact Or.inr (Or.inl h.1)
    · exact Or.inr (Or.inr h.1)
  · rintro (rfl | rfl | ⟨rfl, hpage⟩)
    · exact ⟨_, rfl⟩
    · exact ⟨_, rfl⟩
    · refine ⟨(st.signature ⟨st.nextPage, hpage.2⟩).toList, ?_⟩
      unfold Auth.State.report Auth.getReport
      rw [if_neg (by decide), if_neg (by decide), if_pos rfl, dif_pos hpage]

/-- The answers to GET_REPORT, by what is asked for. -/
inductive ReportAnswer (p : Profile) (input : Bytes c269Len) (st : Auth.State) (req : Request) :
    InResponse → Prop
  | cached (data : List UInt8) (hasks : p.asksAuth req = true)
      (hdata : st.report req.id = some data) : ReportAnswer p input st req (.accepted data)
  | table (f : List UInt8) (hmem : f ∈ p.features) (hid : f.head? = some req.id)
      (hkind : req.kind = reportTypeFeature) (hindex : req.index = ifInput) :
      ReportAnswer p input st req (.accepted f)
  | input (hkind : req.kind = reportTypeInput) (hid : req.id = inputId)
      (hindex : req.index = ifInput) (hrole : p.role = .wheel) :
      ReportAnswer p input st req (.accepted input.toList)
  | rejected (hcache : p.asksAuth req = true → ∀ data, st.report req.id ≠ some data)
      (htable : req.kind = reportTypeFeature → req.index = ifInput →
        ∀ f ∈ p.features, f.head? ≠ some req.id)
      (hinput : ¬ (req.kind = reportTypeInput ∧ req.id = inputId ∧ req.index = ifInput ∧
        p.role = .wheel)) : ReportAnswer p input st req .rejected

theorem reportAnswer (p : Profile) (input : Bytes c269Len) (st : Auth.State) {req : Request}
    (hreq : req.isGetReport = true) :
    ∃ resp, controlIn p input (st.report req.id) req = some resp ∧
      ReportAnswer p input st req resp := by
  rw [controlIn_getReport p input _ hreq]
  refine ⟨_, rfl, ?_⟩
  split
  · next data hdata =>
    rw [Option.ite_none_right_eq_some] at hdata
    exact .cached data hdata.1 hdata.2
  · next hnone =>
    have hcache : p.asksAuth req = true → ∀ data, st.report req.id ≠ some data := by
      intro hasks data hdata
      rw [if_pos hasks, hdata] at hnone
      cases hnone
    unfold Profile.getReport
    split
    · next f hf =>
      unfold Profile.feature at hf
      rw [Option.ite_none_right_eq_some] at hf
      obtain ⟨⟨hkind, hindex⟩, hfind⟩ := hf
      exact .table f (List.mem_of_find?_eq_some hfind)
        (by simpa using List.find?_some hfind) hkind hindex
    · next hf =>
      have htable : req.kind = reportTypeFeature → req.index = ifInput →
          ∀ f ∈ p.features, f.head? ≠ some req.id := by
        intro hkind hindex f hmem hhead
        unfold Profile.feature at hf
        rw [if_pos ⟨hkind, hindex⟩] at hf
        exact absurd (decide_eq_true hhead) (List.find?_eq_none.mp hf f hmem)
      split
      · next hinput => exact .input hinput.1 hinput.2.1 hinput.2.2.1 hinput.2.2.2
      · next hinput => exact .rejected hcache htable hinput

/-- The reports of the authentication relay that are read. -/
def authReports : List (UInt8 × ℕ) :=
  [(Auth.idSignature, Auth.signatureLen), (Auth.idState, Auth.stateLen),
    (Auth.idReset, Auth.resetLen)]

/-- The tables, the input and the cache have what the descriptor declares, and the feature
reports declared are those, and the nonce. -/
structure Profile.Consistent (p : Profile) : Prop where
  features : ∀ f ∈ p.features, f.length ≤ controlBufLen ∧
    ∀ id ∈ f.head?, p.reportLen .feature id = some f.length ∧ id ≠ idNonce ∧ id ≠ Auth.idSignature
  auth : p.role ≠ .mirror → ∀ r ∈ authReports, p.reportLen .feature r.1 = some r.2
  input : p.role = .wheel → p.reportLen .input inputId = some c269Len
  declared : ∀ r ∈ p.reportSizes, r.2.1 = .feature →
    (∃ f ∈ p.features, f.head? = some r.1) ∨
      p.role ≠ .mirror ∧ r.1 ∈ [idNonce, Auth.idSignature, Auth.idState, Auth.idReset]

theorem ps5_consistent : ps5.Consistent where
  features := by
    have hlen (id : UInt8) : ps5.reportLen .feature id =
      ((ps5.reportSizes.find? fun r => r.1 = id ∧ r.2.1 = .feature).map fun r => r.2.2) := rfl
    simp only [hlen, reportSizes_c269]
    decide +kernel
  auth := by
    intro _
    unfold Profile.reportLen
    rw [reportSizes_c269]
    decide +kernel
  input := by
    intro _
    unfold Profile.reportLen
    rw [reportSizes_c269]
    decide +kernel
  declared := by
    rw [reportSizes_c269]
    decide +kernel

theorem relayC269_consistent : relayC269.Consistent where
  features := ps5_consistent.features
  auth _ := ps5_consistent.auth (by decide)
  input hrole := by cases hrole
  declared r hr hkind :=
    (ps5_consistent.declared r hr hkind).imp_right fun h => ⟨by decide, h.2⟩

theorem mirrorC272_consistent : mirrorC272.Consistent where
  features f hf := by cases hf
  auth hrole := absurd rfl hrole
  input hrole := by cases hrole
  declared := by
    rw [reportSizes_c272]
    decide

theorem reportLen_eq_some {p : Profile} {kind : ReportKind} {id : UInt8} {len : ℕ}
    (h : p.reportLen kind id = some len) : ∃ r ∈ p.reportSizes, r.1 = id ∧ r.2.1 = kind := by
  obtain ⟨r, hr, -⟩ := Option.map_eq_some_iff.mp h
  exact ⟨r, List.mem_of_find?_eq_some hr, by simpa using List.find?_some hr⟩

/-- A report that is answered is readable, has its declared size and fits the buffer. -/
structure Answered (p : Profile) (st : Auth.State) (kind : ReportKind) (id : UInt8)
    (data : List UInt8) : Prop where
  fits : data.length ≤ controlBufLen
  whole : p.reportLen kind id = some data.length
  readable : Readable p st kind id

theorem cached_answered {p : Profile} (hc : p.Consistent) (hrole : p.role ≠ .mirror)
    {st : Auth.State} {id : UInt8} {data : List UInt8} (h : st.report id = some data) :
    Answered p st .feature id data := by
  have hauth := hc.auth hrole
  rcases report_eq_some h with ⟨rfl, hlen⟩ | ⟨rfl, hlen⟩ | ⟨⟨rfl, hpage⟩, hlen⟩
  · have hsize : p.reportLen .feature Auth.idReset = some 8 :=
      hauth (Auth.idReset, Auth.resetLen) (by decide)
    exact ⟨by rw [hlen]; decide, by rw [hlen]; exact hsize, by rw [hsize]; rfl,
      by decide, fun h => absurd h (by decide)⟩
  · have hsize : p.reportLen .feature Auth.idState = some 16 :=
      hauth (Auth.idState, Auth.stateLen) (by decide)
    exact ⟨by rw [hlen]; decide, by rw [hlen]; exact hsize, by rw [hsize]; rfl,
      by decide, fun h => absurd h (by decide)⟩
  · have hsize : p.reportLen .feature Auth.idSignature = some 64 :=
      hauth (Auth.idSignature, Auth.signatureLen) (by decide)
    exact ⟨by rw [hlen]; decide, by rw [hlen]; exact hsize, by rw [hsize]; rfl,
      by decide, fun _ => hpage⟩

theorem table_answered {p : Profile} (hc : p.Consistent) (st : Auth.State) {id : UInt8}
    {f : List UInt8} (hmem : f ∈ p.features) (hid : f.head? = some id) :
    Answered p st .feature id f := by
  obtain ⟨hle, hhead⟩ := hc.features f hmem
  obtain ⟨hsize, hnonce, hsignature⟩ := hhead id hid
  exact ⟨hle, hsize, by rw [hsize]; rfl, hnonce, fun h => absurd h hsignature⟩

theorem input_answered {p : Profile} (hc : p.Consistent) (st : Auth.State)
    (hrole : p.role = .wheel) (input : Bytes c269Len) :
    Answered p st .input inputId input.toList := by
  have hsize := hc.input hrole
  exact ⟨by rw [input.length_eq]; decide, by rw [input.length_eq]; exact hsize,
    by rw [hsize]; rfl, hrole, rfl⟩

/-- A readable feature report is in the tables or in the cache. -/
theorem readable_feature {p : Profile} (hc : p.Consistent) {st : Auth.State} {id : UInt8}
    (h : Readable p st .feature id) : (∃ f ∈ p.features, f.head? = some id) ∨
      p.role ≠ .mirror ∧ ∃ data, st.report id = some data := by
  obtain ⟨hsome, hnonce, hsignature⟩ := h
  obtain ⟨len, hlen⟩ := Option.isSome_iff_exists.mp hsome
  obtain ⟨r, hr, rfl, hkind⟩ := reportLen_eq_some hlen
  refine (hc.declared r hr hkind).imp_right ?_
  rintro ⟨hrole, hauth⟩
  simp only [List.mem_cons, List.not_mem_nil, or_false] at hauth
  refine ⟨hrole, report_isSome_iff.mpr ?_⟩
  rcases hauth with h | h | h | h
  · exact absurd h hnonce
  · exact Or.inr (Or.inr ⟨h, hsignature h⟩)
  · exact Or.inr (Or.inl h)
  · exact Or.inl h

/-- In every role and whatever the cache holds, a GET_REPORT is answered exactly where the
report it asks for is readable, with a report of the declared size that fits the buffer. -/
theorem get_report_answered_iff {p : Profile}
    (hp : p = ps5 ∨ p = relayC269 ∨ p = mirrorC272) (input : Bytes c269Len) (st : Auth.State)
    {req : Request} (hreq : req.isGetReport = true) :
    (∀ data, controlIn p input (st.report req.id) req = some (.accepted data) →
      ∃ kind, req.reportKind = some kind ∧ Answered p st kind req.id data) ∧
    ((∃ data, controlIn p input (st.report req.id) req = some (.accepted data)) ↔
      req.index = ifInput ∧ ∃ kind, req.reportKind = some kind ∧ Readable p st kind req.id) := by
  have hc : p.Consistent := by
    rcases hp with rfl | rfl | rfl
    · exact ps5_consistent
    · exact relayC269_consistent
    · exact mirrorC272_consistent
  have hfeature (hkind : req.kind = reportTypeFeature) : req.reportKind = some .feature := by
    rw [Request.reportKind, hkind]
    rfl
  have hinput (hkind : req.kind = reportTypeInput) : req.reportKind = some .input := by
    rw [Request.reportKind, if_pos hkind]
  -- what is answered is the report `kind`, `req.id` of IF0
  have haccepted {kind : ReportKind} {data : List UInt8} (hindex : req.index = ifInput)
      (hkind : req.reportKind = some kind) (ha : Answered p st kind req.id data) :
      (∀ d, some (InResponse.accepted data) = some (.accepted d) →
        ∃ kind, req.reportKind = some kind ∧ Answered p st kind req.id d) ∧
      ((∃ d, some (InResponse.accepted data) = some (.accepted d)) ↔
        req.index = ifInput ∧ ∃ kind, req.reportKind = some kind ∧ Readable p st kind req.id) := by
    refine ⟨fun d hd => ?_, iff_of_true ⟨data, rfl⟩ ⟨hindex, kind, hkind, ha.readable⟩⟩
    cases hd
    exact ⟨kind, hkind, ha⟩
  obtain ⟨resp, hresp, hanswer⟩ := reportAnswer p input st hreq
  rw [hresp]
  cases hanswer with
  | cached data hasks hdata =>
    simp only [Profile.asksAuth, decide_eq_true_eq] at hasks
    obtain ⟨-, -, -, hrole, hkind, hindex⟩ := hasks
    exact haccepted hindex (hfeature hkind) (cached_answered hc hrole hdata)
  | table f hmem hid hkind hindex =>
    exact haccepted hindex (hfeature hkind) (table_answered hc st hmem hid)
  | input hkind hid hindex hrole =>
    exact haccepted hindex (hinput hkind) (hid ▸ input_answered hc st hrole input)
  | rejected hcache htable hinp =>
    refine ⟨fun d hd => ?_, iff_of_false (fun h => ?_) ?_⟩
    · cases hd
    · obtain ⟨d, hd⟩ := h
      cases hd
    · rintro ⟨hindex, kind, hkind, hread⟩
      unfold Request.reportKind at hkind
      split at hkind
      · next htype =>
        cases hkind
        exact hinp ⟨htype, hread.2.2, hindex, hread.2.1⟩
      · split at hkind
        · next htype =>
          cases hkind
          rcases readable_feature hc hread with ⟨f, hmem, hid⟩ | ⟨hrole, data, hdata⟩
          · exact htable htype hindex f hmem hid
          · simp only [Request.isGetReport, decide_eq_true_eq] at hreq
            exact hcache (decide_eq_true ⟨hreq.1, hreq.2.1, hreq.2.2, hrole, htype, hindex⟩)
              data hdata
        · cases hkind

/-- GET_REPORT(Feature, `id`) on IF0. -/
def featureRequest (id : UInt8) : Request :=
  ⟨.class_, .interface, hidGetReport, 0x0300 + id.toUInt16, ifInput⟩

theorem descriptors_report_answered :
    ∃ data, controlIn ps5 InputMap.neutral (Auth.State.init.report 0x31) (featureRequest 0x31) =
      some (.accepted data) :=
  (get_report_answered_iff (Or.inl rfl) InputMap.neutral Auth.State.init rfl).2.mpr
    ⟨rfl, .feature, rfl, by decide +kernel, by decide, fun h => absurd h (by decide)⟩

end WheelBridge
