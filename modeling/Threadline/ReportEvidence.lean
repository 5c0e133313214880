import Threadline.Completeness
import Threadline.PyExcept

/-!
# Evidence for a source report

The evaluation of a report from its data file and its manifest, each of which
becomes visible when it was received. How `repr` shows a batch ID is a parameter.
-/

open PyText PyCalendar PySorted PyExcept

namespace Threadline

/-- `[0-9a-f]{64}`. -/
def isSha256 (s : Text) : Bool :=
  s.length = 64 && s.all fun c => isDigit c || (97 ≤ c.val && c.val ≤ 102)

/-- Manifest accompanying one source report. -/
structure Manifest where
  batchId : Text
  sourceSystem : SourceSystem
  reportType : ReportType
  businessDate : Date
  schemaVersion : ℤ
  generatedAtUtc : UtcDateTime
  rowCount : ℤ
  sha256 : Text
  deriving DecidableEq

/-- Metadata observed after parsing one source data file. -/
structure DataFileEvidence where
  batchId : Text
  sourceSystem : SourceSystem
  reportType : ReportType
  businessDate : Date
  receivedAtUtc : UtcDateTime
  parsedRowCount : ℤ
  sha256 : Text
  canonicalId : batchId ≠ [] ∧ batchId = strip batchId
  nonNegative : 0 ≤ parsedRowCount
  hexDigest : isSha256 sha256

/-- Either a valid parsed manifest or a failed manifest observation. -/
structure ManifestEvidence where
  receivedAtUtc : UtcDateTime
  manifest : Option Manifest
  validationError : Option Text
  exactlyOne : manifest.isSome ≠ validationError.isSome
  errorText : ∀ error ∈ validationError, strip error ≠ []

/-- File and manifest observations for one expected report. -/
structure ReportEvidence where
  dataFile : Option DataFileEvidence
  manifest : Option ManifestEvidence

inductive EvaluationError
  | deadlineOverflow
  | assertion (message : Text)
  deriving DecidableEq

def visibleDataFile (evidence : ReportEvidence) (asOfUtc : UtcDateTime) :
    Option DataFileEvidence :=
  match evidence.dataFile with
  | none => none
  | some dataFile => if dataFile.receivedAtUtc > asOfUtc then none else some dataFile

def visibleManifest (evidence : ReportEvidence) (asOfUtc : UtcDateTime) :
    Option ManifestEvidence :=
  match evidence.manifest with
  | none => none
  | some manifest => if manifest.receivedAtUtc > asOfUtc then none else some manifest

def issueIf (problem : Prop) [Decidable problem] (code : CompletenessIssueCode) (message : Text) :
    List CompletenessIssue :=
  if problem then [⟨code, message⟩] else []

section Evaluation

variable (berlinToUtc : Date → ℕ → UtcDateTime) (reprText : Text → Text)

section Issues

variable (expectedSource : SourceSystem) (reportType : ReportType) (businessDate : Date)

/-- The comparisons of a manifest with what is expected of it. -/
def manifestIssues (receivedAtUtc : UtcDateTime) (manifest : Manifest) : List CompletenessIssue :=
  issueIf (manifest.sourceSystem ≠ expectedSource) .manifestSourceMismatch
      (txt "manifest source is " ++ manifest.sourceSystem.value ++ txt "; expected " ++
        expectedSource.value) ++
    issueIf (manifest.reportType ≠ reportType) .manifestReportTypeMismatch
      (txt "manifest report type is " ++ manifest.reportType.value ++ txt "; expected " ++
        reportType.value) ++
    issueIf (manifest.businessDate ≠ businessDate) .manifestBusinessDateMismatch
      (txt "manifest business date is " ++ manifest.businessDate.isoformat ++ txt "; expected " ++
        businessDate.isoformat) ++
    issueIf (manifest.generatedAtUtc > receivedAtUtc) .manifestGeneratedAfterReceipt
      (txt "manifest generated_at_utc is later than its receipt time")

/-- The comparisons of a data file with what is expected of it, and with its manifest. -/
def dataFileIssues (manifest : Manifest) (dataFile : DataFileEvidence) : List CompletenessIssue :=
  issueIf (dataFile.sourceSystem ≠ expectedSource) .dataSourceMismatch
      (txt "data-file source is " ++ dataFile.sourceSystem.value ++ txt "; expected " ++
        expectedSource.value) ++
    issueIf (dataFile.reportType ≠ reportType) .dataReportTypeMismatch
      (txt "data-file report type is " ++ dataFile.reportType.value ++ txt "; expected " ++
        reportType.value) ++
    issueIf (dataFile.businessDate ≠ businessDate) .dataBusinessDateMismatch
      (txt "data-file business date is " ++ dataFile.businessDate.isoformat ++
        txt "; expected " ++ businessDate.isoformat) ++
    issueIf (manifest.batchId ≠ dataFile.batchId) .batchIdMismatch
      (txt "manifest batch " ++ reprText manifest.batchId ++ txt " does not match data batch " ++
        reprText dataFile.batchId) ++
    issueIf (manifest.rowCount ≠ dataFile.parsedRowCount) .rowCountMismatch
      (txt "manifest declares " ++ intText manifest.rowCount ++ txt " rows; data file contains " ++
        intText dataFile.parsedRowCount) ++
    issueIf (manifest.sha256 ≠ dataFile.sha256) .checksumMismatch
      (txt "manifest checksum " ++ manifest.sha256 ++ txt " does not match data checksum " ++
        dataFile.sha256)

/-- `_collect_issues`, with its early returns. -/
def collectIssues (dataFile : Option DataFileEvidence) (manifestEvidence : Option ManifestEvidence) :
    Except EvaluationError (List CompletenessIssue) :=
  let missing := issueIf (dataFile.isNone) .dataFileMissing
    (txt "data file was not available by evaluation time")
  match manifestEvidence with
  | none =>
    .ok (missing ++ [⟨.manifestMissing, txt "manifest was not available by evaluation time"⟩])
  | some evidence =>
    match evidence.validationError, evidence.manifest with
    | some error, _ =>
      .ok (missing ++ [⟨.manifestInvalid, txt "manifest failed validation: " ++ error⟩])
    | none, none => .error (.assertion (txt "validated ManifestEvidence must contain a manifest"))
    | none, some manifest =>
      let issues := missing ++
        manifestIssues expectedSource reportType businessDate evidence.receivedAtUtc manifest
      match dataFile with
      | none => .ok issues
      | some dataFile =>
        .ok (issues ++
          dataFileIssues reprText expectedSource reportType businessDate manifest dataFile)

end Issues

/-- The batch that a status names: that of the manifest, or else that of the data file. -/
def statusBatchId (dataFile : Option DataFileEvidence)
    (manifestEvidence : Option ManifestEvidence) : Option Text :=
  match manifestEvidence.bind ManifestEvidence.manifest with
  | some manifest => some manifest.batchId
  | none => dataFile.map DataFileEvidence.batchId

/-- The status of a report with the given issues. -/
def reportResult (reportType : ReportType) (businessDate : Date) (asOfUtc deadlineAtUtc : UtcDateTime)
    (batchId : Option Text) (issues : List CompletenessIssue) : CompletenessResult where
  status := {
    sourceSystem := reportSource reportType
    reportType := reportType
    businessDate := businessDate
    state :=
      if issues = [] then .complete
      else if asOfUtc < deadlineAtUtc then .pending
      else .incomplete
    batchId := batchId
    reason :=
      if issues = [] then none
      else some ((txt "; ").intercalate (issues.map CompletenessIssue.message))
  }
  deadlineAtUtc := deadlineAtUtc
  issues := issues

/-- `evaluate_report`. -/
def evaluateReport (reportType : ReportType) (businessDate : Date) (asOfUtc : UtcDateTime)
    (evidence : Option ReportEvidence) : Except EvaluationError CompletenessResult :=
  match reportDeadlineUtc berlinToUtc businessDate reportType with
  | none => .error .deadlineOverflow
  | some deadlineAtUtc => do
    let evidence := evidence.getD ⟨none, none⟩
    let dataFile := visibleDataFile evidence asOfUtc
    let manifestEvidence := visibleManifest evidence asOfUtc
    let issues ← collectIssues reprText (reportSource reportType) reportType businessDate dataFile
      manifestEvidence
    .ok (reportResult reportType businessDate asOfUtc deadlineAtUtc
      (statusBatchId dataFile manifestEvidence) (sortedBy CompletenessIssue.sortKey issues))

end Evaluation

/-! ## Agreement -/

/-- A file and a manifest that are what is expected, and agree with each other. -/
structure EvidenceAgrees (reportType : ReportType) (businessDate : Date)
    (dataFile : DataFileEvidence) (manifestReceivedAt : UtcDateTime) (manifest : Manifest) :
    Prop where
  manifestSource : manifest.sourceSystem = reportSource reportType
  manifestType : manifest.reportType = reportType
  manifestDate : manifest.businessDate = businessDate
  generated : manifest.generatedAtUtc ≤ manifestReceivedAt
  dataSource : dataFile.sourceSystem = reportSource reportType
  dataType : dataFile.reportType = reportType
  dataDate : dataFile.businessDate = businessDate
  batchId : manifest.batchId = dataFile.batchId
  rowCount : manifest.rowCount = dataFile.parsedRowCount
  checksum : manifest.sha256 = dataFile.sha256

/-- Both observations have been received, the manifest is valid, and they agree. -/
def Corroborated (reportType : ReportType) (businessDate : Date) (asOfUtc : UtcDateTime)
    (evidence : ReportEvidence) : Prop :=
  ∃ dataFile manifestEvidence manifest, evidence.dataFile = some dataFile ∧
    evidence.manifest = some manifestEvidence ∧ manifestEvidence.manifest = some manifest ∧
    dataFile.receivedAtUtc ≤ asOfUtc ∧ manifestEvidence.receivedAtUtc ≤ asOfUtc ∧
    EvidenceAgrees reportType businessDate dataFile manifestEvidence.receivedAtUtc manifest

section

variable {reprText : Text → Text} {reportType : ReportType} {businessDate : Date}
  {asOfUtc : UtcDateTime} {evidence : ReportEvidence}

theorem issueIf_eq_nil {problem : Prop} [Decidable problem] {code : CompletenessIssueCode}
    {message : Text} : issueIf problem code message = [] ↔ ¬ problem := by
  unfold issueIf
  split_ifs with h <;> simp [h]

theorem manifestIssues_eq_nil {receivedAtUtc : UtcDateTime} {manifest : Manifest} :
    manifestIssues (reportSource reportType) reportType businessDate receivedAtUtc manifest = [] ↔
      manifest.sourceSystem = reportSource reportType ∧ manifest.reportType = reportType ∧
        manifest.businessDate = businessDate ∧ manifest.generatedAtUtc ≤ receivedAtUtc := by
  simp only [manifestIssues, List.append_eq_nil_iff, issueIf_eq_nil, ne_eq, not_not, gt_iff_lt,
    not_lt, and_assoc]

theorem dataFileIssues_eq_nil {manifest : Manifest} {dataFile : DataFileEvidence} :
    dataFileIssues reprText (reportSource reportType) reportType businessDate manifest dataFile =
        [] ↔
      dataFile.sourceSystem = reportSource reportType ∧ dataFile.reportType = reportType ∧
        dataFile.businessDate = businessDate ∧ manifest.batchId = dataFile.batchId ∧
        manifest.rowCount = dataFile.parsedRowCount ∧ manifest.sha256 = dataFile.sha256 := by
  simp only [dataFileIssues, List.append_eq_nil_iff, issueIf_eq_nil, ne_eq, not_not, and_assoc]

theorem ite_late_eq_some {α : Type} {received : UtcDateTime} {a b : α} :
    (if received > asOfUtc then none else some a) = some b ↔ a = b ∧ received ≤ asOfUtc := by
  split_ifs with hlate
  · exact iff_of_false nofun fun h => absurd h.2 (not_le_of_gt hlate)
  · rw [Option.some.injEq]
    exact ⟨fun h => ⟨h, not_lt.mp hlate⟩, fun h => h.1⟩

theorem visibleDataFile_eq_some {dataFile : DataFileEvidence} :
    visibleDataFile evidence asOfUtc = some dataFile ↔
      evidence.dataFile = some dataFile ∧ dataFile.receivedAtUtc ≤ asOfUtc := by
  unfold visibleDataFile
  cases hfound : evidence.dataFile with
  | none => simp
  | some found =>
    dsimp only
    rw [ite_late_eq_some, Option.some.injEq]
    apply and_congr_right
    intro heq
    rw [heq]

theorem visibleManifest_eq_some {manifestEvidence : ManifestEvidence} :
    visibleManifest evidence asOfUtc = some manifestEvidence ↔
      evidence.manifest = some manifestEvidence ∧ manifestEvidence.receivedAtUtc ≤ asOfUtc := by
  unfold visibleManifest
  cases hfound : evidence.manifest with
  | none => simp
  | some found =>
    dsimp only
    rw [ite_late_eq_some, Option.some.injEq]
    apply and_congr_right
    intro heq
    rw [heq]

variable (reprText reportType businessDate) in
/-- The collection does not fail, and finds no issue exactly in agreeing evidence. -/
theorem collectIssues_returns (dataFile : Option DataFileEvidence)
    (manifestEvidence : Option ManifestEvidence) :
    ∃ issues, collectIssues reprText (reportSource reportType) reportType businessDate dataFile
        manifestEvidence = .ok issues ∧
      (issues = [] ↔ ∃ d m manifest, dataFile = some d ∧ manifestEvidence = some m ∧
        m.manifest = some manifest ∧
        EvidenceAgrees reportType businessDate d m.receivedAtUtc manifest) := by
  unfold collectIssues
  cases manifestEvidence with
  | none => exact ⟨_, rfl, by simp⟩
  | some m =>
    dsimp only
    have hone := m.exactlyOne
    cases herror : m.validationError with
    | some error =>
      have hmanifest : m.manifest = none := by
        rw [herror] at hone
        simpa using hone
      refine ⟨_, rfl, ?_⟩
      simp [hmanifest]
    | none =>
      cases hmanifest : m.manifest with
      | none =>
        rw [herror, hmanifest] at hone
        exact absurd rfl hone
      | some manifest =>
        cases dataFile with
        | none =>
          refine ⟨_, rfl, ?_⟩
          simp [issueIf]
        | some d =>
          refine ⟨_, rfl, ?_⟩
          rw [List.append_eq_nil_iff, List.append_eq_nil_iff, issueIf_eq_nil,
            manifestIssues_eq_nil, dataFileIssues_eq_nil]
          constructor
          · intro ⟨⟨_, hsource, htype, hdate, hgenerated⟩, hdata⟩
            obtain ⟨hdataSource, hdataType, hdataDate, hid, hrows, hsum⟩ := hdata
            exact ⟨d, m, manifest, rfl, rfl, hmanifest, hsource, htype, hdate, hgenerated,
              hdataSource, hdataType, hdataDate, hid, hrows, hsum⟩
          · intro ⟨file, observed, declared, hfile, hobserved, hdeclared, hagrees⟩
            rw [← Option.some.inj hfile, ← Option.some.inj hobserved] at hagrees
            rw [← Option.some.inj hobserved, hmanifest] at hdeclared
            rw [← Option.some.inj hdeclared] at hagrees
            exact ⟨⟨by simp, hagrees.manifestSource, hagrees.manifestType, hagrees.manifestDate,
              hagrees.generated⟩, hagrees.dataSource, hagrees.dataType, hagrees.dataDate,
              hagrees.batchId, hagrees.rowCount, hagrees.checksum⟩

theorem sortedBy_eq_nil {issues : List CompletenessIssue} :
    sortedBy CompletenessIssue.sortKey issues = [] ↔ issues = [] := by
  rw [← List.length_eq_zero_iff, sortedBy_length, List.length_eq_zero_iff]

variable (reprText) in
/-- One evaluation: it returns, and its state is decided by agreement and the deadline. -/
theorem evaluateReport_returns {berlinToUtc : Date → ℕ → UtcDateTime} {deadlineAtUtc : UtcDateTime}
    (hdeadline : reportDeadlineUtc berlinToUtc businessDate reportType = some deadlineAtUtc)
    (evidence : Option ReportEvidence) (asOfUtc : UtcDateTime) :
    ∃ batchId issues, evaluateReport berlinToUtc reprText reportType businessDate asOfUtc evidence =
        .ok (reportResult reportType businessDate asOfUtc deadlineAtUtc batchId issues) ∧
      (issues = [] ↔
        Corroborated reportType businessDate asOfUtc (evidence.getD ⟨none, none⟩)) := by
  obtain ⟨issues, hissues, hnil⟩ := collectIssues_returns reprText reportType businessDate
    (visibleDataFile (evidence.getD ⟨none, none⟩) asOfUtc)
    (visibleManifest (evidence.getD ⟨none, none⟩) asOfUtc)
  refine ⟨statusBatchId (visibleDataFile (evidence.getD ⟨none, none⟩) asOfUtc)
    (visibleManifest (evidence.getD ⟨none, none⟩) asOfUtc),
    sortedBy CompletenessIssue.sortKey issues, ?_, ?_⟩
  · unfold evaluateReport
    rw [hdeadline]
    dsimp only
    rw [hissues]
    rfl
  · rw [sortedBy_eq_nil, hnil]
    constructor
    · intro ⟨d, m, manifest, hd, hm, hmanifest, hagrees⟩
      obtain ⟨hfile, hfileTime⟩ := visibleDataFile_eq_some.mp hd
      obtain ⟨hobserved, hobservedTime⟩ := visibleManifest_eq_some.mp hm
      exact ⟨d, m, manifest, hfile, hobserved, hmanifest, hfileTime, hobservedTime, hagrees⟩
    · intro ⟨d, m, manifest, hfile, hobserved, hmanifest, hfileTime, hobservedTime, hagrees⟩
      exact ⟨d, m, manifest, visibleDataFile_eq_some.mpr ⟨hfile, hfileTime⟩,
        visibleManifest_eq_some.mpr ⟨hobserved, hobservedTime⟩, hmanifest, hagrees⟩

theorem Corroborated.later {later : UtcDateTime} (hle : asOfUtc ≤ later)
    (h : Corroborated reportType businessDate asOfUtc evidence) :
    Corroborated reportType businessDate later evidence := by
  obtain ⟨d, m, manifest, hfile, hobserved, hmanifest, hfileTime, hobservedTime, hagrees⟩ := h
  exact ⟨d, m, manifest, hfile, hobserved, hmanifest, hfileTime.trans hle,
    hobservedTime.trans hle, hagrees⟩

end

/-! ## Evolution -/

/-- The order in which the states of a report may follow each other. -/
def stage : SourceCompleteness → ℕ
  | .pending => 0
  | .incomplete => 1
  | .complete => 2

/-- States whose stages do not fall are pending, then incomplete, then complete. -/
theorem stages_in_order {states : List SourceCompleteness}
    (h : states.Pairwise fun a b => stage a ≤ stage b) :
    ∃ p i c, states = List.replicate p .pending ++
      (List.replicate i .incomplete ++ List.replicate c .complete) := by
  induction states with
  | nil => exact ⟨0, 0, 0, rfl⟩
  | cons state states ih =>
    obtain ⟨hfirst, hrest⟩ := List.pairwise_cons.mp h
    obtain ⟨p, i, c, hstates⟩ := ih hrest
    -- A later state of a smaller stage would be behind the first.
    have hpending : 0 < stage state → p = 0 := by
      intro hstage
      by_contra hp
      have hle := hfirst .pending (by
        rw [hstates]
        exact List.mem_append_left _ (List.mem_replicate.mpr ⟨hp, rfl⟩))
      exact absurd hle (not_le_of_gt hstage)
    have hincomplete : 1 < stage state → i = 0 := by
      intro hstage
      by_contra hi
      have hle := hfirst .incomplete (by
        rw [hstates]
        exact List.mem_append_right _ (List.mem_append_left _ (List.mem_replicate.mpr ⟨hi, rfl⟩)))
      exact absurd hle (not_le_of_gt hstage)
    cases state with
    | pending => exact ⟨p + 1, i, c, by rw [hstates]; rfl⟩
    | incomplete =>
      rw [hpending (by decide)] at hstates
      exact ⟨0, i + 1, c, by rw [hstates]; rfl⟩
    | complete =>
      rw [hpending (by decide), hincomplete (by decide)] at hstates
      exact ⟨0, 0, c + 1, by rw [hstates]; rfl⟩

/-- How the evaluations of fixed evidence evolve. -/
structure Evolves (reportType : ReportType) (businessDate : Date) (evidence : ReportEvidence)
    (deadlineAtUtc : UtcDateTime) (state : UtcDateTime → SourceCompleteness) : Prop where
  complete_iff : ∀ t, state t = .complete ↔ Corroborated reportType businessDate t evidence
  stays : ∀ t later, t ≤ later → state t = .complete → state later = .complete
  pending : ∀ t, state t = .pending → t < deadlineAtUtc
  incomplete : ∀ t, state t = .incomplete → deadlineAtUtc ≤ t
  inOrder : ∀ times : List UtcDateTime, times.Pairwise (· ≤ ·) →
    ∃ p i c, times.map state = List.replicate p .pending ++
      (List.replicate i .incomplete ++ List.replicate c .complete)

/-- The state that the deadline and agreement decide. -/
theorem evolves_of_decided {reportType : ReportType} {businessDate : Date}
    {evidence : ReportEvidence} {deadlineAtUtc : UtcDateTime}
    {state : UtcDateTime → SourceCompleteness}
    (hcomplete : ∀ t, state t = .complete ↔ Corroborated reportType businessDate t evidence)
    (hopen : ∀ t, ¬ Corroborated reportType businessDate t evidence →
      state t = if t < deadlineAtUtc then .pending else .incomplete) :
    Evolves reportType businessDate evidence deadlineAtUtc state := by
  have hstays : ∀ t later, t ≤ later → state t = .complete → state later = .complete :=
    fun t later hle h => (hcomplete later).mpr (((hcomplete t).mp h).later hle)
  have hpending : ∀ t, state t = .pending → t < deadlineAtUtc := by
    intro t h
    have hnot : ¬ Corroborated reportType businessDate t evidence := fun hc => by
      rw [(hcomplete t).mpr hc] at h
      cases h
    by_contra hlate
    rw [hopen t hnot, if_neg hlate] at h
    cases h
  have hincomplete : ∀ t, state t = .incomplete → deadlineAtUtc ≤ t := by
    intro t h
    have hnot : ¬ Corroborated reportType businessDate t evidence := fun hc => by
      rw [(hcomplete t).mpr hc] at h
      cases h
    by_contra hearly
    rw [hopen t hnot, if_pos (not_le.mp hearly)] at h
    cases h
  refine ⟨hcomplete, hstays, hpending, hincomplete, fun times hsorted => ?_⟩
  apply stages_in_order
  rw [List.pairwise_map]
  apply hsorted.imp
  intro t later hle
  cases hfirst : state t with
  | pending => exact Nat.zero_le _
  | incomplete =>
    cases hlast : state later with
    | pending =>
      have hearly := hpending later hlast
      exact absurd (hle.trans_lt hearly) (not_lt_of_ge (hincomplete t hfirst))
    | incomplete => exact le_rfl
    | complete => decide
  | complete =>
    rw [hstays t later hle hfirst]

/-- The state of a report evolves in one direction. Its evaluation always returns, is complete once
both observations are in and agree, and is pending only before and incomplete only from the
deadline on. -/
theorem report_state_evolves (berlinToUtc : Date → ℕ → UtcDateTime) (reprText : Text → Text)
    (reportType : ReportType) (businessDate : Date) (hday : businessDate ≠ Date.last)
    (evidence : Option ReportEvidence) :
    ∃ deadlineAtUtc, reportDeadlineUtc berlinToUtc businessDate reportType = some deadlineAtUtc ∧
      ∃ evaluate : UtcDateTime → CompletenessResult,
        (∀ t, evaluateReport berlinToUtc reprText reportType businessDate t evidence =
          .ok (evaluate t)) ∧
        Evolves reportType businessDate (evidence.getD ⟨none, none⟩) deadlineAtUtc
          fun t => (evaluate t).status.state := by
  obtain ⟨nextDay, hnext⟩ := Option.isSome_iff_exists.mp (Date.next?_isSome.mpr hday)
  have hdeadline : reportDeadlineUtc berlinToUtc businessDate reportType =
      some (berlinToUtc nextDay (reportDeadline reportType)) := by
    rw [reportDeadlineUtc, hnext]
    rfl
  have hreturns := evaluateReport_returns reprText hdeadline evidence
  choose batchId issues hevaluate hagrees using hreturns
  refine ⟨_, hdeadline, _, hevaluate, ?_⟩
  apply evolves_of_decided
  · intro t
    rw [← hagrees t]
    show (if issues t = [] then SourceCompleteness.complete
      else if t < _ then .pending else .incomplete) = .complete ↔ issues t = []
    split_ifs with hnil hearly <;> simp [hnil]
  · intro t hnot
    show (if issues t = [] then SourceCompleteness.complete
      else if t < _ then .pending else .incomplete) = _
    rw [if_neg (fun h => hnot ((hagrees t).mp h))]

/-- Without evidence a report is evaluated as a missing one. -/
theorem evaluateReport_none (berlinToUtc : Date → ℕ → UtcDateTime) (reprText : Text → Text)
    (reportType : ReportType) (businessDate : Date) (asOfUtc : UtcDateTime) :
    evaluateReport berlinToUtc reprText reportType businessDate asOfUtc none =
      match evaluateMissingReport berlinToUtc reportType businessDate asOfUtc with
      | some result => .ok result
      | none => .error .deadlineOverflow := by
  have hsorted : sortedBy CompletenessIssue.sortKey missingReportIssues = missingReportIssues := by
    decide +kernel
  have hne : missingReportIssues ≠ [] := List.cons_ne_nil _ _
  unfold evaluateReport evaluateMissingReport
  cases hdeadline : reportDeadlineUtc berlinToUtc businessDate reportType with
  | none => rfl
  | some deadlineAtUtc =>
    show Except.ok (reportResult reportType businessDate asOfUtc deadlineAtUtc none
      (sortedBy CompletenessIssue.sortKey missingReportIssues)) = _
    rw [hsorted, reportResult, if_neg hne, if_neg hne]
    rfl

namespace FeesReport

theorem day_valid : (Date.ofYmd? 2026 9 14).isSome := rfl

theorem nextDay_valid : (Date.ofYmd? 2026 9 15).isSome := rfl

/-- The fees of 14 September 2026. -/
def day : Date := (Date.ofYmd? 2026 9 14).get day_valid

/-- So many minutes of the next day, in UTC. -/
def minute (n : Fin 1440) : UtcDateTime where
  date := (Date.ofYmd? 2026 9 15).get nextDay_valid
  micros := ⟨n.val * 60000000, by omega⟩

/-- Berlin in summer. -/
def berlinToUtc (day : Date) (hour : ℕ) : UtcDateTime :=
  ⟨day, ⟨(hour - 2) * 3600000000 % 86400000000, Nat.mod_lt _ (by decide)⟩⟩

def checksum : Text := List.replicate 64 (ofChar 'a')

/-- The data file arrives at 09:00, one hour before the deadline. -/
def dataFile : DataFileEvidence where
  batchId := txt "BATCH-1"
  sourceSystem := .mockpay
  reportType := .fees
  businessDate := day
  receivedAtUtc := minute 540
  parsedRowCount := 1
  sha256 := checksum
  canonicalId := by decide +kernel
  nonNegative := by decide
  hexDigest := by decide +kernel

/-- The manifest arrives half an hour after it. -/
def manifest : ManifestEvidence where
  receivedAtUtc := minute 630
  manifest := some ⟨txt "BATCH-1", .mockpay, .fees, day, 1, minute 620, 1, checksum⟩
  validationError := none
  exactlyOne := by decide
  errorText := nofun

def evidence : ReportEvidence := ⟨some dataFile, some manifest⟩

theorem fees_report_evolves :
    ∃ deadlineAtUtc, reportDeadlineUtc berlinToUtc day .fees = some deadlineAtUtc ∧
      ∃ evaluate : UtcDateTime → CompletenessResult,
        (∀ t, evaluateReport berlinToUtc id .fees day t (some evidence) = .ok (evaluate t)) ∧
        Evolves .fees day evidence deadlineAtUtc fun t => (evaluate t).status.state :=
  report_state_evolves berlinToUtc id .fees day (by decide) (some evidence)

example : ([570, 600, 630].map fun n =>
    (evaluateReport berlinToUtc id .fees day (minute n) (some evidence)).map fun result =>
      result.status.state) = [.ok .pending, .ok .incomplete, .ok .complete] := by
  decide +kernel

end FeesReport

end Threadline
