import Threadline.AffectedWindows
import Threadline.LateData

/-!
# Late-data decisions

A receipt is classified relative to a published run by what changed, when it was
received, and the dates that the old and the new version affect. A date that is
not known counts as one that the run covers.
-/

open PyText PyCalendar PySorted PyExcept

namespace Threadline

inductive LateDataClassification
  | withinWatermark | noLogicalChange | futureImpact | lateNewFact | lateCorrection | lateConflict
  | unresolvedImpact
  deriving DecidableEq

namespace LateDataClassification

def isLate : LateDataClassification → Bool
  | .lateNewFact | .lateCorrection | .lateConflict => true
  | _ => false

def requiresReprocessing (classification : LateDataClassification) : Bool :=
  classification.isLate || classification = .unresolvedImpact

end LateDataClassification

/-- Coverage of an already published reconciliation run. -/
structure ReconciliationBoundary where
  runId : Text
  inputWatermarkUtc : UtcDateTime
  coveredThroughDate : Date
  canonicalRunId : runId ≠ [] ∧ runId = strip runId

inductive LateDataError
  | dateOverflow
  | value (message : Text)
  deriving DecidableEq

structure LateDataCandidate where
  receiptId : Text
  entityType : EntityType
  sourceId : Text
  sourceVersion : ℤ
  receivedAtUtc : UtcDateTime
  changeKind : ChangeKind
  affectedDates : List Date
  unresolvedReason : Option Text
  receiptId_nonempty : receiptId ≠ []
  sourceId_nonempty : sourceId ≠ []
  sourceVersion_pos : 0 < sourceVersion
  ordered : affectedDates.Pairwise (· < ·)

/-- `LateDataCandidate(...)`. -/
def LateDataCandidate.make? (receiptId : Text) (entityType : EntityType) (sourceId : Text)
    (sourceVersion : ℤ) (receivedAtUtc : UtcDateTime) (changeKind : ChangeKind)
    (affectedDates : List Date) (unresolvedReason : Option Text) :
    Except LateDataError LateDataCandidate :=
  if receiptId_nonempty : receiptId ≠ [] then
    if sourceId_nonempty : sourceId ≠ [] then
      if sourceVersion_pos : 0 < sourceVersion then
        .ok { receiptId, entityType, sourceId, sourceVersion, receivedAtUtc, changeKind,
              affectedDates := sortedSet affectedDates
              unresolvedReason, receiptId_nonempty, sourceId_nonempty, sourceVersion_pos
              ordered := sortedSet_pairwise affectedDates }
      else .error (.value (txt "source_version must be positive"))
    else .error (.value (txt "source_id must not be empty"))
  else .error (.value (txt "receipt_id must not be empty"))

/-- The versions that a candidate compares: the old one, if there is one, and the new one. -/
def comparedRecords (incoming : FinancialRecord) (previous : Option FinancialRecord) :
    List FinancialRecord :=
  previous.toList ++ [incoming]

/-- The reasons that the resolutions give, joined into one text. -/
def joinedReasons (resolutions : List ImpactResolution) : Option Text :=
  let reasons := (resolutions.filterMap ImpactResolution.unresolvedReason).filter (· ≠ [])
  if reasons = [] then none else some ((txt "; ").intercalate (sortedSet reasons))

/-- `build_late_data_candidate`. -/
def buildLateDataCandidate (zone : Zone) (receiptId : Text) (receivedAtUtc : UtcDateTime)
    (changeKind : ChangeKind) (incoming : FinancialRecord) (previous : Option FinancialRecord)
    (context : ImpactContext) : Except LateDataError LateDataCandidate :=
  match (comparedRecords incoming previous).mapM fun record =>
      resolveRecordImpact zone record context with
  | none => .error .dateOverflow
  | some resolutions =>
    LateDataCandidate.make? receiptId incoming.entityType incoming.recordId incoming.sourceVersion
      receivedAtUtc changeKind (resolutions.flatMap ImpactResolution.affectedDates)
      (joinedReasons resolutions)

structure LateDataDecision where
  receiptId : Text
  entityType : EntityType
  sourceId : Text
  sourceVersion : ℤ
  classification : LateDataClassification
  changeKind : ChangeKind
  receivedAtUtc : UtcDateTime
  inputWatermarkUtc : UtcDateTime
  coveredThroughDate : Date
  affectedDates : List Date
  historicalAffectedDates : List Date
  unresolvedReason : Option Text

def ChangeKind.value : ChangeKind → Text
  | .newFact => txt "NEW_FACT"
  | .higherVersionCorrection => txt "HIGHER_VERSION_CORRECTION"
  | .sameVersionConflict => txt "SAME_VERSION_CONFLICT"
  | .exactDuplicate => txt "EXACT_DUPLICATE"
  | .staleVersion => txt "STALE_VERSION"

namespace LateDataCandidate

variable (candidate : LateDataCandidate) (boundary : ReconciliationBoundary)

def historicalDates : List Date :=
  candidate.affectedDates.filter (· ≤ boundary.coveredThroughDate)

/-- The branches of `classify_late_data`. -/
def classification : Except LateDataError LateDataClassification :=
  if candidate.changeKind = .exactDuplicate ∨ candidate.changeKind = .staleVersion then
    .ok .noLogicalChange
  else if candidate.receivedAtUtc ≤ boundary.inputWatermarkUtc then .ok .withinWatermark
  else if candidate.unresolvedReason.any (· ≠ []) then .ok .unresolvedImpact
  else if candidate.historicalDates boundary = [] then .ok .futureImpact
  else
    match candidate.changeKind with
    | .newFact => .ok .lateNewFact
    | .higherVersionCorrection => .ok .lateCorrection
    | .sameVersionConflict => .ok .lateConflict
    | kind => .error (.value (txt "unsupported logical change kind: " ++ kind.value))

end LateDataCandidate

/-- `classify_late_data`. -/
def classifyLateData (candidate : LateDataCandidate) (boundary : ReconciliationBoundary) :
    Except LateDataError LateDataDecision := do
  let classification ← candidate.classification boundary
  pure {
    receiptId := candidate.receiptId
    entityType := candidate.entityType
    sourceId := candidate.sourceId
    sourceVersion := candidate.sourceVersion
    classification := classification
    changeKind := candidate.changeKind
    receivedAtUtc := candidate.receivedAtUtc
    inputWatermarkUtc := boundary.inputWatermarkUtc
    coveredThroughDate := boundary.coveredThroughDate
    affectedDates := candidate.affectedDates
    historicalAffectedDates := candidate.historicalDates boundary
    unresolvedReason := candidate.unresolvedReason
  }

/-! ## What a decision depends on -/

/-- The change adds, replaces or contradicts a version. -/
def ChangeKind.IsLogical : ChangeKind → Prop
  | .newFact | .higherVersionCorrection | .sameVersionConflict => True
  | .exactDuplicate | .staleVersion => False

/-- The date of the record is not known. -/
def Undated (zone : Zone) (context : ImpactContext) (record : FinancialRecord) : Prop :=
  ∃ reason, resolveRecordImpact zone record context = some (.unresolved reason)

/-- The record affects this day. -/
def DatedOn (zone : Zone) (context : ImpactContext) (record : FinancialRecord) (day : Date) : Prop :=
  resolveRecordImpact zone record context = some (.onDay day)

theorem dated_or_undated (found : Option Date) (reason : Text) {resolution : Option ImpactResolution}
    (hreason : reason ≠ []) (hnone : found = none → resolution = some (.unresolved reason))
    (hsome : ∀ day, found = some day → resolution = some (.onDay day)) :
    (∃ day, resolution = some (.onDay day)) ∨
      ∃ reason, reason ≠ [] ∧ resolution = some (.unresolved reason) := by
  cases hfound : found with
  | none => exact .inr ⟨reason, hreason, hnone hfound⟩
  | some day => exact .inl ⟨day, hsome day hfound⟩

/-- Every record has one date, or a reason why it has none. -/
theorem resolveRecordImpact_cases (zone : Zone) (context : ImpactContext)
    (record : FinancialRecord) :
    (∃ day, resolveRecordImpact zone record context = some (.onDay day)) ∨
      ∃ reason, reason ≠ [] ∧
        resolveRecordImpact zone record context = some (.unresolved reason) := by
  cases record with
  | order r => exact .inr ⟨txt "ORDER has no effective_at_utc", by decide, rfl⟩
  | payment r =>
    apply dated_or_undated r.availableOn (EntityType.payment.value ++ txt " has no available_on date")
    · decide
    · intro h
      simp [resolveRecordImpact, FinancialRecord.entityType, FinancialRecord.availableOn?, h]
    · intro day h
      simp [resolveRecordImpact, FinancialRecord.entityType, FinancialRecord.availableOn?, h]
  | refund r =>
    apply dated_or_undated r.availableOn (EntityType.refund.value ++ txt " has no available_on date")
    · decide
    · intro h
      simp [resolveRecordImpact, FinancialRecord.entityType, FinancialRecord.availableOn?, h]
    · intro day h
      simp [resolveRecordImpact, FinancialRecord.entityType, FinancialRecord.availableOn?, h]
  | fee r =>
    apply dated_or_undated (lookUpDate context.paymentAvailableOn (some r.paymentId))
      (txt "FEE requires the parent payment's available_on date")
    · decide
    · intro h
      simp [resolveRecordImpact, FinancialRecord.entityType, FinancialRecord.paymentId?, h]
    · intro day h
      simp [resolveRecordImpact, FinancialRecord.entityType, FinancialRecord.paymentId?, h]
  | settlementLine r =>
    apply dated_or_undated (lookUpDate context.payoutDates (some r.payoutId))
      (txt "SETTLEMENT_LINE requires its payout date")
    · decide
    · intro h
      simp [resolveRecordImpact, FinancialRecord.entityType, FinancialRecord.payoutId?, h]
    · intro day h
      simp [resolveRecordImpact, FinancialRecord.entityType, FinancialRecord.payoutId?, h]
  | payout r => exact .inl ⟨r.payoutDate, rfl⟩

section Candidates

variable {zone : Zone} {context : ImpactContext} {records : List FinancialRecord}
  {resolutions : List ImpactResolution}

/-- The days on which the records affect what a run publishes. -/
theorem mem_affectedDates (h : records.mapM (fun record => resolveRecordImpact zone record context) =
    some resolutions) {day : Date} :
    day ∈ resolutions.flatMap ImpactResolution.affectedDates ↔
      ∃ record ∈ records, DatedOn zone context record day := by
  rw [List.mem_flatMap]
  constructor
  · intro ⟨resolution, hmem, hday⟩
    obtain ⟨record, hrecord, hresolve⟩ := (mem_of_mapM_eq_some h).mp hmem
    refine ⟨record, hrecord, ?_⟩
    obtain ⟨found, hfound⟩ | ⟨reason, -, hreason⟩ := resolveRecordImpact_cases zone context record
    · have hsame := Option.some.inj (hresolve.symm.trans hfound)
      rw [hsame, mem_onDay] at hday
      rw [DatedOn, hfound, hday]
    · have hsame := Option.some.inj (hresolve.symm.trans hreason)
      rw [hsame, ImpactResolution.unresolved, mem_sortedSet] at hday
      exact absurd hday List.not_mem_nil
  · intro ⟨record, hrecord, hdated⟩
    obtain ⟨resolution, hmem, hresolve⟩ := exists_of_mapM_eq_some h hrecord
    refine ⟨resolution, hmem, ?_⟩
    rw [← Option.some.inj (hdated.symm.trans hresolve)]
    exact mem_onDay.mpr rfl

theorem joined_ne_nil (sep : Text) {texts : List Text} (hne : texts ≠ [])
    (htexts : ∀ text ∈ texts, text ≠ []) : sep.intercalate texts ≠ [] := by
  cases texts with
  | nil => exact absurd rfl hne
  | cons text rest =>
    have htext : text ≠ [] := htexts text List.mem_cons_self
    cases rest with
    | nil => simpa [List.intercalate] using htext
    | cons next rest => simp [List.intercalate, htext]

/-- A reason is joined when a record has no date. -/
theorem joinedReasons_any (h : records.mapM (fun record => resolveRecordImpact zone record context) =
    some resolutions) :
    (joinedReasons resolutions).any (· ≠ []) ↔ ∃ record ∈ records, Undated zone context record := by
  -- The joined texts are the reasons of the records without a date.
  have hreasons : ∀ reason, reason ∈ (resolutions.filterMap ImpactResolution.unresolvedReason).filter
      (· ≠ []) ↔ reason ≠ [] ∧ ∃ record ∈ records,
        resolveRecordImpact zone record context = some (.unresolved reason) := by
    intro reason
    rw [List.mem_filter, List.mem_filterMap, decide_eq_true_eq, and_comm]
    apply and_congr_right
    intro _
    constructor
    · intro ⟨resolution, hmem, hreason⟩
      obtain ⟨record, hrecord, hresolve⟩ := (mem_of_mapM_eq_some h).mp hmem
      refine ⟨record, hrecord, ?_⟩
      obtain ⟨found, hfound⟩ | ⟨reason', -, hundated⟩ := resolveRecordImpact_cases zone context record
      · rw [Option.some.inj (hresolve.symm.trans hfound)] at hreason
        cases hreason
      · rw [Option.some.inj (hresolve.symm.trans hundated)] at hreason
        rw [hundated, Option.some.inj hreason]
    · intro ⟨record, hrecord, hundated⟩
      obtain ⟨resolution, hmem, hresolve⟩ := exists_of_mapM_eq_some h hrecord
      refine ⟨resolution, hmem, ?_⟩
      rw [← Option.some.inj (hundated.symm.trans hresolve)]
      rfl
  unfold joinedReasons
  generalize (resolutions.filterMap ImpactResolution.unresolvedReason).filter (· ≠ []) = reasons
    at hreasons
  dsimp only
  split_ifs with hnil
  · refine iff_of_false (by simp) ?_
    intro ⟨record, hrecord, hundated⟩
    obtain ⟨found, hfound⟩ | ⟨reason, hne, hreason⟩ := resolveRecordImpact_cases zone context record
    · obtain ⟨reason, hreason⟩ := hundated
      cases hfound.symm.trans hreason
    · have hmem := (hreasons reason).mpr ⟨hne, record, hrecord, hreason⟩
      rw [hnil] at hmem
      cases hmem
  · refine iff_of_true ?_ ?_
    · have hne : sortedSet reasons ≠ [] := fun h => hnil (sortedSet_eq_nil.mp h)
      have hjoined := joined_ne_nil (txt "; ") hne fun text htext =>
        ((hreasons text).mp (mem_sortedSet.mp htext)).1
      simpa using hjoined
    · obtain ⟨reason, hmem⟩ := List.exists_mem_of_ne_nil _ hnil
      obtain ⟨-, record, hrecord, hundated⟩ := (hreasons reason).mp hmem
      exact ⟨record, hrecord, reason, hundated⟩

end Candidates

/-! ## Decisions -/

/-- What a decision says about the versions of a record. -/
structure LateDataDecision.DecidesOn (decision : LateDataDecision) (zone : Zone)
    (context : ImpactContext) (versions : List FinancialRecord) (receivedAtUtc : UtcDateTime)
    (changeKind : ChangeKind) (boundary : ReconciliationBoundary) : Prop where
  historical : ∀ day, day ∈ decision.historicalAffectedDates ↔
    day ≤ boundary.coveredThroughDate ∧ ∃ record ∈ versions, DatedOn zone context record day
  ordered : decision.historicalAffectedDates.Pairwise (· < ·)
  late : decision.classification.isLate ↔
    changeKind.IsLogical ∧ boundary.inputWatermarkUtc < receivedAtUtc ∧
      (∀ record ∈ versions, ¬ Undated zone context record) ∧
      ∃ record ∈ versions, ∃ day ≤ boundary.coveredThroughDate, DatedOn zone context record day
  reprocessed : decision.classification.requiresReprocessing ↔
    changeKind.IsLogical ∧ boundary.inputWatermarkUtc < receivedAtUtc ∧
      ∃ record ∈ versions, Undated zone context record ∨
        ∃ day ≤ boundary.coveredThroughDate, DatedOn zone context record day

theorem candidate_eq_ok {receiptId : Text} {entityType : EntityType} {sourceId : Text}
    {sourceVersion : ℤ} {receivedAtUtc : UtcDateTime} {changeKind : ChangeKind}
    {affectedDates : List Date} {unresolvedReason : Option Text} {candidate : LateDataCandidate}
    (h : LateDataCandidate.make? receiptId entityType sourceId sourceVersion receivedAtUtc changeKind
      affectedDates unresolvedReason = .ok candidate) :
    candidate.receivedAtUtc = receivedAtUtc ∧ candidate.changeKind = changeKind ∧
      candidate.affectedDates = sortedSet affectedDates ∧
      candidate.unresolvedReason = unresolvedReason := by
  unfold LateDataCandidate.make? at h
  split_ifs at h
  obtain rfl := Except.ok.inj h
  exact ⟨rfl, rfl, rfl, rfl⟩

/-- The error for an unknown kind of change is never raised. -/
theorem classification_spec (candidate : LateDataCandidate) (boundary : ReconciliationBoundary) :
    ∃ classification, candidate.classification boundary = .ok classification ∧
      (classification.isLate ↔ candidate.changeKind.IsLogical ∧
        boundary.inputWatermarkUtc < candidate.receivedAtUtc ∧
        ¬ candidate.unresolvedReason.any (· ≠ []) ∧ candidate.historicalDates boundary ≠ []) ∧
      (classification.requiresReprocessing ↔ candidate.changeKind.IsLogical ∧
        boundary.inputWatermarkUtc < candidate.receivedAtUtc ∧
        (candidate.unresolvedReason.any (· ≠ []) ∨ candidate.historicalDates boundary ≠ [])) := by
  unfold LateDataCandidate.classification
  generalize candidate.unresolvedReason.any (· ≠ []) = unresolved
  cases hkind : candidate.changeKind <;>
    simp only [reduceCtorEq, or_false, or_true, if_true, if_false]
  case exactDuplicate | staleVersion => exact ⟨_, rfl, by simp [ChangeKind.IsLogical,
    LateDataClassification.requiresReprocessing, LateDataClassification.isLate]⟩
  all_goals
    split_ifs with hwatermark hreason hdates
    · exact ⟨_, rfl, by simp [LateDataClassification.requiresReprocessing,
        LateDataClassification.isLate, not_lt.mpr hwatermark]⟩
    · exact ⟨_, rfl, by simp [LateDataClassification.requiresReprocessing,
        LateDataClassification.isLate, ChangeKind.IsLogical, not_le.mp hwatermark, hreason]⟩
    · exact ⟨_, rfl, by simp [LateDataClassification.requiresReprocessing,
        LateDataClassification.isLate, hreason, hdates]⟩
    · exact ⟨_, rfl, by simp [LateDataClassification.requiresReprocessing,
        LateDataClassification.isLate, ChangeKind.IsLogical, not_le.mp hwatermark, hreason, hdates]⟩

/-- The days on which a run uses a record that has effect are those that it affects. -/
theorem datedOn_of_used (zone : Zone) {iso : IsoParsers} {runId : Text} {detectedAt : UtcDateTime}
    {canonicalization : CanonicalizationResult} {completenessResults : List CompletenessResult}
    {quarantineRecords : List QuarantinedRecord} {result : ReconciliationResult}
    (h : reconcile runId detectedAt canonicalization completenessResults quarantineRecords =
      .ok result)
    (hparsed : ∀ r ∈ canonicalization.canonicalRecords, Parsed iso r) {record : FinancialRecord}
    (hrecord : record ∈ canonicalization.canonicalRecords) (heffect : record.HasEffect)
    {context : ImpactContext} (hknows : context.Knows canonicalization.canonicalRecords record)
    {day : Date} (hused : UsedOn result record day) : DatedOn zone context record day := by
  have horder : record.entityType ≠ .order := by
    cases record with
    | order r => exact absurd hused id
    | _ => nofun
  obtain ⟨impact, himpact, hresolve⟩ :=
    exists_impactDay zone (hparsed record hrecord) heffect hknows.locates horder
  have hday := (usedOn_iff h hparsed hrecord heffect hknows himpact day).mp hused
  rw [DatedOn, hresolve, hday]

/-- A classification returns, and it decides on the versions that were compared. -/
theorem classifyLateData_decides {zone : Zone} {receiptId : Text} {receivedAtUtc : UtcDateTime}
    {changeKind : ChangeKind} {incoming : FinancialRecord} {previous : Option FinancialRecord}
    {context : ImpactContext} {candidate : LateDataCandidate}
    (h : buildLateDataCandidate zone receiptId receivedAtUtc changeKind incoming previous context =
      .ok candidate) (boundary : ReconciliationBoundary) :
    ∃ decision, classifyLateData candidate boundary = .ok decision ∧
      decision.DecidesOn zone context (comparedRecords incoming previous) receivedAtUtc changeKind
        boundary := by
  unfold buildLateDataCandidate at h
  split at h
  · cases h
  next resolutions hresolutions =>
    obtain ⟨hreceived, hkind, hdates, hreason⟩ := candidate_eq_ok h
    obtain ⟨classification, hclassification, hlate, hreprocessed⟩ :=
      classification_spec candidate boundary
    have hhistorical : ∀ day, day ∈ candidate.historicalDates boundary ↔
        day ≤ boundary.coveredThroughDate ∧
          ∃ record ∈ comparedRecords incoming previous, DatedOn zone context record day := by
      intro day
      rw [LateDataCandidate.historicalDates, List.mem_filter, decide_eq_true_eq, hdates,
        mem_sortedSet, mem_affectedDates hresolutions, and_comm]
    have hcovered : candidate.historicalDates boundary ≠ [] ↔
        ∃ record ∈ comparedRecords incoming previous, ∃ day ≤ boundary.coveredThroughDate,
          DatedOn zone context record day := by
      constructor
      · intro hne
        obtain ⟨day, hday⟩ := List.exists_mem_of_ne_nil _ hne
        obtain ⟨hle, record, hrecord, hdated⟩ := (hhistorical day).mp hday
        exact ⟨record, hrecord, day, hle, hdated⟩
      · intro ⟨record, hrecord, day, hle, hdated⟩
        exact List.ne_nil_of_mem ((hhistorical day).mpr ⟨hle, record, hrecord, hdated⟩)
    rw [hreason, joinedReasons_any hresolutions, hkind, hreceived, hcovered] at hlate hreprocessed
    refine ⟨_, by rw [classifyLateData, hclassification]; rfl, hhistorical, ?_, ?_, ?_⟩
    · exact candidate.ordered.filter _
    · refine hlate.trans (and_congr_right fun _ => and_congr_right fun _ => and_congr_left fun _ => ?_)
      simp only [not_exists, not_and]
    · refine hreprocessed.trans (and_congr_right fun _ => and_congr_right fun _ => ?_)
      rw [← exists_or]
      exact exists_congr fun record => and_or_left.symm

/-- The decisions on late data: only a candidate without IDs or with a version that is not positive
is refused, what a decision says is exact, and no late change of what a run has used on a day that
it covers is passed over. -/
theorem late_changes_reprocessed (zone : Zone) (receiptId : Text) (receivedAtUtc : UtcDateTime)
    (changeKind : ChangeKind) (incoming : FinancialRecord) (previous : Option FinancialRecord)
    (context : ImpactContext) (boundary : ReconciliationBoundary) :
    ((∃ error, buildLateDataCandidate zone receiptId receivedAtUtc changeKind incoming previous
          context = .error error) ↔
      receiptId = [] ∨ incoming.recordId = [] ∨ incoming.sourceVersion ≤ 0) ∧
    ∀ candidate, buildLateDataCandidate zone receiptId receivedAtUtc changeKind incoming previous
        context = .ok candidate →
      ∃ decision, classifyLateData candidate boundary = .ok decision ∧
        decision.DecidesOn zone context (comparedRecords incoming previous) receivedAtUtc changeKind
          boundary ∧
        ∀ iso runId detectedAt canonicalization completenessResults quarantineRecords result record
            day,
          reconcile runId detectedAt canonicalization completenessResults quarantineRecords =
            .ok result →
          (∀ r ∈ canonicalization.canonicalRecords, Parsed iso r) →
          record ∈ canonicalization.canonicalRecords → record.HasEffect →
          context.Knows canonicalization.canonicalRecords record → UsedOn result record day →
          record ∈ comparedRecords incoming previous → day ≤ boundary.coveredThroughDate →
          boundary.inputWatermarkUtc < receivedAtUtc → changeKind.IsLogical →
          decision.classification.requiresReprocessing := by
  constructor
  · have hresolves : ∃ resolutions, (comparedRecords incoming previous).mapM (fun record =>
        resolveRecordImpact zone record context) = some resolutions := by
      rw [← Option.isSome_iff_exists, ← Option.ne_none_iff_isSome]
      intro hnone
      obtain ⟨record, -, hfails⟩ := exists_of_mapM_eq_none hnone
      obtain ⟨day, hday⟩ | ⟨reason, -, hreason⟩ := resolveRecordImpact_cases zone context record
      · cases hfails.symm.trans hday
      · cases hfails.symm.trans hreason
    obtain ⟨resolutions, hresolutions⟩ := hresolves
    simp only [buildLateDataCandidate, hresolutions, LateDataCandidate.make?]
    split_ifs with hreceipt hsource hversion
    · simp [hreceipt, hsource, not_le.mpr hversion]
    · simp [not_lt.mp hversion]
    · simp [not_not.mp hsource]
    · simp [not_not.mp hreceipt]
  · intro candidate h
    obtain ⟨decision, hdecision, hdecides⟩ := classifyLateData_decides h boundary
    refine ⟨decision, hdecision, hdecides, ?_⟩
    intro iso runId detectedAt canonicalization completenessResults quarantineRecords result record
      day hrun hparsed hrecord heffect hknows hused hcompared hday hafter hlogical
    have hdated := datedOn_of_used zone hrun hparsed hrecord heffect hknows hused
    exact hdecides.reprocessed.mpr ⟨hlogical, hafter, record, hcompared, .inr ⟨day, hday, hdated⟩⟩

end Threadline
