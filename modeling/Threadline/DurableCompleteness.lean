import Mathlib.Data.List.MinMax
import Threadline.DurableIngestion

/-!
# Durable completeness

The state of every report, from the batches and the bytes kept in the database.
-/

open PyText PyJson PyCalendar PySorted PyExcept

namespace Threadline

inductive LoadError
  | noExpectedDays
  | reportType (label : Text)
  | deadlineOverflow
  | asOfOverflow
  deriving DecidableEq

/-! ## One stored report -/

/-- How the comparison of a manifest with its batch ends early: one of its expressions raises, or
two values differ. -/
inductive ManifestProblem
  | raises | differs
  deriving DecidableEq

def ManifestProblem.text : ManifestProblem → Text
  | .raises => txt "INVALID_STORED_MANIFEST"
  | .differs => txt "STORED_REPORT_EVIDENCE_MISMATCH"

/-- `value[key]`, which raises a `KeyError` or a `TypeError`. -/
def subscript (value : Json) (key : Text) : Except ManifestProblem Json :=
  match value with
  | .obj members =>
    match (PyDict.ofPairs members).get? key with
    | some item => .ok item
    | none => .error .raises
  | _ => .error .raises

/-- A `TypeError` unless the value is hashable. -/
def hashable : Json → Bool
  | .arr _ => false
  | .obj _ => false
  | _ => true

/-- `enum_member(ReportType, value)`. -/
def reportTypeOfJson (value : Json) : Except ManifestProblem ReportType :=
  match value with
  | .str s =>
    match reportTypeOf s with
    | some reportType => .ok reportType
    | none => .error .raises
  | _ => .error .raises

/-- A batch with its evidence and the numbers of its receipts. -/
structure StoredReport where
  batch : IngestionBatch
  evidence : Option DeliveryEvidence
  receiptCount : ℕ
  quarantineCount : ℕ

/-- The comparisons of a manifest with its batch. -/
def compareManifest (report : StoredReport) (reportType : ReportType) (manifest : Json)
    (recordCount : ℕ) : Except ManifestProblem Unit := do
  let filename ← subscript manifest (txt "filename")
  require (filename = .str report.batch.originalFilename) ManifestProblem.differs
  let label ← subscript manifest (txt "report_type")
  let manifestType ← reportTypeOfJson label
  require (manifestType = reportType) ManifestProblem.differs
  let sourceSystem ← subscript manifest (txt "source_system")
  require (hashable sourceSystem) ManifestProblem.raises
  require (sourceSystem = .str (reportSource reportType).memberName ∨
    sourceSystem = .str (reportSource reportType).value) ManifestProblem.differs
  let entityType ← subscript manifest (txt "entity_type")
  require (hashable entityType) ManifestProblem.raises
  require (entityType = .str (reportEntity reportType).value) ManifestProblem.differs
  let reportDate ← subscript manifest (txt "report_date")
  require (reportDate = .str report.batch.reportDate.isoformat) ManifestProblem.differs
  let schemaVersion ← subscript manifest (txt "schema_version")
  require (schemaVersion = .str (txt "1")) ManifestProblem.differs
  let checksum ← subscript manifest (txt "checksum_sha256")
  require (checksum = .str report.batch.fileChecksum) ManifestProblem.differs
  let rowCount ← subscript manifest (txt "row_count")
  require (rowCount = .num (.int recordCount)) ManifestProblem.differs
  require ((recordCount : ℤ) = report.batch.declaredRowCount) ManifestProblem.differs
  require ((recordCount : ℤ) = report.batch.observedRowCount) ManifestProblem.differs
  require (recordCount = report.receiptCount) ManifestProblem.differs

/-- `_verify_stored_report`: the problem of a stored report, if it has one. -/
def verifyStoredReport (platform : Platform) (report : StoredReport) : Option Text :=
  match report.evidence with
  | none => some (txt "VERIFIED_EVIDENCE_MISSING")
  | some evidence =>
    if platform.sha256 evidence.dataBytes ≠ report.batch.fileChecksum then
      some (txt "DATA_CHECKSUM_MISMATCH")
    else if platform.sha256 evidence.manifestBytes ≠ report.batch.manifestChecksum then
      some (txt "MANIFEST_CHECKSUM_MISMATCH")
    else
      match platform.strictJson evidence.dataBytes, platform.strictJson evidence.manifestBytes with
      | some records, some manifest =>
        match objectRows records, reportTypeOf report.batch.reportType with
        | none, _ => some (txt "INVALID_DATA_STRUCTURE")
        | some _, none => some ManifestProblem.raises.text
        | some rows, some reportType =>
          match compareManifest report reportType manifest rows.length with
          | .error problem => some problem.text
          | .ok () => if report.quarantineCount ≠ 0 then some (txt "QUARANTINED_ROWS") else none
      | _, _ => some ManifestProblem.raises.text

/-- A manifest and the rows it comes with agree with their batch and its receipts. -/
structure ManifestAgrees (report : StoredReport) (reportType : ReportType) (manifest : Json)
    (recordCount : ℕ) : Prop where
  filename : subscript manifest (txt "filename") = .ok (.str report.batch.originalFilename)
  type : ∃ label, subscript manifest (txt "report_type") = .ok label ∧
    reportTypeOfJson label = .ok reportType
  sourceSystem : ∃ label, subscript manifest (txt "source_system") = .ok (.str label) ∧
    (label = (reportSource reportType).memberName ∨ label = (reportSource reportType).value)
  entityType : subscript manifest (txt "entity_type") = .ok (.str (reportEntity reportType).value)
  reportDate : subscript manifest (txt "report_date") = .ok (.str report.batch.reportDate.isoformat)
  schemaVersion : subscript manifest (txt "schema_version") = .ok (.str (txt "1"))
  checksum : subscript manifest (txt "checksum_sha256") = .ok (.str report.batch.fileChecksum)
  rowCount : subscript manifest (txt "row_count") = .ok (.num (.int recordCount))
  declared : (recordCount : ℤ) = report.batch.declaredRowCount
  observed : (recordCount : ℤ) = report.batch.observedRowCount
  receipts : recordCount = report.receiptCount

/-- The comparison passes exactly on agreement. -/
theorem compareManifest_eq_ok {report : StoredReport} {reportType : ReportType} {manifest : Json}
    {recordCount : ℕ} : compareManifest report reportType manifest recordCount = .ok () ↔
      ManifestAgrees report reportType manifest recordCount := by
  simp only [compareManifest, bind_eq_ok, require_eq_ok]
  constructor
  · rintro ⟨_, hfilename, ⟨⟩, rfl, label, hlabel, _, htype, ⟨⟩, rfl, source, hsource, ⟨⟩, -, ⟨⟩,
      hmember, entity, hentity, ⟨⟩, -, ⟨⟩, rfl, _, hdate, ⟨⟩, rfl, _, hversion, ⟨⟩, rfl, _,
      hchecksum, ⟨⟩, rfl, _, hrows, ⟨⟩, rfl, ⟨⟩, hdeclared, ⟨⟩, hobserved, hreceipts⟩
    refine ⟨hfilename, ⟨label, hlabel, htype⟩, ?_, hentity, hdate, hversion, hchecksum, hrows,
      hdeclared, hobserved, hreceipts⟩
    rcases hmember with rfl | rfl
    · exact ⟨_, hsource, .inl rfl⟩
    · exact ⟨_, hsource, .inr rfl⟩
  · rintro ⟨hfilename, ⟨label, hlabel, htype⟩, ⟨source, hsource, hmember⟩, hentity, hdate, hversion,
      hchecksum, hrows, hdeclared, hobserved, hreceipts⟩
    exact ⟨_, hfilename, ⟨⟩, rfl, label, hlabel, _, htype, ⟨⟩, rfl, _, hsource, ⟨⟩, rfl, ⟨⟩,
      hmember.imp (congrArg Json.str) (congrArg Json.str), _, hentity, ⟨⟩, rfl, ⟨⟩, rfl, _, hdate,
      ⟨⟩, rfl, _, hversion, ⟨⟩, rfl, _, hchecksum, ⟨⟩, rfl, _, hrows, ⟨⟩, rfl, ⟨⟩, hdeclared, ⟨⟩,
      hobserved, hreceipts⟩

/-- What a stored report without a problem has been checked for. -/
structure Reverified (platform : Platform) (report : StoredReport) (reportType : ReportType) :
    Prop where
  evidence : ∃ evidence records rows manifest, report.evidence = some evidence ∧
    platform.sha256 evidence.dataBytes = report.batch.fileChecksum ∧
    platform.sha256 evidence.manifestBytes = report.batch.manifestChecksum ∧
    platform.strictJson evidence.dataBytes = some records ∧
    platform.strictJson evidence.manifestBytes = some manifest ∧
    objectRows records = some rows ∧
    ManifestAgrees report reportType manifest rows.length
  noQuarantine : report.quarantineCount = 0

theorem ite_some_eq_none {α : Type*} {check : Prop} [Decidable check] {a : α} {rest : Option α} :
    (if check then some a else rest) = none ↔ ¬ check ∧ rest = none := by
  split_ifs with h <;> simp [h]

theorem verifyStoredReport_eq_none {platform : Platform} {report : StoredReport}
    {reportType : ReportType} (htype : reportTypeOf report.batch.reportType = some reportType) :
    verifyStoredReport platform report = none ↔ Reverified platform report reportType := by
  unfold verifyStoredReport
  constructor
  · intro h
    split at h
    · cases h
    next evidence hevidence =>
    obtain ⟨hdata, h⟩ := ite_some_eq_none.mp h
    obtain ⟨hmanifest, h⟩ := ite_some_eq_none.mp h
    split at h
    next records manifest hrecords hman =>
      rw [htype] at h
      split at h
      · cases h
      · next heq => cases heq
      next rows reportType' hrows heq =>
        obtain rfl := Option.some.inj heq
        split at h
        · cases h
        next hcompare =>
        have hquarantine := (ite_some_eq_none.mp h).1
        exact ⟨⟨evidence, records, rows, manifest, hevidence, not_not.mp hdata,
          not_not.mp hmanifest, hrecords, hman, hrows, compareManifest_eq_ok.mp hcompare⟩,
          not_not.mp hquarantine⟩
    · cases h
  · rintro ⟨⟨evidence, records, rows, manifest, hevidence, hdata, hmanifest, hrecords, hman, hrows,
      hagrees⟩, hquarantine⟩
    have hcompare := compareManifest_eq_ok.mpr hagrees
    simp [hevidence, hdata, hmanifest, hrecords, hman, hrows, htype, hcompare, hquarantine]

/-! ## All reports -/

/-- The order in which batches arrived. -/
def arrivalKey (p : Uuid × IngestionBatch) : UtcDateTime ×ₗ Uuid := toLex (p.2.receivedAtUtc, p.1)

/-- A committed batch with the report of a day, received by the cutoff. -/
structure Delivered (db : Database) (asOfUtc : UtcDateTime) (day : Date) (reportType : ReportType)
    (p : Uuid × IngestionBatch) : Prop where
  mem : p ∈ db.batches.items
  committed : p.2.ingestionStatus = .committed
  received : p.2.receivedAtUtc ≤ asOfUtc
  onDay : p.2.reportDate = day
  ofType : reportTypeOf p.2.reportType = some reportType

/-- The last of these batches. -/
structure LatestDelivery (db : Database) (asOfUtc : UtcDateTime) (day : Date)
    (reportType : ReportType) (p : Uuid × IngestionBatch) : Prop extends
    Delivered db asOfUtc day reportType p where
  latest : ∀ q, Delivered db asOfUtc day reportType q → arrivalKey q ≤ arrivalKey p

def severity : SourceCompleteness → ℕ
  | .complete => 0
  | .pending => 1
  | .incomplete => 2

/-- The worst report decides, and the earliest day among the worst. -/
def worstKey (result : CompletenessResult) : ℕ ×ₗ Dateᵒᵈ :=
  toLex (severity result.status.state, OrderDual.toDual result.status.businessDate)

/-- The last batch of each report, by date and type. -/
abbrev LatestReports := PyDict (Date × ReportType) (Uuid × IngestionBatch)

namespace Database

variable (platform : Platform) (db : Database) (asOfUtc : UtcDateTime)

/-- The days of which reports are expected. -/
def reportDays : List Date :=
  sortedSet (db.expectedDays ++ (db.batches.values.filter fun batch =>
    batch.ingestionStatus = .committed ∨ batch.ingestionStatus = .failed).map
      IngestionBatch.reportDate)

def committedBatches : List (Uuid × IngestionBatch) :=
  sortedBy arrivalKey (db.batches.items.filter fun p =>
    p.2.ingestionStatus = .committed ∧ p.2.receivedAtUtc ≤ asOfUtc)

def storedReport (p : Uuid × IngestionBatch) : StoredReport where
  batch := p.2
  evidence := db.evidence.get? p.1
  receiptCount := (db.receiptsOf p.1).length
  quarantineCount := ((db.receiptsOf p.1).filter fun r => r.2.disposition = .quarantined).length

def latestEntry (p : Uuid × IngestionBatch) :
    Except LoadError ((Date × ReportType) × (Uuid × IngestionBatch)) :=
  match reportTypeOf p.2.reportType with
  | some reportType => .ok ((p.2.reportDate, reportType), p)
  | none => .error (.reportType p.2.reportType)

def latestReports : Except LoadError LatestReports := do
  let entries ← (db.committedBatches asOfUtc).mapM latestEntry
  .ok (PyDict.ofPairs entries)

/-- The result of a delivered report. -/
def deliveredResult (missing : CompletenessResult) (p : Uuid × IngestionBatch) :
    CompletenessResult :=
  let problem := verifyStoredReport platform (db.storedReport p)
  { status := {
      sourceSystem := missing.status.sourceSystem
      reportType := missing.status.reportType
      businessDate := missing.status.businessDate
      state :=
        if problem = none then .complete
        else if asOfUtc < missing.deadlineAtUtc then .pending
        else .incomplete
      batchId := some p.1
      reason := problem
    }
    deadlineAtUtc := missing.deadlineAtUtc
    issues := problem.toList.map fun problem =>
      ⟨.manifestInvalid, txt "Cannot certify retained file-protocol evidence: " ++ problem⟩ }

/-- The result of the report of one type for one day. -/
def dailyResult (latest : LatestReports) (day : Date) (reportType : ReportType) :
    Except LoadError CompletenessResult :=
  match evaluateMissingReport platform.berlinToUtc reportType day asOfUtc with
  | none => .error .deadlineOverflow
  | some missing =>
    match latest.get? (day, reportType) with
    | none => .ok missing
    | some p => .ok (db.deliveredResult platform asOfUtc missing p)

/-- Every report of every day. -/
def dailyResults (latest : LatestReports) : Except LoadError (List CompletenessResult) :=
  (db.reportDays.flatMap fun day => ReportType.all.map fun reportType => (day, reportType)).mapM
    fun key => db.dailyResult platform asOfUtc latest key.1 key.2

/-- `load_completeness`. -/
def loadCompleteness : Except LoadError (List CompletenessResult) := do
  require (db.reportDays ≠ []) LoadError.noExpectedDays
  let latest ← db.latestReports asOfUtc
  let results ← db.dailyResults platform asOfUtc latest
  .ok (sortedBy CompletenessResult.sortKey (ReportType.all.filterMap fun reportType =>
    (results.filter fun result => result.status.reportType = reportType).argmax worstKey))

end Database

/-! ## What completeness certifies -/

section

variable {platform : Platform} {db : Database} {asOfUtc : UtcDateTime}

theorem finalized_iff {p : Uuid × IngestionBatch} (hp : p ∈ db.batches.items) : db.finalized p.1 ↔
    p.2.ingestionStatus = .committed ∨ p.2.ingestionStatus = .failed := by
  have hget : db.batches.get? p.1 = some p.2 := PyDict.mem_items_iff.mp hp
  simp [Database.finalized, Database.batchStatus, hget]

theorem mem_reportDays {day : Date} : day ∈ db.reportDays ↔ day ∈ db.expectedDays ∨
    ∃ p ∈ db.batches.items, db.finalized p.1 ∧ p.2.reportDate = day := by
  simp only [Database.reportDays, mem_sortedSet, List.mem_append, List.mem_map, List.mem_filter,
    PyDict.values, decide_eq_true_eq]
  refine or_congr_right ?_
  constructor
  · rintro ⟨batch, ⟨⟨p, hp, rfl⟩, hstatus⟩, hday⟩
    exact ⟨p, hp, (finalized_iff hp).mpr hstatus, hday⟩
  · rintro ⟨p, hp, hfinal, hday⟩
    exact ⟨p.2, ⟨⟨p, hp, rfl⟩, (finalized_iff hp).mp hfinal⟩, hday⟩

theorem mem_committedBatches {p : Uuid × IngestionBatch} : p ∈ db.committedBatches asOfUtc ↔
    p ∈ db.batches.items ∧ p.2.ingestionStatus = .committed ∧ p.2.receivedAtUtc ≤ asOfUtc := by
  simp [Database.committedBatches]

theorem latestEntry_eq_ok {p : Uuid × IngestionBatch}
    {entry : (Date × ReportType) × (Uuid × IngestionBatch)} :
    Database.latestEntry p = .ok entry ↔
      reportTypeOf p.2.reportType = some entry.1.2 ∧ entry.1.1 = p.2.reportDate ∧ entry.2 = p := by
  obtain ⟨⟨day, reportType⟩, q⟩ := entry
  unfold Database.latestEntry
  split
  next t ht =>
    simp only [ht, Except.ok.injEq, Prod.mk.injEq, Option.some.injEq]
    grind
  next ht => simp [ht]

/-- Batches that arrived together are one batch. -/
theorem eq_of_arrivalKey {p q : Uuid × IngestionBatch} (hp : p ∈ db.batches.items)
    (hq : q ∈ db.batches.items) (h : arrivalKey p = arrivalKey q) : p = q := by
  have hid : p.1 = q.1 := congrArg (fun k => (ofLex k).2) h
  have hsome := (PyDict.mem_items_iff.mp hp).symm.trans (hid ▸ PyDict.mem_items_iff.mp hq)
  exact Prod.ext hid (Option.some.inj hsome)

section Latest

variable {latest : LatestReports} {day : Date} {reportType : ReportType}

theorem latestEntries_snd {entries : List ((Date × ReportType) × (Uuid × IngestionBatch))}
    (h : (db.committedBatches asOfUtc).mapM Database.latestEntry = .ok entries) :
    entries.map Prod.snd = db.committedBatches asOfUtc := by
  have hall := (mapM_eq_ok.mp h).imp fun _ _ hentry => (latestEntry_eq_ok.mp hentry).2.2.symm
  rw [← List.forall₂_eq_eq_eq, List.forall₂_map_left_iff]
  exact hall.flip.imp fun _ _ => Eq.symm

/-- The entries of the reports of a day are its deliveries. -/
theorem mem_latestEntries {entries : List ((Date × ReportType) × (Uuid × IngestionBatch))}
    (h : (db.committedBatches asOfUtc).mapM Database.latestEntry = .ok entries)
    {p : Uuid × IngestionBatch} :
    ((day, reportType), p) ∈ entries ↔ Delivered db asOfUtc day reportType p := by
  rw [mem_of_mapM_eq_ok h]
  simp only [latestEntry_eq_ok]
  constructor
  · rintro ⟨q, hq, htype, hday, hpq⟩
    obtain rfl : p = q := hpq
    obtain ⟨hmem, hcommitted, hreceived⟩ := mem_committedBatches.mp hq
    exact ⟨hmem, hcommitted, hreceived, hday.symm, htype⟩
  · intro hp
    exact ⟨p, mem_committedBatches.mpr ⟨hp.mem, hp.committed, hp.received⟩, hp.ofType,
      hp.onDay.symm, rfl⟩

/-- The batches under which the reports are found are the latest deliveries. -/
theorem latestReports_get? (h : db.latestReports asOfUtc = .ok latest)
    {p : Uuid × IngestionBatch} :
    latest.get? (day, reportType) = some p ↔ LatestDelivery db asOfUtc day reportType p := by
  obtain ⟨entries, hentries, h⟩ := bind_eq_ok.mp h
  obtain rfl := Except.ok.inj h
  have hsorted : entries.Pairwise fun a b => arrivalKey a.2 ≤ arrivalKey b.2 := by
    have hpairwise := sortedBy_pairwise arrivalKey (db.batches.items.filter fun p =>
      p.2.ingestionStatus = .committed ∧ p.2.receivedAtUtc ≤ asOfUtc)
    change (db.committedBatches asOfUtc).Pairwise _ at hpairwise
    rwa [← latestEntries_snd hentries, List.pairwise_map] at hpairwise
  have hlast : ∀ {p}, (PyDict.ofPairs entries).get? (day, reportType) = some p →
      LatestDelivery db asOfUtc day reportType p := by
    intro p hp
    refine ⟨(mem_latestEntries hentries).mp (PyDict.mem_of_get?_ofPairs hp), fun q hq => ?_⟩
    exact PyDict.le_of_get?_ofPairs (r := fun v w => arrivalKey v ≤ arrivalKey w)
      (fun v => le_refl _) hsorted hp ((mem_latestEntries hentries).mpr hq)
  refine ⟨hlast, fun hp => ?_⟩
  obtain ⟨q, hq⟩ := PyDict.get?_ofPairs_isSome ((mem_latestEntries hentries).mpr hp.toDelivered)
  obtain rfl := eq_of_arrivalKey (hlast hq).mem hp.mem
    (le_antisymm (hp.latest q (hlast hq).toDelivered) ((hlast hq).latest p hp.toDelivered))
  exact hq

end Latest

section Results

variable {latest : LatestReports} {results : List CompletenessResult}

theorem dailyResult_eq_ok {day : Date} {reportType : ReportType} {result : CompletenessResult}
    (h : db.dailyResult platform asOfUtc latest day reportType = .ok result) :
    result.status.reportType = reportType ∧ result.status.businessDate = day ∧
      (result.status.state = .complete ↔ ∃ p, latest.get? (day, reportType) = some p ∧
        verifyStoredReport platform (db.storedReport p) = none) := by
  unfold Database.dailyResult evaluateMissingReport at h
  cases hdeadline : reportDeadlineUtc platform.berlinToUtc day reportType with
  | none => simp [hdeadline] at h
  | some deadline =>
    simp only [hdeadline, Option.map_some] at h
    split at h
    next hnone =>
      obtain rfl := Except.ok.inj h
      refine ⟨rfl, rfl, iff_of_false ?_ (by simp [hnone])⟩
      simp only
      split_ifs <;> decide
    next p hp =>
      obtain rfl := Except.ok.inj h
      refine ⟨rfl, rfl, ?_⟩
      simp only [Database.deliveredResult, hp, Option.some.injEq, exists_eq_left']
      split_ifs with hproblem <;> simp [hproblem]

/-- A report type is complete when its report is complete on every day. -/
theorem worst_complete {xs : List CompletenessResult} {worst : CompletenessResult}
    (h : xs.argmax worstKey = some worst) :
    worst.status.state = .complete ↔ ∀ x ∈ xs, x.status.state = .complete := by
  have hseverity : ∀ {s : SourceCompleteness}, severity s = 0 ↔ s = .complete := by
    intro s
    cases s <;> simp [severity]
  constructor
  · intro hworst x hx
    have hle := List.le_of_mem_argmax hx h
    rw [worstKey, worstKey, hworst] at hle
    have hle := Prod.Lex.monotone_fst _ _ hle
    exact hseverity.mp (Nat.le_zero.mp hle)
  · intro hall
    exact hall worst (List.argmax_mem h)

/-- The report of a type is certified on every expected day and every day with a batch. -/
def CertifiedReport (platform : Platform) (db : Database) (asOfUtc : UtcDateTime)
    (reportType : ReportType) : Prop :=
  ∀ day, (day ∈ db.expectedDays ∨
      ∃ p ∈ db.batches.items, db.finalized p.1 ∧ p.2.reportDate = day) →
    ∃ p, LatestDelivery db asOfUtc day reportType p ∧
      Reverified platform (db.storedReport p) reportType

theorem ReportType.mem_all (reportType : ReportType) : reportType ∈ ReportType.all := by
  cases reportType <;> decide

theorem mem_dailyResults (h : db.dailyResults platform asOfUtc latest = .ok results)
    {result : CompletenessResult} : result ∈ results ↔ ∃ day ∈ db.reportDays,
      db.dailyResult platform asOfUtc latest day result.status.reportType = .ok result := by
  rw [mem_of_mapM_eq_ok h]
  constructor
  · rintro ⟨⟨day, reportType⟩, hkey, hresult⟩
    obtain ⟨day', hday, hkey⟩ := List.mem_flatMap.mp hkey
    obtain ⟨reportType', -, hkey⟩ := List.mem_map.mp hkey
    obtain ⟨rfl, rfl⟩ := Prod.mk.inj hkey
    obtain ⟨rfl, -⟩ := dailyResult_eq_ok hresult
    exact ⟨_, hday, hresult⟩
  · rintro ⟨day, hday, hresult⟩
    refine ⟨(day, result.status.reportType), ?_, hresult⟩
    exact List.mem_flatMap.mpr ⟨day, hday, List.mem_map_of_mem (ReportType.mem_all _)⟩

/-- The results of a report type, one for each expected day. -/
theorem exists_dailyResult (h : db.dailyResults platform asOfUtc latest = .ok results) {day : Date}
    (hday : day ∈ db.reportDays) (reportType : ReportType) :
    ∃ result, db.dailyResult platform asOfUtc latest day reportType = .ok result ∧
      result ∈ results.filter fun result => result.status.reportType = reportType := by
  obtain ⟨result, hresult⟩ := exists_of_mapM_eq_ok h (x := (day, reportType))
    (List.mem_flatMap.mpr ⟨day, hday, List.mem_map_of_mem (ReportType.mem_all _)⟩)
  obtain ⟨htype, -⟩ := dailyResult_eq_ok hresult
  refine ⟨result, hresult, List.mem_filter.mpr ⟨(mem_dailyResults h).mpr ⟨day, hday, ?_⟩, ?_⟩⟩
  · rwa [htype]
  · simpa using htype

/-- The daily result is complete when the latest delivery re-verifies. -/
theorem dailyResult_complete (hlatest : db.latestReports asOfUtc = .ok latest) {day : Date}
    {reportType : ReportType} {result : CompletenessResult}
    (h : db.dailyResult platform asOfUtc latest day reportType = .ok result) :
    result.status.state = .complete ↔ ∃ p, LatestDelivery db asOfUtc day reportType p ∧
      Reverified platform (db.storedReport p) reportType := by
  rw [(dailyResult_eq_ok h).2.2]
  refine exists_congr fun p => ?_
  rw [latestReports_get? hlatest]
  exact and_congr_right fun hp => verifyStoredReport_eq_none hp.ofType

/-- A report type counts as complete exactly when the latest delivery of every expected day
exists and re-verifies. -/
theorem loadCompleteness_complete (h : db.loadCompleteness platform asOfUtc = .ok results)
    (reportType : ReportType) :
    ReportComplete results reportType ↔ CertifiedReport platform db asOfUtc reportType := by
  obtain ⟨⟨⟩, hdays, h⟩ := bind_eq_ok.mp h
  obtain ⟨latest, hlatest, h⟩ := bind_eq_ok.mp h
  obtain ⟨daily, hdaily, h⟩ := bind_eq_ok.mp h
  obtain rfl := Except.ok.inj h
  have hdays := require_eq_ok.mp hdays
  constructor
  · rintro ⟨worst, hworst, htype, hcomplete⟩ day hday
    rw [← mem_reportDays] at hday
    obtain ⟨reportType', -, hworst⟩ := List.mem_filterMap.mp ((mem_sortedBy _).mp hworst)
    have hfilter := List.mem_filter.mp (List.argmax_mem hworst)
    obtain rfl : reportType = reportType' := by simpa [htype] using hfilter.2
    obtain ⟨result, hresult, hmem⟩ := exists_dailyResult hdaily hday reportType
    exact (dailyResult_complete hlatest hresult).mp ((worst_complete hworst).mp hcomplete _ hmem)
  · intro hcertified
    obtain ⟨day, hday⟩ := List.exists_mem_of_ne_nil _ hdays
    obtain ⟨result, -, hmem⟩ := exists_dailyResult hdaily hday reportType
    obtain ⟨worst, hworst⟩ := Option.ne_none_iff_exists'.mp
      (mt List.argmax_eq_none.mp (List.ne_nil_of_mem hmem) :
        (daily.filter fun result => result.status.reportType = reportType).argmax worstKey ≠ none)
    refine ⟨worst, (mem_sortedBy _).mpr (List.mem_filterMap.mpr ⟨reportType,
      ReportType.mem_all _, hworst⟩), ?_, (worst_complete hworst).mpr fun x hx => ?_⟩
    · simpa using (List.mem_filter.mp (List.argmax_mem hworst)).2
    · obtain ⟨hx, htype⟩ := List.mem_filter.mp hx
      obtain ⟨day', hday', hdaily'⟩ := (mem_dailyResults hdaily).mp hx
      obtain rfl : x.status.reportType = reportType := by simpa using htype
      exact (dailyResult_complete hlatest hdaily').mpr (hcertified day' (mem_reportDays.mp hday'))

end Results

end

end Threadline
