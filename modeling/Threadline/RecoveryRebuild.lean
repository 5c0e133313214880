import Threadline.DuplicateSafety
import Threadline.DurableCompleteness

/-!
# Rebuilding a candidate

The receipts of the finalized batches are parsed again, canonicalized and
reconciled under the completeness of the stored reports.
-/

open PyText PyJson PyCalendar PySorted PyExcept

namespace Threadline

inductive BuildError
  | reasonCode
  | entityType (label : Option Text)
  | rawPayload
  | failedBatch
  | unresolvedReceipt (receiptId : Uuid)
  | parse (error : ParseError)
  | sourceId
  | sourceVersion
  | evidenceLost
  | canonicalization (error : CanonicalizationError)
  | completeness (error : LoadError)
  | reconciliation (error : ReconciliationError)
  | sourceSystem (label : Text)
  | evidence (error : ConflictEvidenceError)
  deriving DecidableEq

/-! ## Receipts -/

/-- `make_quarantine`: rejection evidence without reparsing the rejected row. -/
def makeQuarantine (receipt : SourceReceipt) : Except BuildError QuarantinedRecord :=
  match receipt.reasonCode with
  | none => .error .reasonCode
  | some reasonCode =>
    if strip reasonCode = [] then .error .reasonCode
    else
      match receipt.entityType.bind entityTypeOf, dumps receipt.rawPayload with
      | none, _ => .error (.entityType receipt.entityType)
      | some _, none => .error .rawPayload
      | some entityType, some rawPayloadJson => .ok {
          entityType := entityType.value
          sourceId := receipt.sourceId
          reasonCode := reasonCode
          reasonDetail := txt "Stored rejection code: " ++ reasonCode
          rawPayloadJson := rawPayloadJson
        }

/-- `make_envelope`: the receipt under its own identity. -/
def makeEnvelope (sha256 : Bytes → Text) (receiptId : Uuid) (receipt : SourceReceipt)
    (record : FinancialRecord) : Except BuildError (RecordEnvelope sha256) := do
  require (receipt.sourceId = some record.recordId) BuildError.sourceId
  require (receipt.sourceVersion = some record.sourceVersion) BuildError.sourceVersion
  (RecordEnvelope.make? sha256 receiptId record).mapError .canonicalization

/-- The JSON object of a stored row. -/
def storedPayload (rawPayload : Json) : Except BuildError Payload :=
  match rawPayload with
  | .obj members => .ok (PyDict.ofPairs members)
  | _ => .error .rawPayload

/-- The envelope of a receipt that is not quarantined. -/
def rebuildEnvelope (platform : Platform) (receiptId : Uuid) (receipt : SourceReceipt) :
    Except BuildError (RecordEnvelope platform.sha256) :=
  match receipt.entityType.bind entityTypeOf with
  | none => .error (.entityType receipt.entityType)
  | some entityType => do
    let payload ← storedPayload receipt.rawPayload
    let record ← (parseSourceRecord platform.iso payload (.member entityType)).mapError .parse
    makeEnvelope platform.sha256 receiptId receipt record

namespace Database

variable (platform : Platform) (db : Database)

/-- The order in which a rebuild reads the receipts. -/
def receiptKey (p : Uuid × SourceReceipt) : Uuid ×ₗ ℕ := toLex (p.2.batchId, p.2.rowNumber)

def finalizedReceipts : List (Uuid × SourceReceipt) :=
  sortedBy receiptKey (db.receipts.items.filter fun p => db.finalized p.2.batchId)

/-- One turn of the loop over the receipts. -/
def rebuildReceipt (p : Uuid × SourceReceipt) :
    Except BuildError (QuarantinedRecord ⊕ RecordEnvelope platform.sha256) :=
  if p.2.disposition = .quarantined then .inl <$> makeQuarantine p.2
  else if db.batchStatus p.2.batchId ≠ some .committed then .error .failedBatch
  else if p.2.disposition = .pending then .error (.unresolvedReceipt p.1)
  else .inr <$> rebuildEnvelope platform p.1 p.2

def rebuildReceipts :
    Except BuildError (List QuarantinedRecord × List (RecordEnvelope platform.sha256)) := do
  let rebuilt ← db.finalizedReceipts.mapM (db.rebuildReceipt platform)
  let quarantine := rebuilt.filterMap Sum.getLeft?
  let envelopes := rebuilt.filterMap Sum.getRight?
  require (envelopes.length + quarantine.length = db.finalizedReceipts.length)
    BuildError.evidenceLost
  .ok (quarantine, envelopes)

/-- The row of a receipt for the evidence of a conflict. -/
def storedVariant (p : Uuid × SourceReceipt) : Except BuildError SourceVariant :=
  match (db.batches.get? p.2.batchId).map IngestionBatch.sourceSystem with
  | none => .error .evidenceLost
  | some label =>
    match sourceSystemOf label with
    | none => .error (.sourceSystem label)
    | some sourceSystem =>
      match p.2.entityType.bind entityTypeOf, p.2.sourceId, p.2.sourceVersion with
      | some entityType, some sourceId, some sourceVersion => .ok {
          receiptId := p.1
          identity := ⟨sourceSystem, entityType, sourceId⟩
          sourceVersion := sourceVersion
          payloadHash := p.2.payloadHash
        }
      | _, _, _ => .error (.entityType p.2.entityType)

/-- `stabilize_conflict_evidence`, with the receipts of the committed batches. -/
def stabilize (candidate : ReconciliationResult) : Except BuildError ReconciliationResult :=
  if conflictReceiptIds candidate = [] then .ok candidate
  else do
    let variants ← (db.receipts.items.filter fun p => p.1 ∈ conflictReceiptIds candidate ∧
      db.batchStatus p.2.batchId = some .committed).mapM db.storedVariant
    (stabilizeConflictEvidence platform.sha256 variants candidate).mapError .evidence

/-- `build_candidate`. -/
def buildCandidate (runId : Text) (asOfUtc : UtcDateTime) :
    Except BuildError ReconciliationResult := do
  let (quarantine, envelopes) ← db.rebuildReceipts platform
  let canonicalization ← (canonicalize envelopes).mapError .canonicalization
  let completenessResults ← (db.loadCompleteness platform asOfUtc).mapError .completeness
  let candidate ← (reconcile runId asOfUtc canonicalization completenessResults
    quarantine).mapError .reconciliation
  db.stabilize platform candidate

end Database

/-! ## What a reconciled row certifies -/

section

variable {runId : Text} {detectedAt : UtcDateTime} {canonicalization : CanonicalizationResult}
  {completenessResults : List CompletenessResult} {quarantineRecords : List QuarantinedRecord}
  {result : ReconciliationResult}

/-- A reconciled transaction has its reports complete. -/
theorem reconciled_transaction_complete
    (h : reconcile runId detectedAt canonicalization completenessResults quarantineRecords =
      .ok result) {row : TransactionReconciliation} (hrow : row ∈ result.transactions)
    (hstate : row.state = .reconciled) :
    ∀ t ∈ transactionRequiredReports, ReportComplete completenessResults t := by
  obtain ⟨b, movements, hopened, rfl⟩ := reconcile_ok h
  obtain ⟨order, -, rfl⟩ := List.mem_map.mp ((mem_sortedBy _).mp hrow)
  intro t ht
  exact (hopened.complete_iff t).mp ((resultState_eq_reconciled.mp hstate).1 t ht)

/-- A reconciled payout has its reports complete. -/
theorem reconciled_payout_complete
    (h : reconcile runId detectedAt canonicalization completenessResults quarantineRecords =
      .ok result) {row : PayoutReconciliation} (hrow : row ∈ result.payouts)
    (hstate : row.state = .reconciled) :
    ∀ t ∈ payoutRequiredReports, ReportComplete completenessResults t := by
  obtain ⟨b, movements, hopened, rfl⟩ := reconcile_ok h
  obtain ⟨payout, -, rfl⟩ := List.mem_map.mp ((mem_sortedBy _).mp hrow)
  intro t ht
  exact (hopened.complete_iff t).mp ((resultState_eq_reconciled.mp hstate).1 t ht)

theorem stabilizeConflictEvidence_rows {sha256 : Bytes → Text} {variants : List SourceVariant}
    {candidate stable : ReconciliationResult}
    (h : stabilizeConflictEvidence sha256 variants candidate = .ok stable) :
    ∃ exceptions, stable = { candidate with exceptions := exceptions } := by
  unfold stabilizeConflictEvidence at h
  split_ifs at h
  · exact ⟨candidate.exceptions, (Except.ok.inj h).symm⟩
  · obtain ⟨evidence, -, h⟩ := bind_eq_ok.mp h
    obtain ⟨exceptions, -, h⟩ := bind_eq_ok.mp h
    exact ⟨exceptions, (Except.ok.inj h).symm⟩

end

section

variable {platform : Platform} {db : Database} {runId : Text} {asOfUtc : UtcDateTime}
  {result : ReconciliationResult}

/-- Stabilization changes only the exceptions. -/
theorem stabilize_rows {candidate : ReconciliationResult}
    (h : db.stabilize platform candidate = .ok result) :
    ∃ exceptions, result = { candidate with exceptions := exceptions } := by
  unfold Database.stabilize at h
  split_ifs at h
  · exact ⟨candidate.exceptions, (Except.ok.inj h).symm⟩
  · obtain ⟨variants, -, h⟩ := bind_eq_ok.mp h
    exact stabilizeConflictEvidence_rows (mapError_eq_ok.mp h)

/-- The steps of a rebuild that returns. -/
theorem buildCandidate_ok (h : db.buildCandidate platform runId asOfUtc = .ok result) :
    ∃ quarantine envelopes canonicalization completenessResults candidate,
      db.rebuildReceipts platform = .ok (quarantine, envelopes) ∧
      canonicalize envelopes = .ok canonicalization ∧
      db.loadCompleteness platform asOfUtc = .ok completenessResults ∧
      reconcile runId asOfUtc canonicalization completenessResults quarantine = .ok candidate ∧
      db.stabilize platform candidate = .ok result := by
  obtain ⟨⟨quarantine, envelopes⟩, hreceipts, h⟩ := bind_eq_ok.mp h
  obtain ⟨canonicalization, hcanonical, h⟩ := bind_eq_ok.mp h
  obtain ⟨completenessResults, hcompleteness, h⟩ := bind_eq_ok.mp h
  obtain ⟨candidate, hcandidate, h⟩ := bind_eq_ok.mp h
  exact ⟨quarantine, envelopes, canonicalization, completenessResults, candidate, hreceipts,
    mapError_eq_ok.mp hcanonical, mapError_eq_ok.mp hcompleteness, mapError_eq_ok.mp hcandidate, h⟩

/-- A candidate with a reconciled row rests on reports that were delivered for every expected day
and re-verify from the bytes kept in the database. -/
theorem reconciled_candidate_certified (h : db.buildCandidate platform runId asOfUtc = .ok result) :
    ((∃ row ∈ result.transactions, row.state = .reconciled) →
      ∀ reportType ∈ [ReportType.orders, .payments, .refunds, .fees],
        CertifiedReport platform db asOfUtc reportType) ∧
    ((∃ row ∈ result.payouts, row.state = .reconciled) →
      ∀ reportType ∈ [ReportType.payments, .refunds, .fees, .settlementLines, .payouts],
        CertifiedReport platform db asOfUtc reportType) := by
  obtain ⟨quarantine, envelopes, canonicalization, completenessResults, candidate, -, -,
    hcompleteness, hcandidate, hstable⟩ := buildCandidate_ok h
  obtain ⟨exceptions, rfl⟩ := stabilize_rows hstable
  constructor
  · rintro ⟨row, hrow, hstate⟩ reportType htype
    exact (loadCompleteness_complete hcompleteness reportType).mp
      (reconciled_transaction_complete hcandidate hrow hstate reportType htype)
  · rintro ⟨row, hrow, hstate⟩ reportType htype
    exact (loadCompleteness_complete hcompleteness reportType).mp
      (reconciled_payout_complete hcandidate hrow hstate reportType htype)

end

/-! ## A cancelled order -/

namespace CancelledDay

open PaidDay (september atTen valid14 valid15 valid16)

def orderPayload : Payload := PyDict.ofPairs
  [(txt "order_id", .str (txt "ORD-1")),
   (txt "created_at_utc", .str (txt "2026-09-14T10:00:00Z")),
   (txt "status", .str (txt "CANCELLED")),
   (txt "currency", .str (txt "EUR")),
   (txt "order_total", .str (txt "100.00")),
   (txt "source_version", .num (.int 1))]

def report (reportType : ReportType) (rows : List Payload) (dataDigest manifestDigest : ℕ) :
    DigestedReport :=
  ⟨reportType, september 14 valid14, rows, hexDigest dataDigest, hexDigest manifestDigest⟩

/-- The digest of a file that holds `[]`. -/
def emptyDigest : ℕ := 0x4f53cda18c2baa0c0354bb5f9a3ecbe5ed12ab4d8e11ba873c2f11161202b945

/-- How a delivery key begins whose data file is empty. -/
def emptyKey : Text :=
  txt "\x7b\"file_checksum\":\"" ++ hexDigest emptyDigest ++ txt "\",\"manifest_checksum\":\""

/-- Four reports, of which only that of the orders has a row. -/
def inbox : Inbox where
  reports :=
    [report .orders [orderPayload]
       0x7e6fb71c230582dbef39cdadfeea388428d2cba42606ed82b49a13052de75739
       0x03c497d265d835fbc13c582a83b9da489e59c71233f06f2d58e00264efeceb72,
     report .payments [] emptyDigest
       0x999616d1b45c869b3fdb72a9fd0ec012ce23f4c8d2c2d0cd0ca1f7fa04ecbf67,
     report .refunds [] emptyDigest
       0x69f22fffefb65c61c60a219d935c0e6272a8e0e1960dc8960a1e7ec2520c515c,
     report .fees [] emptyDigest
       0x43767b73e25727276d89178505e4fd2b03f3544bf9c08119ec6d6deeea685d7a]
  digests :=
    [(txt "\x7b\"_entity_type\":\"ORDER\"",
        hexDigest 0x8a49911c28439a306359cbbfc12496f0400ebf1b3441a6136a152f5df07c4552),
     (txt "\x7b\"file_checksum\":\"7e6f",
        hexDigest 0xc16261ea116cab79d6d21da78465ce568abc08be6d2723216eac7dae623d406f),
     (emptyKey ++ txt "9996",
        hexDigest 0xf95501e571aca097731ee9a88c9f26f067ad8a9b27b27033012a837b3dc373fb),
     (emptyKey ++ txt "69f2",
        hexDigest 0xb60e4fab0b876ce5fffd3f7624070142fe6c2b1beb9d12b804e0d620a8cac708),
     (emptyKey ++ txt "4376",
        hexDigest 0x10e850bc70ec35783b14597f0110ecc32e788bfd371a4b4f91b5e366a0de7c2a),
     (txt "\x7b\"verified_delivery\":\"c162",
        hexDigest 0x4fca13e9b200d0af95245818435e6cf5240e7eb59ca32cbf289dcbea2a2537c9),
     (txt "\x7b\"verified_delivery\":\"f955",
        hexDigest 0x6370ec39731e76d578f92c856f3383fc944a52ff29500ef4da7aa754080da77e),
     (txt "\x7b\"verified_delivery\":\"b60e",
        hexDigest 0xe1bc24bc29ef1114665dadc743ace3bcca3425761dc75ea8e587db089f5051ff),
     (txt "\x7b\"verified_delivery\":\"10e8",
        hexDigest 0x3cb033f4f106c1943ed805f8bd8d78aa31e863ef29192c673a48bf890d62a47b)]
  times := [atTen (september 14 valid14)]
  days := [september 14 valid14]

/-- The database after the four reports have been ingested. -/
def database : Database :=
  inbox.ingested (inbox.reports.map fun report =>
    report.ingestion (atTen (september 15 valid15)) report.name)

def candidate : Except BuildError ReconciliationResult :=
  database.buildCandidate inbox.platform (txt "run-1") (atTen (september 16 valid16))

/-- The cancelled order is reconciled, and its four reports are certified. -/
theorem reconciled_candidate_certified_cancelled_day :
    ∃ result, candidate = .ok result ∧
      (∃ row ∈ result.transactions, row.state = .reconciled) ∧
      ∀ reportType ∈ [ReportType.orders, .payments, .refunds, .fees],
        CertifiedReport inbox.platform database (atTen (september 16 rfl)) reportType := by
  have hany : (candidate.toOption.any fun result =>
      result.transactions.any fun row => row.state = .reconciled) = true := by decide +kernel
  obtain ⟨result, hresult, hrow⟩ := (Option.any_eq_true _ _).mp hany
  have hcandidate := toOption_eq_some.mp hresult
  obtain ⟨row, hmem, hstate⟩ := List.any_eq_true.mp hrow
  have hreconciled := of_decide_eq_true hstate
  exact ⟨result, hcandidate, ⟨row, hmem, hreconciled⟩,
    (reconciled_candidate_certified hcandidate).1 ⟨row, hmem, hreconciled⟩⟩

end CancelledDay

end Threadline
