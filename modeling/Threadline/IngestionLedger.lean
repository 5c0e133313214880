import Threadline.DurableIngestion

/-!
# The ingestion ledger

`IngestionLedgerService` records a delivery that its caller has read: the batch
under a key of its identity, and a receipt for each row, pending or in
quarantine. A delivery that is recorded again is found by its key.
-/

open PyText PyJson PyCalendar PyExcept

namespace Threadline

/-! ## Deliveries -/

/-- `SourceDelivery`, as its `__post_init__` accepts it. -/
structure SourceDelivery where
  sourceSystem : Text
  reportType : ReportType
  reportDate : Date
  entityType : EntityType
  originalFilename : Text
  schemaVersion : Text
  declaredRowCount : ℤ
  records : List Payload
  fileBytes : Bytes
  manifestBytes : Bytes
  /-- The checksum of the file that the manifest declares. -/
  expectedFileChecksum : Option Text
  sourceSystem_canonical : sourceSystem ≠ [] ∧ sourceSystem = strip sourceSystem
  originalFilename_nonempty : originalFilename ≠ [] ∧ strip originalFilename ≠ []
  schemaVersion_canonical : schemaVersion ≠ [] ∧ schemaVersion = strip schemaVersion
  declaredRowCount_nonneg : 0 ≤ declaredRowCount

inductive LedgerError
  | value (message : Text)
  | lookup (message : Text)
  | runtime (message : Text)
  | unencodableText
  | timestampOverflow
  | database (error : DatabaseError)
  | raised (text : Text)
  deriving DecidableEq

/-- Where recording can be made to raise: when it connects, at its statements, and when it
commits. -/
inductive LedgerPoint
  | connect | createBatch | findBatch | insertReceipts | setStatus | countReceipts | commit
  | afterCommit

/-- The library functions that the service calls. -/
structure LedgerPlatform extends Platform where
  /-- `str.lower`. -/
  lower : Text → Text
  /-- `uuid5(NAMESPACE_URL, name)`. -/
  uuid5 : Text → Uuid

/-- A call of `record_delivery` with the values it draws, and the exceptions that its surroundings
raise. -/
structure LedgerCall where
  delivery : SourceDelivery
  batchId : Uuid
  /-- `CURRENT_TIMESTAMP` of the transaction. -/
  receivedAtUtc : UtcDateTime
  raises : LedgerPoint → Option Text

def LedgerCall.reach (call : LedgerCall) (point : LedgerPoint) : Except LedgerError Unit :=
  match call.raises point with
  | some text => .error (.raised text)
  | none => .ok ()

/-! ## Identity -/

/-- `normalize_filename`: the last component of a path with either separator. -/
def normalizeFilename (filename : Text) : Except LedgerError Text :=
  let normalized := filename.map fun c => if c = backslash then ofChar '/' else c
  let result := (normalized.reverse.takeWhile fun c => c ≠ ofChar '/').reverse
  if result = [] then .error (.value (txt "filename must not be empty")) else .ok result

/-- The identity of one transport delivery. -/
def identityDocument (delivery : SourceDelivery) (filename fileChecksum manifestChecksum : Text) :
    Json := .obj
  [(txt "source_system", .str delivery.sourceSystem),
   (txt "report_type", .str delivery.reportType.value),
   (txt "report_date", .str delivery.reportDate.isoformat),
   (txt "entity_type", .str delivery.entityType.value),
   (txt "original_filename", .str filename),
   (txt "schema_version", .str delivery.schemaVersion),
   (txt "file_checksum", .str fileChecksum),
   (txt "manifest_checksum", .str manifestChecksum)]

section

variable (platform : LedgerPlatform) (delivery : SourceDelivery)

/-- `calculate_delivery_key`. -/
def calculateDeliveryKey : Except LedgerError Text := do
  let filename ← normalizeFilename delivery.originalFilename
  orRaise (documentFingerprint platform.sha256 (identityDocument delivery filename
    (platform.sha256 delivery.fileBytes) (platform.sha256 delivery.manifestBytes)))
    LedgerError.unencodableText

/-- `_batch_issues`. -/
def batchIssues : List Text :=
  let fileChecksum := platform.sha256 delivery.fileBytes
  let observedRowCount := delivery.records.length
  (if delivery.declaredRowCount ≠ observedRowCount then
      [txt "ROW_COUNT_MISMATCH: manifest=" ++ intText delivery.declaredRowCount ++
        txt ", observed=" ++ natText observedRowCount]
    else []) ++
  (match delivery.expectedFileChecksum with
    | none => []
    | some expected =>
      if platform.lower expected ≠ fileChecksum then
        [txt "FILE_CHECKSUM_MISMATCH: manifest=" ++ platform.lower expected ++
          txt ", observed=" ++ fileChecksum]
      else [])

/-- `_receipt_id`. -/
def receiptIdOf (batchId : Uuid) (rowNumber : ℕ) (payloadHash : Text) : Uuid :=
  platform.uuid5 (txt "threadline:" ++ batchId ++ txt ":" ++ natText rowNumber ++ txt ":" ++
    payloadHash)

end

namespace LedgerCall

variable (platform : LedgerPlatform) (call : LedgerCall)

/-- One turn of the loop of `_prepare_receipts`. -/
def prepareReceipt (batchId : Uuid) (batchIssues : List Text) (row : Payload × ℕ) :
    Except LedgerError (Uuid × SourceReceipt) := do
  let payloadHash ← orRaise (documentFingerprint platform.sha256 (.obj row.1.items))
    LedgerError.unencodableText
  let receipt : SourceReceipt := {
    batchId := batchId
    rowNumber := row.2
    entityType := some call.delivery.entityType.value
    sourceId := none
    sourceVersion := none
    payloadHash := payloadHash
    rawPayload := .obj row.1.items
    disposition := .quarantined
    reasonCode := none
    receivedAtUtc := call.receivedAtUtc
    recordVersion := none
  }
  let receiptId := receiptIdOf platform batchId row.2 payloadHash
  match parseSourceRecord platform.iso row.1 (.member call.delivery.entityType) with
  | .error (.contract violation) =>
    let quarantined :=
      quarantineFromViolation (.member call.delivery.entityType) row.1 violation
    .ok (receiptId, { receipt with
      sourceId := quarantined.sourceId
      reasonCode := some quarantined.reasonCode })
  | .error .overflow => .error .timestampOverflow
  | .ok parsed => .ok (receiptId, { receipt with
      sourceId := some parsed.recordId
      sourceVersion := some parsed.sourceVersion
      disposition := if batchIssues = [] then .pending else .quarantined
      reasonCode := if batchIssues = [] then none else some (txt "BATCH_VALIDATION_FAILED") })

/-- `_prepare_receipts`. -/
def prepareReceipts (batchId : Uuid) (batchIssues : List Text) :
    Except LedgerError (List (Uuid × SourceReceipt)) :=
  (call.delivery.records.zipIdx 1).mapM (call.prepareReceipt platform batchId batchIssues)

end LedgerCall

/-! ## The repository -/

/-- The columns of `ingestion_batch` that tell the batches of the service from those of the durable
path, which writes schema version 1 and no error. -/
structure BatchDetails where
  schemaVersion : Text
  errorMessage : Option Text
  deriving DecidableEq

structure IngestionTables where
  db : Database
  details : PyDict Uuid BatchDetails

instance : EmptyCollection IngestionTables := ⟨⟨∅, ∅⟩⟩

structure ReceiptCounts where
  total : ℕ
  processable : ℕ
  quarantined : ℕ
  deriving DecidableEq

namespace IngestionTables

variable (tables : IngestionTables)

/-- `create_batch`, with whether a batch was inserted. -/
def createBatch (batchId : Uuid) (batch : IngestionBatch) (schemaVersion : Text) :
    Except LedgerError (IngestionTables × Bool) := do
  require (storableText batch.sourceSystem ∧ storableText batch.originalFilename ∧
    storableText schemaVersion) (LedgerError.database .untranslatableText)
  require (batch.sourceSystem.length ≤ 64 ∧ schemaVersion.length ≤ 32)
    (LedgerError.database .stringDataRightTruncation)
  require (batch.declaredRowCount ≤ integerMax ∧ batch.observedRowCount ≤ integerMax)
    (LedgerError.database .numericValueOutOfRange)
  if tables.db.batches.values.any fun other => other.deliveryKey = batch.deliveryKey then
    .ok (tables, false)
  else do
    require (tables.db.batches.get? batchId = none) (LedgerError.database .uniqueViolation)
    .ok ({
      db := { tables.db with batches := tables.db.batches.set batchId batch }
      details := tables.details.set batchId ⟨schemaVersion, none⟩ }, true)

def getBatchByDeliveryKey (deliveryKey : Text) : Except LedgerError (Uuid × IngestionBatch) :=
  orRaise (tables.db.batches.items.find? fun p => p.2.deliveryKey = deliveryKey)
    (LedgerError.lookup (txt "ingestion batch was not found"))

/-- `INSERT INTO source_receipt ... ON CONFLICT (batch_id, row_number) DO NOTHING`. -/
def insertReceipt (p : Uuid × SourceReceipt) : Except LedgerError IngestionTables := do
  require (p.2.sourceId.all storableText ∧ storableJson p.2.rawPayload)
    (LedgerError.database .untranslatableText)
  require (p.2.sourceId.all fun id => id.length ≤ sourceIdLength)
    (LedgerError.database .stringDataRightTruncation)
  require (p.2.sourceVersion.all fun version => version ≤ (integerMax : ℤ))
    (LedgerError.database .numericValueOutOfRange)
  if tables.db.receipts.values.any fun other =>
      other.batchId = p.2.batchId ∧ other.rowNumber = p.2.rowNumber then
    .ok tables
  else do
    require (tables.db.receipts.get? p.1 = none) (LedgerError.database .uniqueViolation)
    .ok { tables with
      db := { tables.db with receipts := tables.db.receipts.set p.1 p.2 } }

/-- `insert_receipts`. -/
def insertReceipts (receipts : List (Uuid × SourceReceipt)) : Except LedgerError IngestionTables :=
  receipts.foldlM insertReceipt tables

/-- `set_batch_status`. -/
def setBatchStatus (batchId : Uuid) (status : IngestionStatus) (errorMessage : Option Text) :
    Except LedgerError IngestionTables := do
  require (status = .processing ∨ status = .failed)
    (LedgerError.value (txt "Step 4 can only produce PROCESSING or FAILED"))
  require (errorMessage.all storableText) (LedgerError.database .untranslatableText)
  match tables.db.batches.get? batchId with
  | none => .error (.lookup (txt "batch status update affected 0 rows"))
  | some batch => .ok {
      db := { tables.db with
        batches := tables.db.batches.set batchId { batch with ingestionStatus := status } }
      details := tables.details.modify batchId ⟨[], none⟩ fun row =>
        { row with errorMessage := errorMessage } }

/-- `receipt_counts`. -/
def receiptCounts (batchId : Uuid) : ReceiptCounts where
  total := (tables.db.receiptsOf batchId).length
  processable := (tables.db.receiptsOf batchId).countP fun p => p.2.disposition = .pending
  quarantined := (tables.db.receiptsOf batchId).countP fun p => p.2.disposition = .quarantined

end IngestionTables

/-! ## The service -/

structure IngestionLedgerResult where
  batchId : Uuid
  deliveryKey : Text
  ingestionStatus : IngestionStatus
  wasReplay : Bool
  observedRowCount : ℕ
  processableReceiptCount : ℕ
  quarantinedReceiptCount : ℕ
  fileChecksum : Text
  manifestChecksum : Text
  deriving DecidableEq

namespace LedgerCall

variable (platform : LedgerPlatform) (call : LedgerCall)

/-- The batch as it is created. -/
def receivedBatch (deliveryKey filename : Text) : IngestionBatch where
  deliveryKey := deliveryKey
  sourceSystem := call.delivery.sourceSystem
  reportType := call.delivery.reportType.value
  reportDate := call.delivery.reportDate
  originalFilename := filename
  fileChecksum := platform.sha256 call.delivery.fileBytes
  manifestChecksum := platform.sha256 call.delivery.manifestBytes
  declaredRowCount := call.delivery.declaredRowCount
  observedRowCount := call.delivery.records.length
  ingestionStatus := .received
  sourceRelativePath := none
  receivedAtUtc := call.receivedAtUtc

/-- The status that a new batch ends in. -/
def batchStatus : IngestionStatus :=
  if batchIssues platform call.delivery = [] then .processing else .failed

def batchError : Option Text :=
  if batchIssues platform call.delivery = [] then none
  else some ((txt "; ").intercalate (batchIssues platform call.delivery))

/-- Store the rows of a batch that was inserted, and set its status. -/
def fillBatch (tables : IngestionTables) (deliveryKey : Text) (stored : Uuid × IngestionBatch)
    (inserted : Bool) : Except LedgerError (IngestionTables × Uuid × IngestionBatch) :=
  if inserted then do
    let receipts ← call.prepareReceipts platform stored.1 (batchIssues platform call.delivery)
    call.reach .insertReceipts
    let tables ← tables.insertReceipts receipts
    call.reach .setStatus
    let tables ← tables.setBatchStatus stored.1 (call.batchStatus platform)
      (call.batchError platform)
    let stored ← tables.getBatchByDeliveryKey deliveryKey
    .ok (tables, stored)
  else .ok (tables, stored)

/-- What is reported of a stored batch. -/
def resultOf (tables : IngestionTables) (deliveryKey : Text) (stored : Uuid × IngestionBatch)
    (inserted : Bool) : IngestionLedgerResult :=
  let counts := tables.receiptCounts stored.1
  { batchId := stored.1
    deliveryKey := deliveryKey
    ingestionStatus := stored.2.ingestionStatus
    wasReplay := !inserted
    observedRowCount := counts.total
    processableReceiptCount := counts.processable
    quarantinedReceiptCount := counts.quarantined
    fileChecksum := platform.sha256 call.delivery.fileBytes
    manifestChecksum := platform.sha256 call.delivery.manifestBytes }

/-- The transaction of `record_delivery`. -/
def transaction (tables : IngestionTables) :
    Except LedgerError (IngestionTables × IngestionLedgerResult) := do
  let deliveryKey ← calculateDeliveryKey platform call.delivery
  call.reach .connect
  let filename ← normalizeFilename call.delivery.originalFilename
  call.reach .createBatch
  let (tables, inserted) ← tables.createBatch call.batchId
    (call.receivedBatch platform deliveryKey filename) call.delivery.schemaVersion
  call.reach .findBatch
  let stored ← tables.getBatchByDeliveryKey deliveryKey
  let (tables, stored) ← call.fillBatch platform tables deliveryKey stored inserted
  call.reach .countReceipts
  let counts := tables.receiptCounts stored.1
  require ((counts.total : ℤ) = stored.2.observedRowCount)
    (LedgerError.runtime (txt "evidence conservation failed: batch declares " ++
      intText stored.2.observedRowCount ++ txt " observed rows but stores " ++
      natText counts.total ++ txt " receipts"))
  .ok (tables, call.resultOf platform tables deliveryKey stored inserted)

/-- `record_delivery`: the tables afterwards, and what the call returns or raises. -/
def recordDelivery (tables : IngestionTables) :
    IngestionTables × Except LedgerError IngestionLedgerResult :=
  match call.transaction platform tables with
  | .error error => (tables, .error error)
  | .ok (committed, result) =>
    match call.raises .commit with
    | some text => (tables, .error (.raised text))
    | none =>
      -- A lost acknowledgement does not undo the batch.
      match call.raises .afterCommit with
      | some text => (committed, .error (.raised text))
      | none => (committed, .ok result)

end LedgerCall

end Threadline
