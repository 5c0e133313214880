import Threadline.Database
import Threadline.PyExcept
import Threadline.RecoveryFingerprint

/-!
# Durable ingestion

A delivery is verified, and its rows are stored in one transaction: receipts,
record versions, the resolution of every entity they touch, and a request for a
rebuild. What raises before the commit leaves the database as it was.
-/

open PyText PyJson PyCalendar PySorted PyExcept

namespace Threadline

/-! ## Labels of enumerations -/

/-- `enum_member`: a member by its name, or by its value. -/
def enumMember {α : Type} (members : List α) (name value : α → Text) (label : Text) : Option α :=
  (members.find? fun member => name member = label).or
    (members.find? fun member => value member = label)

/-- The names of the members of `ReportType`. -/
def ReportType.memberName : ReportType → Text
  | .orders => txt "ORDERS"
  | .payments => txt "PAYMENTS"
  | .refunds => txt "REFUNDS"
  | .fees => txt "FEES"
  | .settlementLines => txt "SETTLEMENT_LINES"
  | .payouts => txt "PAYOUTS"

def SourceSystem.memberName : SourceSystem → Text
  | .threadlineShop => txt "THREADLINE_SHOP"
  | .mockpay => txt "MOCKPAY"

def reportTypeOf (label : Text) : Option ReportType :=
  enumMember ReportType.all ReportType.memberName ReportType.value label

/-- The members of `EntityType` are named by their values. -/
def entityTypeOf (label : Text) : Option EntityType :=
  enumMember EntityType.all EntityType.value EntityType.value label

def sourceSystemOf (label : Text) : Option SourceSystem :=
  enumMember [.threadlineShop, .mockpay] SourceSystem.memberName SourceSystem.value label

/-- `enum_member` of a JSON value. -/
def memberOf {α : Type} (of : Text → Option α) (value : Json) : Option α :=
  match value with
  | .str label => of label
  | _ => none

theorem reportTypeOf_value (reportType : ReportType) :
    reportTypeOf reportType.value = some reportType := by
  cases reportType <;> rfl

theorem sourceSystemOf_value (sourceSystem : SourceSystem) :
    sourceSystemOf sourceSystem.value = some sourceSystem := by
  cases sourceSystem <;> rfl

theorem entityTypeOf_eq_some {label : Text} {entityType : EntityType} :
    entityTypeOf label = some entityType ↔ label = entityType.value := by
  constructor
  · intro h
    rcases Option.or_eq_some_iff.mp h with h | ⟨-, h⟩
    · have hvalue := List.find?_some h
      exact (of_decide_eq_true hvalue).symm
    · have hvalue := List.find?_some h
      exact (of_decide_eq_true hvalue).symm
  · rintro rfl
    cases entityType <;> rfl

/-! ## Verified deliveries -/

/-- `REPORT_ENTITIES`. -/
def reportEntity : ReportType → EntityType
  | .orders => .order
  | .payments => .payment
  | .refunds => .refund
  | .fees => .fee
  | .settlementLines => .settlementLine
  | .payouts => .payout

/-- A completed data file in the inbox with its manifest. -/
structure SourceFile where
  name : Text
  relativePath : Text
  dataBytes : Bytes
  manifestBytes : Bytes
  deriving DecidableEq

inductive DeliveryError
  | invalidJson | manifestFields | filename | schemaVersion | dataStructure | rowCount | checksum
  | unknownMember | entity | source | reportDate
  deriving DecidableEq

structure VerifiedDelivery where
  file : SourceFile
  sourceSystem : SourceSystem
  reportType : ReportType
  reportDate : Date
  entityType : EntityType
  records : List Payload
  sourceSystem_eq : sourceSystem = reportSource reportType
  entityType_eq : entityType = reportEntity reportType

/-- `value`, unless it is missing: the exception of the expression that gives it. -/
def orRaise {α ε : Type} (value : Option α) (error : ε) : Except ε α :=
  match value with
  | some a => .ok a
  | none => .error error

theorem orRaise_eq_ok {α ε : Type} {value : Option α} {error : ε} {a : α} :
    orRaise value error = .ok a ↔ value = some a := by
  cases value <;> simp [orRaise]

/-- The rows of a JSON array of objects. -/
def objectRows (value : Json) : Option (List Payload) :=
  match value with
  | .arr items => items.mapM fun
    | .obj members => some (PyDict.ofPairs members)
    | _ => none
  | _ => none

def manifestObject (value : Json) : Option Payload :=
  match value with
  | .obj members => some (PyDict.ofPairs members)
  | _ => none

def manifestKeys : List Text :=
  [txt "filename", txt "source_system", txt "report_type", txt "report_date", txt "entity_type",
    txt "schema_version", txt "row_count", txt "checksum_sha256"]

/-- `date.fromisoformat` of a JSON value. -/
def isoDateOf (iso : IsoParsers) (value : Json) : Option Date := memberOf iso.date value

/-- `verify_delivery`, for a path in the inbox whose two files are complete. -/
def verifyDelivery (platform : Platform) (file : SourceFile) :
    Except DeliveryError VerifiedDelivery := do
  let data ← orRaise (platform.strictJson file.dataBytes) DeliveryError.invalidJson
  let manifestJson ← orRaise (platform.strictJson file.manifestBytes) DeliveryError.invalidJson
  let manifest ← orRaise (manifestObject manifestJson) DeliveryError.manifestFields
  require (sortedSet manifest.keys = sortedSet manifestKeys) DeliveryError.manifestFields
  require (manifest.field (txt "filename") = .str file.name) DeliveryError.filename
  require (manifest.field (txt "schema_version") = .str (txt "1")) DeliveryError.schemaVersion
  let records ← orRaise (objectRows data) DeliveryError.dataStructure
  require (manifest.field (txt "row_count") = .num (.int records.length)) DeliveryError.rowCount
  require (manifest.field (txt "checksum_sha256") = .str (platform.sha256 file.dataBytes))
    DeliveryError.checksum
  let reportType ← orRaise (memberOf reportTypeOf (manifest.field (txt "report_type")))
    DeliveryError.unknownMember
  let entityType ← orRaise (memberOf entityTypeOf (manifest.field (txt "entity_type")))
    DeliveryError.unknownMember
  let sourceSystem ← orRaise (memberOf sourceSystemOf (manifest.field (txt "source_system")))
    DeliveryError.unknownMember
  if entityType_eq : entityType = reportEntity reportType then
    if sourceSystem_eq : sourceSystem = reportSource reportType then do
      let reportDate ← orRaise (isoDateOf platform.iso (manifest.field (txt "report_date")))
        DeliveryError.reportDate
      require (manifest.field (txt "report_date") = .str reportDate.isoformat)
        DeliveryError.reportDate
      .ok { file, sourceSystem, reportType, reportDate, entityType, records, sourceSystem_eq,
            entityType_eq }
    else .error .source
  else .error .entity

/-! ## Rows -/

inductive IngestionError
  | delivery (error : DeliveryError)
  | timestampOverflow
  | unencodableText
  | envelope (error : CanonicalizationError)
  | notCommitted
  | requestLost
  | noVersion
  | database (error : DatabaseError)
  | raised (text : Text)
  deriving DecidableEq

/-- Where an ingestion can be made to raise: when it connects and locks, at its statements (those of
one row, and those of one step, are rolled back together), at its failure hooks, and when it
commits. -/
inductive IngestionPoint
  | locks | findBatch | findRequest | insertBatch
  | receiveRow (rowNumber : ℕ)
  | resolveEntities | afterEntityResolution | insertRequest | beforeCommit | commit | afterCommit

/-- A call of `ingest_source_file` with the values it draws, and the exceptions that its
surroundings raise. -/
structure IngestionCall where
  file : SourceFile
  asOfUtc : UtcDateTime
  batchId : Uuid
  /-- The receipt IDs by row number. -/
  receiptId : ℕ → Uuid
  requestId : Uuid
  now : Instant
  raises : IngestionPoint → Option IngestionError

/-- Pass a point, unless an exception is raised there. -/
def IngestionCall.reach (call : IngestionCall) (point : IngestionPoint) :
    Except IngestionError Unit :=
  match call.raises point with
  | some error => .error error
  | none => .ok ()

mutual

/-- A document that a `JSONB` column takes: no infinity, no NUL and no lone surrogate. -/
def storableJson : Json → Bool
  | .num (.infinity _) => false
  | .str s => storableText s
  | .arr xs => storableItems xs
  | .obj ms => storableMembers ms
  | _ => true

def storableItems : List Json → Bool
  | [] => true
  | x :: xs => storableJson x && storableItems xs

def storableMembers : List (Text × Json) → Bool
  | [] => true
  | (k, v) :: ms => storableText k && storableJson v && storableMembers ms

end

/-- The lengths of the columns `source_id`. -/
def sourceIdLength : ℕ := 128

namespace Database

variable (db : Database)

/-- `INSERT INTO source_receipt`, into a batch that exists. -/
def insertReceipt (receiptId : Uuid) (receipt : SourceReceipt) :
    Except IngestionError Database := do
  require (db.receipts.get? receiptId = none ∧ ∀ r ∈ db.receipts.values,
    ¬ (r.batchId = receipt.batchId ∧ r.rowNumber = receipt.rowNumber))
    (IngestionError.database .uniqueViolation)
  require (receipt.sourceId.all fun id => id.length ≤ sourceIdLength)
    (IngestionError.database .stringDataRightTruncation)
  require (receipt.sourceId.all storableText ∧ storableJson receipt.rawPayload)
    (IngestionError.database .untranslatableText)
  require (receipt.sourceVersion.all fun version => version ≤ (integerMax : ℤ))
    (IngestionError.database .numericValueOutOfRange)
  .ok { db with receipts := db.receipts.set receiptId receipt }

/-- `INSERT INTO source_record_version ... ON CONFLICT DO NOTHING`. -/
def insertVersion (key : VersionKey) (version : SourceRecordVersion) : Database :=
  match db.versions.get? key with
  | some _ => db
  | none => { db with versions := db.versions.set key version }

end Database

namespace IngestionCall

variable (platform : Platform) (call : IngestionCall) (delivery : VerifiedDelivery)

/-- The receipt of a row before its disposition is known. -/
def pendingReceipt (rowNumber : ℕ) (payload : Payload) (record : FinancialRecord)
    (payloadHash : Text) : SourceReceipt where
  batchId := call.batchId
  rowNumber := rowNumber
  entityType := some delivery.entityType.value
  sourceId := some record.recordId
  sourceVersion := some record.sourceVersion
  payloadHash := payloadHash
  rawPayload := .obj payload.items
  disposition := .pending
  reasonCode := none
  receivedAtUtc := call.asOfUtc
  recordVersion := some ⟨delivery.entityType.value, record.recordId, record.sourceVersion,
    payloadHash⟩

def quarantinedReceipt (rowNumber : ℕ) (payload : Payload) (rejected : QuarantinedRecord)
    (payloadHash : Text) : SourceReceipt where
  batchId := call.batchId
  rowNumber := rowNumber
  entityType := some delivery.entityType.value
  sourceId := rejected.sourceId
  sourceVersion := none
  payloadHash := payloadHash
  rawPayload := .obj payload.items
  disposition := .quarantined
  reasonCode := some rejected.reasonCode
  receivedAtUtc := call.asOfUtc
  recordVersion := none

/-- One turn of the loop over the rows, with the IDs of the entities touched so far. -/
def receiveRow (state : Database × List Text) (row : Payload × ℕ) :
    Except IngestionError (Database × List Text) := do
  call.reach (.receiveRow row.2)
  match parseSourceRecord platform.iso row.1 (.member delivery.entityType) with
  | .error (.contract violation) =>
    let rejected := quarantineFromViolation (.member delivery.entityType) row.1 violation
    let payloadHash ← orRaise (documentFingerprint platform.sha256 (.obj row.1.items))
      IngestionError.unencodableText
    let db ← state.1.insertReceipt (call.receiptId row.2)
      (call.quarantinedReceipt delivery row.2 row.1 rejected payloadHash)
    .ok (db, state.2)
  | .error .overflow => .error .timestampOverflow
  | .ok record =>
    let envelope ← (RecordEnvelope.make? platform.sha256 (call.receiptId row.2) record).mapError
      IngestionError.envelope
    -- The receipt refers to its version, which exists once the second statement has run.
    let db ← state.1.insertReceipt (call.receiptId row.2)
      (call.pendingReceipt delivery row.2 row.1 record envelope.payloadHash)
    let key := ⟨delivery.entityType.value, record.recordId, record.sourceVersion,
      envelope.payloadHash⟩
    .ok (db.insertVersion key ⟨call.batchId, call.receiptId row.2⟩, state.2 ++ [record.recordId])

end IngestionCall

/-! ## Entity resolution -/

def dispositionReason : StoredDisposition → Option Text
  | .stale => some (txt "LOWER_SOURCE_VERSION")
  | .conflicted => some (txt "CONFLICTING_SOURCE_VERSION")
  | .duplicate => some (txt "IDENTICAL_DUPLICATE")
  | _ => none

/-- The receipt with another disposition and the reason for it. -/
def SourceReceipt.dispose (receipt : SourceReceipt) (disposition : StoredDisposition) :
    SourceReceipt :=
  { receipt with
    disposition := disposition
    reasonCode := dispositionReason disposition }

namespace Database

variable (db : Database) (entityType sourceId : Text)

/-- The versions of an entity, the highest first. -/
def versionsOf : List VersionKey :=
  sortedBy (κ := ℤᵒᵈ ×ₗ Text)
    (fun key => toLex (OrderDual.toDual key.sourceVersion, key.payloadHash))
    (db.versions.keys.filter fun key => key.entityType = entityType ∧ key.sourceId = sourceId)

/-- The receipts of an entity with a version, in the batches that count. -/
def rankedReceipts : List (Uuid × SourceReceipt) :=
  db.receipts.items.filter fun p =>
    p.2.entityType = some entityType ∧ p.2.sourceId = some sourceId ∧ p.2.recordVersion.isSome ∧
      (db.batchStatus p.2.batchId = some .committed ∨ db.batchStatus p.2.batchId = some .processing)

/-- The receipt in which the version of a receipt was first seen. -/
def firstSeen (receipt : SourceReceipt) : Option Uuid := do
  let key ← receipt.recordVersion
  let version ← db.versions.get? key
  pure version.firstSeenReceiptId

/-- The order of the receipts of one version: the one first seen, then by arrival. -/
def rankKey (p : Uuid × SourceReceipt) : ℕ ×ₗ UtcDateTime ×ₗ Uuid :=
  toLex (if db.firstSeen p.2 = some p.1 then 0 else 1, toLex (p.2.receivedAtUtc, p.1))

/-- `ROW_NUMBER()` among the receipts of one version and payload. -/
def occurrence (p : Uuid × SourceReceipt) : ℕ :=
  ((db.rankedReceipts entityType sourceId).filter fun q =>
    q.2.sourceVersion = p.2.sourceVersion ∧ q.2.payloadHash = p.2.payloadHash ∧
      db.rankKey q < db.rankKey p).length + 1

def classify (winningVersion : ℤ) (conflicted : Bool) (p : Uuid × SourceReceipt) :
    StoredDisposition :=
  if p.2.sourceVersion.any fun version => version < winningVersion then .stale
  else if conflicted then .conflicted
  else if db.occurrence entityType sourceId p = 1 then .accepted
  else .duplicate

/-- Reclassify every receipt of an entity. -/
def reclassify (winningVersion : ℤ) (conflicted : Bool) : PyDict Uuid SourceReceipt :=
  db.receipts.mapItems fun receiptId receipt =>
    if receiptId ∈ (db.rankedReceipts entityType sourceId).map Prod.fst then
      receipt.dispose
        (db.classify entityType sourceId winningVersion conflicted (receiptId, receipt))
    else receipt

/-- `_resolve_entity`. -/
def resolveEntity : Except IngestionError Database :=
  match db.versionsOf entityType sourceId with
  | [] => .error .noVersion
  | winner :: others =>
    let winningHashes := (((winner :: others).filter fun key =>
      key.sourceVersion = winner.sourceVersion).map VersionKey.payloadHash).dedup
    let conflicted : Bool := 1 < winningHashes.length
    .ok { db with
      resolutions := db.resolutions.set (entityType, sourceId) {
        winningVersion := winner.sourceVersion
        resolutionState := if conflicted then .conflicted else .accepted
        selectedPayloadHash := if conflicted then none else winningHashes.head?
      }
      receipts := db.reclassify entityType sourceId winner.sourceVersion conflicted }

end Database

/-! ## The transaction -/

structure IngestionOutcome where
  batchId : Uuid
  requestId : Uuid
  reusedExistingBatch : Bool
  deriving DecidableEq

namespace IngestionCall

variable (platform : Platform) (call : IngestionCall) (delivery : VerifiedDelivery)

/-- The IDs of the entities that the rows describe. -/
def identityKeys : Except IngestionError (List Text) := do
  let ids ← delivery.records.mapM fun payload =>
    match parseSourceRecord platform.iso payload (.member delivery.entityType) with
    | .ok record => .ok (some record.recordId)
    | .error (.contract _) => .ok none
    | .error .overflow => .error IngestionError.timestampOverflow
  .ok (sortedSet (ids.filterMap id))

/-- What identifies a delivery. -/
def keyDocument : Json := .obj
  [(txt "source_system", .str delivery.sourceSystem.value),
   (txt "report_type", .str delivery.reportType.value),
   (txt "report_date", .str delivery.reportDate.isoformat),
   (txt "source_relative_path", .str delivery.file.relativePath),
   (txt "file_checksum", .str (platform.sha256 delivery.file.dataBytes)),
   (txt "manifest_checksum", .str (platform.sha256 delivery.file.manifestBytes))]

def deliveryKey : Option Text :=
  documentFingerprint platform.sha256 (keyDocument platform delivery)

/-- The batch while its rows are being stored. -/
def processingBatch (deliveryKey : Text) : IngestionBatch where
  deliveryKey := deliveryKey
  sourceSystem := delivery.sourceSystem.value
  reportType := delivery.reportType.value
  reportDate := delivery.reportDate
  originalFilename := delivery.file.name
  fileChecksum := platform.sha256 delivery.file.dataBytes
  manifestChecksum := platform.sha256 delivery.file.manifestBytes
  declaredRowCount := delivery.records.length
  observedRowCount := delivery.records.length
  ingestionStatus := .processing
  sourceRelativePath := some delivery.file.relativePath
  receivedAtUtc := call.asOfUtc

/-- Insert the batch and its evidence. -/
def openBatch (db : Database) (deliveryKey : Text) : Except IngestionError Database := do
  call.reach .insertBatch
  require (db.batches.get? call.batchId = none ∧ ∀ batch ∈ db.batches.values,
    batch.deliveryKey ≠ deliveryKey) (IngestionError.database .uniqueViolation)
  require (storableText delivery.file.name ∧ storableText delivery.file.relativePath)
    (IngestionError.database .untranslatableText)
  require (delivery.records.length ≤ integerMax) (IngestionError.database .numericValueOutOfRange)
  require (db.evidence.get? call.batchId = none) (IngestionError.database .uniqueViolation)
  .ok { db with
    batches := db.batches.set call.batchId (call.processingBatch platform delivery deliveryKey)
    evidence := db.evidence.set call.batchId
      ⟨delivery.file.dataBytes, delivery.file.manifestBytes⟩ }

/-- Store the rows, and resolve the entities they touch. -/
def receiveRows (db : Database) : Except IngestionError Database := do
  let (db, touched) ← (delivery.records.zipIdx 1).foldlM (call.receiveRow platform delivery) (db, [])
  call.reach .resolveEntities
  (sortedSet touched).foldlM (fun db id => db.resolveEntity delivery.entityType.value id) db

/-- Declare the day, commit the batch, and request a rebuild. -/
def closeBatch (db : Database) (deliveryKey : Text) : Except IngestionError Database := do
  call.reach .afterEntityResolution
  call.reach .insertRequest
  let requestKey ← orRaise (documentFingerprint platform.sha256
    (.obj [(txt "verified_delivery", .str deliveryKey)])) IngestionError.unencodableText
  let queue ← (db.publication.queue.insertRequest {
      requestId := call.requestId
      requestKey := requestKey
      triggerReceiptId := if delivery.records = [] then none else some (call.receiptId 1)
      triggerBatchId := some call.batchId
      asOfUtc := call.asOfUtc
    } true call.now).mapError IngestionError.database
  call.reach .beforeCommit
  .ok { db with
    expectedDays :=
      if delivery.reportDate ∈ db.expectedDays then db.expectedDays
      else db.expectedDays ++ [delivery.reportDate]
    batches := db.batches.modify call.batchId (call.processingBatch platform delivery deliveryKey)
      fun batch => { batch with ingestionStatus := .committed }
    publication := { db.publication with queue := queue } }

/-- The batch of a delivery that was ingested before. -/
def reuseBatch (db : Database) (existing : Uuid × IngestionBatch) :
    Except IngestionError IngestionOutcome := do
  require (existing.2.ingestionStatus = .committed) IngestionError.notCommitted
  call.reach .findRequest
  let request ← orRaise (db.publication.queue.requests.items.find? fun p =>
    p.2.triggerBatchId = some existing.1) IngestionError.requestLost
  .ok ⟨existing.1, request.1, true⟩

/-- The transaction of `ingest_source_file`. -/
def transaction (db : Database) : Except IngestionError (Database × IngestionOutcome) := do
  let delivery ← (verifyDelivery platform call.file).mapError IngestionError.delivery
  let ids ← identityKeys platform delivery
  let deliveryKey ← orRaise (deliveryKey platform delivery) IngestionError.unencodableText
  call.reach .locks
  require (∀ id ∈ ids, (encodeUtf8 id).isSome) IngestionError.unencodableText
  call.reach .findBatch
  match db.batches.items.find? fun p => p.2.deliveryKey = deliveryKey with
  | some existing => do
    let outcome ← call.reuseBatch db existing
    .ok (db, outcome)
  | none => do
    let db ← call.openBatch platform delivery db deliveryKey
    let db ← call.receiveRows platform delivery db
    let db ← call.closeBatch platform delivery db deliveryKey
    .ok (db, ⟨call.batchId, call.requestId, false⟩)

/-- `ingest_source_file`: the database afterwards, and what the call returns or raises. -/
def ingestSourceFile (db : Database) : Database × Except IngestionError IngestionOutcome :=
  match call.transaction platform db with
  | .error error => (db, .error error)
  | .ok (committed, outcome) =>
    match call.raises .commit with
    | some error => (db, .error error)
    | none =>
      if outcome.reusedExistingBatch then (committed, .ok outcome)
      else
        -- A lost acknowledgement does not undo the batch.
        match call.raises .afterCommit with
        | some error => (committed, .error error)
        | none => (committed, .ok outcome)

end IngestionCall

/-! ## Deliveries with known digests -/

/-- A digest in lowercase hexadecimal digits. -/
def hexDigest (n : ℕ) : Text :=
  (List.range 64).map fun i =>
    (txt "0123456789abcdef").getD (n / 16 ^ (63 - i) % 16) (ofChar '0')

/-- The bytes of an ASCII text. -/
def asciiBytes (text : Text) : Bytes := ⟨⟨text.map fun c => UInt8.ofNat c.val⟩⟩

/-- A report in an inbox, with the digests of its two files. -/
structure DigestedReport where
  reportType : ReportType
  day : Date
  rows : List Payload
  dataDigest : Text
  manifestDigest : Text

namespace DigestedReport

variable (report : DigestedReport)

def name : Text := report.reportType.value ++ txt "-" ++ report.day.isoformat ++ txt ".json"

def data : Json := .arr (report.rows.map fun row => .obj row.items)

def manifest : Json := .obj
  [(txt "checksum_sha256", .str report.dataDigest),
   (txt "entity_type", .str (reportEntity report.reportType).value),
   (txt "filename", .str report.name),
   (txt "report_date", .str report.day.isoformat),
   (txt "report_type", .str report.reportType.value),
   (txt "row_count", .num (.int report.rows.length)),
   (txt "schema_version", .str (txt "1")),
   (txt "source_system", .str (reportSource report.reportType).value)]

/-- The texts of the two files, with their digests and what they parse to. -/
def files : List (Text × Text × Json) :=
  [(render report.data, report.dataDigest, report.data),
   (render report.manifest, report.manifestDigest, report.manifest)]

/-- An ingestion of the report in which nothing raises. -/
def ingestion (asOfUtc : UtcDateTime) (id : Text) : IngestionCall where
  file := {
    name := report.name
    relativePath := report.name
    dataBytes := asciiBytes (render report.data)
    manifestBytes := asciiBytes (render report.manifest)
  }
  asOfUtc := asOfUtc
  batchId := id
  receiptId n := id ++ txt ":" ++ natText n
  requestId := id
  now := 0
  raises _ := none

end DigestedReport

def startsWith (bytes : Bytes) (text : Text) : Bool :=
  (text.map fun c => c.val).isPrefixOf (bytes.data.toList.map UInt8.toNat)

/-- Reports with what is needed to read them. Other documents are told apart by how they begin. -/
structure Inbox where
  reports : List DigestedReport
  digests : List (Text × Text)
  times : List UtcDateTime
  days : List Date

namespace Inbox

variable (inbox : Inbox)

def files : List (Text × Text × Json) := inbox.reports.flatMap DigestedReport.files

/-- The hash function that gives the listed digests. -/
def sha256 (bytes : Bytes) : Text :=
  match inbox.digests.find? fun d => startsWith bytes d.1 with
  | some d => d.2
  | none => ((inbox.files.find? fun f => startsWith bytes f.1).map fun f => f.2.1).getD []

def platform : Platform where
  sha256 := inbox.sha256
  iso := {
    date := fun s => inbox.days.find? fun day => day.isoformat = s
    datetime := fun s => (inbox.times.find? fun time => time.isoformat = s).map fun time =>
      .aware (some time)
  }
  strictJson bytes := (inbox.files.find? fun f => startsWith bytes f.1).map fun f => f.2.2
  -- Berlin is two hours ahead in September.
  berlinToUtc day hour := ⟨day, Fin.ofNat _ ((hour - 2) * 3600000000)⟩

/-- The database after some ingestions. -/
def ingested (calls : List IngestionCall) : Database :=
  calls.foldl (fun db call => (call.ingestSourceFile inbox.platform db).1) ∅

end Inbox

end Threadline
