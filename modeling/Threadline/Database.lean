import Threadline.PublicationRuns
import Threadline.SourceContract

/-!
# The database

The tables of the ingestion ledger, the entity resolution and the publications.
What the Python library computes on the way is collected in a `Platform`.
-/

open PyText PyJson PyCalendar PySorted

namespace Threadline

/-- The library functions that the durable path calls. -/
structure Platform where
  sha256 : Bytes → Text
  iso : IsoParsers
  /-- `strict_json`, which raises on other bytes. -/
  strictJson : Bytes → Option Json
  berlinToUtc : Date → ℕ → UtcDateTime

inductive IngestionStatus
  | received | processing | committed | failed
  deriving DecidableEq

inductive StoredDisposition
  | pending | accepted | stale | duplicate | conflicted | quarantined
  deriving DecidableEq

/-- A row of `ingestion_batch`, without its ID. -/
structure IngestionBatch where
  deliveryKey : Text
  sourceSystem : Text
  reportType : Text
  reportDate : Date
  originalFilename : Text
  fileChecksum : Text
  manifestChecksum : Text
  declaredRowCount : ℤ
  observedRowCount : ℤ
  ingestionStatus : IngestionStatus
  sourceRelativePath : Option Text
  receivedAtUtc : UtcDateTime
  deriving DecidableEq

/-- A row of `verified_delivery_evidence`. -/
structure DeliveryEvidence where
  dataBytes : Bytes
  manifestBytes : Bytes
  deriving DecidableEq

/-- The unique columns of `source_record_version`. -/
structure VersionKey where
  entityType : Text
  sourceId : Text
  sourceVersion : ℤ
  payloadHash : Text
  deriving DecidableEq

/-- A row of `source_record_version`, under its unique columns. -/
structure SourceRecordVersion where
  firstSeenBatchId : Uuid
  firstSeenReceiptId : Uuid
  deriving DecidableEq

/-- A row of `source_receipt`, without its ID. The record version it refers to is given by the
unique columns of that row. -/
structure SourceReceipt where
  batchId : Uuid
  rowNumber : ℕ
  entityType : Option Text
  sourceId : Option Text
  sourceVersion : Option ℤ
  payloadHash : Text
  rawPayload : Json
  disposition : StoredDisposition
  reasonCode : Option Text
  receivedAtUtc : UtcDateTime
  recordVersion : Option VersionKey

inductive ResolutionState
  | accepted | conflicted
  deriving DecidableEq

/-- A row of `entity_resolution`. -/
structure EntityResolution where
  winningVersion : ℤ
  resolutionState : ResolutionState
  selectedPayloadHash : Option Text
  deriving DecidableEq

structure Database where
  batches : PyDict Uuid IngestionBatch
  evidence : PyDict Uuid DeliveryEvidence
  receipts : PyDict Uuid SourceReceipt
  versions : PyDict VersionKey SourceRecordVersion
  /-- `entity_resolution` by entity type and source ID. -/
  resolutions : PyDict (Text × Text) EntityResolution
  expectedDays : List Date
  publication : PublicationState

instance : EmptyCollection Database := ⟨⟨∅, ∅, ∅, ∅, ∅, [], ∅⟩⟩

namespace Database

variable (db : Database)

/-- The status of the batch a row belongs to: the inner join with `ingestion_batch`. -/
def batchStatus (batchId : Uuid) : Option IngestionStatus :=
  (db.batches.get? batchId).map IngestionBatch.ingestionStatus

/-- The batch is committed or failed. -/
def finalized (batchId : Uuid) : Bool :=
  db.batchStatus batchId = some .committed || db.batchStatus batchId = some .failed

/-- The receipts of a batch. -/
def receiptsOf (batchId : Uuid) : List (Uuid × SourceReceipt) :=
  db.receipts.items.filter fun p => p.2.batchId = batchId

end Database

end Threadline
