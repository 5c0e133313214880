import Threadline.IngestedRows
import Threadline.PublishedPoint

/-!
# Runs of the database

Ingestions interleaved with the recovery worker and the operations on its queue.
After every committed ingestion all receipts belong to committed batches, and
every entity is resolved.
-/

open PyText PyJson PyCalendar PySorted PyExcept Runs

namespace Threadline

/-- What an ingestion that has committed a new batch has done. -/
structure Ingested (platform : Platform) (call : IngestionCall) (db db' : Database)
    (delivery : VerifiedDelivery) (deliveryKey : Text) (stored : List (Uuid × SourceReceipt)) :
    Prop where
  verified : verifyDelivery platform call.file = .ok delivery
  key : IngestionCall.deliveryKey platform delivery = some deliveryKey
  freshKey : ∀ batch ∈ db.batches.values, batch.deliveryKey ≠ deliveryKey
  freshBatch : db.batches.get? call.batchId = none
  rows : (delivery.records.zipIdx 1).mapM (call.storedRow platform delivery) = some stored
  receipts : db'.receipts.items.map coreRow = (db.receipts.items ++ stored).map coreRow
  batches : db'.batches = db.batches.set call.batchId
    { call.processingBatch platform delivery deliveryKey with ingestionStatus := .committed }
  evidence : db'.evidence = db.evidence.set call.batchId
    ⟨delivery.file.dataBytes, delivery.file.manifestBytes⟩
  days : db'.expectedDays = if delivery.reportDate ∈ db.expectedDays then db.expectedDays
    else db.expectedDays ++ [delivery.reportDate]
  request : ∃ requestKey, db.publication.queue.insertRequest {
      requestId := call.requestId
      requestKey := requestKey
      triggerReceiptId := if delivery.records = [] then none else some (call.receiptId 1)
      triggerBatchId := some call.batchId
      asOfUtc := call.asOfUtc
    } true call.now = .ok db'.publication.queue
  publication : db'.publication = { db.publication with queue := db'.publication.queue }

/-- The invariant of the ingestion tables between transactions. -/
structure Settled (platform : Platform) (db : Database) : Prop where
  ledger : Ledger platform db
  resolved : Resolved db
  committed : ∀ p ∈ db.batches.items, p.2.ingestionStatus = .committed

section

variable {platform : Platform} {call : IngestionCall} {db db' : Database}

theorem settled_empty : Settled platform ∅ where
  ledger := {
    counted := fun _ h => nomatch h
    receipts := fun _ h => nomatch h
    versions := fun _ => iff_of_false (fun h => nomatch h) fun ⟨_, h, _⟩ => nomatch h
  }
  resolved _ _ := rfl
  committed _ h := nomatch h

/-- Opening a batch keeps the invariant of the receipts. -/
theorem Ledger.setBatch (h : Ledger platform db) (batchId : Uuid) (batch : IngestionBatch)
    (evidence : PyDict Uuid DeliveryEvidence)
    (hstatus : batch.ingestionStatus = .committed ∨ batch.ingestionStatus = .processing) :
    Ledger platform { db with
      batches := db.batches.set batchId batch
      evidence := evidence } where
  counted p hp := by
    unfold Database.Counted Database.batchStatus
    rw [PyDict.get?_set]
    split_ifs
    · simpa using hstatus
    · exact h.counted p hp
  receipts := h.receipts
  versions := h.versions

theorem openBatch_eq_ok {delivery : VerifiedDelivery} {deliveryKey : Text}
    (h : call.openBatch platform delivery db deliveryKey = .ok db') :
    db.batches.get? call.batchId = none ∧
      (∀ batch ∈ db.batches.values, batch.deliveryKey ≠ deliveryKey) ∧
      db' = { db with
        batches := db.batches.set call.batchId (call.processingBatch platform delivery deliveryKey)
        evidence := db.evidence.set call.batchId
          ⟨delivery.file.dataBytes, delivery.file.manifestBytes⟩ } := by
  simp only [IngestionCall.openBatch, bind_eq_ok, require_eq_ok] at h
  obtain ⟨-, -, -, ⟨hfresh, hkey⟩, -, -, -, -, -, -, h⟩ := h
  exact ⟨hfresh, hkey, (Except.ok.inj h).symm⟩

/-- What closing a batch writes. -/
theorem closeBatch_eq_ok {delivery : VerifiedDelivery} {deliveryKey : Text}
    (h : call.closeBatch platform delivery db deliveryKey = .ok db') :
    ∃ requestKey queue, db.publication.queue.insertRequest {
        requestId := call.requestId
        requestKey := requestKey
        triggerReceiptId := if delivery.records = [] then none else some (call.receiptId 1)
        triggerBatchId := some call.batchId
        asOfUtc := call.asOfUtc
      } true call.now = .ok queue ∧
      db' = { db with
        expectedDays := if delivery.reportDate ∈ db.expectedDays then db.expectedDays
          else db.expectedDays ++ [delivery.reportDate]
        batches := db.batches.modify call.batchId
          (call.processingBatch platform delivery deliveryKey)
          fun batch => { batch with ingestionStatus := .committed }
        publication := { db.publication with queue := queue } } := by
  simp only [IngestionCall.closeBatch, bind_eq_ok, orRaise_eq_ok, mapError_eq_ok] at h
  obtain ⟨-, -, -, -, requestKey, -, queue, hqueue, -, -, h⟩ := h
  exact ⟨requestKey, queue, hqueue, (Except.ok.inj h).symm⟩

/-- A transaction that commits finds the delivery ingested, or ingests it. -/
theorem Settled.transaction (h : Settled platform db) {outcome : IngestionOutcome}
    (htransaction : call.transaction platform db = .ok (db', outcome)) :
    (db' = db ∧ outcome.reusedExistingBatch = true) ∨
      ∃ delivery deliveryKey stored, Ingested platform call db db' delivery deliveryKey stored ∧
        Settled platform db' ∧ outcome = ⟨call.batchId, call.requestId, false⟩ := by
  simp only [IngestionCall.transaction, bind_eq_ok, mapError_eq_ok, orRaise_eq_ok] at htransaction
  obtain ⟨delivery, hverified, -, -, deliveryKey, hkey, -, -, -, -, -, -, htransaction⟩ := htransaction
  split at htransaction
  next existing hexisting =>
    obtain ⟨reused, hreuse, hresult⟩ := bind_eq_ok.mp htransaction
    obtain ⟨rfl, rfl⟩ := Prod.mk.inj (Except.ok.inj hresult)
    simp only [IngestionCall.reuseBatch, bind_eq_ok] at hreuse
    obtain ⟨-, -, -, -, request, -, hreuse⟩ := hreuse
    obtain rfl := Except.ok.inj hreuse
    exact .inl ⟨rfl, rfl⟩
  next hexisting =>
    simp only [bind_eq_ok] at htransaction
    obtain ⟨opened, hopen, received, hreceive, closed, hclose, hresult⟩ := htransaction
    obtain ⟨rfl, rfl⟩ := Prod.mk.inj (Except.ok.inj hresult)
    obtain ⟨hfresh, hfreshKey, rfl⟩ := openBatch_eq_ok hopen
    have hledger := h.ledger.setBatch call.batchId (call.processingBatch platform delivery deliveryKey)
      (db.evidence.set call.batchId
        ⟨delivery.file.dataBytes, delivery.file.manifestBytes⟩) (.inr rfl)
    obtain ⟨stored, hstored, hledger, hresolved, hcore, receipts, versions, resolutions, rfl⟩ :=
      hledger.receiveRows_ok h.resolved
        (.inr (by simp [Database.batchStatus, IngestionCall.processingBatch])) hreceive
    obtain ⟨requestKey, queue, hqueue, rfl⟩ := closeBatch_eq_ok hclose
    have hbatches : (db.batches.set call.batchId
        (call.processingBatch platform delivery deliveryKey)).modify call.batchId
          (call.processingBatch platform delivery deliveryKey)
          (fun batch => { batch with ingestionStatus := .committed }) =
        db.batches.set call.batchId
          { call.processingBatch platform delivery deliveryKey with
            ingestionStatus := .committed } := by
      simp [PyDict.modify, PyDict.getD]
    refine .inr ⟨delivery, deliveryKey, stored, ⟨hverified, hkey, hfreshKey, hfresh, hstored, hcore,
      hbatches, rfl, rfl, ⟨requestKey, hqueue⟩, rfl⟩, ⟨?_, hresolved, ?_⟩, rfl⟩
    · have hclosed := hledger.setBatch call.batchId
        { call.processingBatch platform delivery deliveryKey with
          ingestionStatus := .committed }
        (db.evidence.set call.batchId
          ⟨delivery.file.dataBytes, delivery.file.manifestBytes⟩) (.inl rfl)
      simp only [PyDict.set_set, ← hbatches] at hclosed
      exact ⟨hclosed.counted, hclosed.receipts, hclosed.versions⟩
    · intro p hp
      simp only [hbatches, PyDict.items_set_of_get?_none hfresh, List.mem_append,
        List.mem_singleton] at hp
      rcases hp with hp | rfl
      · exact h.committed p hp
      · rfl

/-- `ingest_source_file` leaves the database of its transaction, or the one it found. -/
theorem ingestSourceFile_cases (platform : Platform) (call : IngestionCall) (db : Database) :
    (call.ingestSourceFile platform db).1 = db ∨ ∃ db' outcome,
      call.transaction platform db = .ok (db', outcome) ∧
        (call.ingestSourceFile platform db).1 = db' := by
  unfold IngestionCall.ingestSourceFile
  split
  · exact .inl rfl
  next db' outcome htransaction =>
    split
    · exact .inl rfl
    · split_ifs
      · exact .inr ⟨db', outcome, htransaction, rfl⟩
      · refine .inr ⟨db', outcome, htransaction, ?_⟩
        split <;> rfl

end

/-! ## Events -/

/-- A call in its own transaction. -/
inductive DatabaseEvent
  | ingest (call : IngestionCall)
  | runNext (call : Call)
  | recordFailure (requestId : Uuid) (error : Text) (now done : Instant)
  | requeueFailed (requestId : Uuid) (additionalAttempts : ℤ) (now : Instant)

namespace Database

variable (platform : Platform)

def step (db : Database) : DatabaseEvent → Database
  | .ingest call => (call.ingestSourceFile platform db).1
  | .runNext call => { db with
      publication := (call.runNext platform.berlinToUtc platform.sha256 db.publication).1 }
  | .recordFailure requestId error now done => { db with
      publication := { db.publication with
        queue := db.publication.queue.step (.recordFailure requestId error now done) } }
  | .requeueFailed requestId additionalAttempts now => { db with
      publication := { db.publication with
        queue := db.publication.queue.step (.requeueFailed requestId additionalAttempts now) } }

/-- The database after a sequence of events on an empty one. -/
def after (events : List DatabaseEvent) : Database := run (step platform) ∅ events

end Database

section

variable {platform : Platform} {db : Database}

/-- An ingestion commits a new batch, or leaves the database as it was. -/
theorem Settled.ingest_cases (h : Settled platform db) (call : IngestionCall) :
    (call.ingestSourceFile platform db).1 = db ∨
      ∃ delivery deliveryKey stored, Ingested platform call db (call.ingestSourceFile platform db).1
        delivery deliveryKey stored ∧ Settled platform (call.ingestSourceFile platform db).1 := by
  obtain hsame | ⟨db', outcome, htransaction, hdb'⟩ := ingestSourceFile_cases platform call db
  · exact .inl hsame
  · rw [hdb']
    obtain ⟨rfl, -⟩ | ⟨delivery, deliveryKey, stored, hingested, hsettled, -⟩ :=
      h.transaction htransaction
    · exact .inl rfl
    · exact .inr ⟨delivery, deliveryKey, stored, hingested, hsettled⟩

/-- The other tables play no part in the invariant. -/
theorem Settled.setPublication (h : Settled platform db) (publication : PublicationState) :
    Settled platform { db with publication := publication } :=
  ⟨⟨h.ledger.counted, h.ledger.receipts, h.ledger.versions⟩, h.resolved, h.committed⟩

theorem Settled.step (h : Settled platform db) (event : DatabaseEvent) :
    Settled platform (db.step platform event) := by
  cases event with
  | ingest call =>
    obtain hsame | ⟨_, _, _, -, hsettled⟩ := h.ingest_cases call
    · rw [Database.step, hsame]
      exact h
    · exact hsettled
  | runNext call => exact h.setPublication _
  | recordFailure requestId error now done => exact h.setPublication _
  | requeueFailed requestId additionalAttempts now => exact h.setPublication _

theorem settled_after (events : List DatabaseEvent) :
    Settled platform (Database.after platform events) := by
  have hstep : ∀ (db : Database) event, Settled platform db →
      Settled platform (db.step platform event) := fun _ event h => h.step event
  exact run_invariant hstep settled_empty events

end

end Threadline
