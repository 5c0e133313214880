import Threadline.DatabaseRuns
import Threadline.StoredResult

/-!
# Inspecting a request

`inspect_recovery` derives the next action for a request from the tables, and
raises where they contradict each other. For the requests that ingestion makes
it raises only when the delivery had no rows.
-/

open PyText PyJson PyCalendar PySorted PyExcept Runs

namespace Threadline

inductive RecoveryAction
  | retryNow | waitForRetry | doNotRepeat | manualRequeue | checkAgain | investigateMissingRequest
  deriving DecidableEq

/-- A `RecoveryStateError`, or the `AttributeError` of a payload that is not a mapping. -/
inductive RecoveryStateError
  | sourceEvidence
  | missingResult
  | hashesDisagree
  | artifact
  | unsupportedVersion (version : Json)
  | failedRequest
  | pendingRequest
  | payloadType
  deriving DecidableEq

structure RecoveryObservation where
  requestId : Uuid
  requestStatus : Option RequestStatus
  action : RecoveryAction
  reason : Text
  attemptCount : Option ℕ
  maxAttempts : Option ℕ
  nextAttemptAtUtc : Option Instant
  resultRunId : Option Uuid
  deriving DecidableEq

/-- An observation without a row. -/
def RecoveryObservation.unknown (requestId : Uuid) (action : RecoveryAction) (reason : Text) :
    RecoveryObservation := ⟨requestId, none, action, reason, none, none, none, none⟩

/-- An observation with the common columns of its row. -/
def RecoveryObservation.common (requestId : Uuid) (request : RecoveryRequest)
    (action : RecoveryAction) (reason : Text) : RecoveryObservation where
  requestId := requestId
  requestStatus := some request.status
  action := action
  reason := reason
  attemptCount := some request.attemptCount
  maxAttempts := some request.maxAttempts
  nextAttemptAtUtc := some request.nextAttemptAtUtc
  resultRunId := request.resultRunId

/-- `payload.get("financial_fingerprint_version", 1)`. -/
def fingerprintVersion (payload : Json) : Except RecoveryStateError Json :=
  match payload with
  | .obj members =>
    match members.find? fun m => m.1 = txt "financial_fingerprint_version" with
    | some m => .ok m.2
    | none => .ok (.num (.int 1))
  | _ => .error .payloadType

/-- `value == n`. -/
def equalsInt (value : Json) (n : ℤ) : Bool :=
  match value with
  | .num (.int m) => m = n
  | .num (.float r) => decimalText? r.text = some (n : ℚ)
  | .bool b => (if b then 1 else 0) = n
  | _ => false

/-- `verify_stored_financial_result`, where it does not raise. -/
def verifyStoredFinancialResult (sha256 : Bytes → Text) (stored : RecoveryResult) : Prop :=
  logicalFingerprint sha256 (jsonToValue stored.resultPayload) = some stored.logicalFingerprint

instance (sha256 : Bytes → Text) (stored : RecoveryResult) :
    Decidable (verifyStoredFinancialResult sha256 stored) :=
  inferInstanceAs (Decidable (_ = _))

/-- What is checked of a request that has succeeded. -/
def inspectSucceeded (sha256 : Bytes → Text) (request : RecoveryRequest)
    (run : Option ReconciliationRun) (stored : Option RecoveryResult) :
    Except RecoveryStateError Unit := do
  require (request.resultRunId ≠ none) RecoveryStateError.missingResult
  require (request.completedAtUtc ≠ none) RecoveryStateError.missingResult
  require (run.map ReconciliationRun.status = some .published) RecoveryStateError.missingResult
  match stored with
  | none => .error .missingResult
  | some stored => do
    require (stored.resultPayload ≠ .null) RecoveryStateError.missingResult
    require (run.map ReconciliationRun.resultHash = some stored.logicalFingerprint)
      RecoveryStateError.hashesDisagree
    let version ← fingerprintVersion stored.resultPayload
    if equalsInt version financialFingerprintVersion then
      require (verifyStoredFinancialResult sha256 stored) RecoveryStateError.artifact
    else require (equalsInt version 1) (RecoveryStateError.unsupportedVersion version)

/-- What is checked of a request whose attempts are exhausted. -/
def inspectFailed (request : RecoveryRequest) : Except RecoveryStateError Unit :=
  require (request.resultRunId = none ∧ request.completedAtUtc ≠ none ∧ request.lastError ≠ none)
    RecoveryStateError.failedRequest

def inspectPending (request : RecoveryRequest) : Except RecoveryStateError Unit :=
  require (request.resultRunId = none ∧ request.completedAtUtc = none ∧
    request.attemptCount < request.maxAttempts) RecoveryStateError.pendingRequest

namespace Database

variable (platform : Platform) (db : Database)

/-- The status of the batch of the triggering receipt: two outer joins. -/
def sourceBatchStatus (request : RecoveryRequest) : Option IngestionStatus := do
  let receiptId ← request.triggerReceiptId
  let receipt ← db.receipts.get? receiptId
  db.batchStatus receipt.batchId

/-- `inspect_recovery`, with the reading of the server's clock unless the connection fails. -/
def inspectRecovery (requestId : Uuid) (reading : Option Instant) :
    Except RecoveryStateError RecoveryObservation :=
  match reading, db.publication.queue.requests.get? requestId with
  | none, _ => .ok (.unknown requestId .checkAgain (txt
      "Database state could not be read. Reconnect and inspect " ++ txt
      "the same request before deciding whether to retry."))
  | some _, none => .ok (.unknown requestId .investigateMissingRequest (txt
      "The request does not exist. Inspect its source ingestion " ++ txt
      "and scheduling transaction before creating another request."))
  | some now, some request => do
    require (db.sourceBatchStatus request = some .committed) RecoveryStateError.sourceEvidence
    match request.status with
    | .succeeded => do
      inspectSucceeded platform.sha256 request
        (request.resultRunId.bind db.publication.runs.get?)
        (request.resultRunId.bind db.publication.results.get?)
      .ok (.common requestId request .doNotRepeat (txt
        "The request already committed a published result. " ++ txt
        "A later publication may have advanced the current pointer."))
    | .failed => do
      inspectFailed request
      .ok (.common requestId request .manualRequeue (txt
        "Automatic attempts are exhausted. Fix the underlying " ++ txt
        "problem, then explicitly grant additional attempts."))
    | .pending => do
      inspectPending request
      if request.nextAttemptAtUtc ≤ now then
        .ok (.common requestId request .retryNow (txt
          "The request is eligible. Execute it through the " ++ txt
          "normal locked queue consumer."))
      else .ok (.common requestId request .waitForRetry (txt
          "The request is waiting for its scheduled retry time."))

end Database

/-- The action that goes with the status of a request. -/
def RecoveryRequest.dueAction (request : RecoveryRequest) (now : Instant) : RecoveryAction :=
  match request.status with
  | .succeeded => .doNotRepeat
  | .failed => .manualRequeue
  | .pending => if request.nextAttemptAtUtc ≤ now then .retryNow else .waitForRetry

/-! ## Requests and what triggered them -/

namespace RecoveryQueue

/-- What triggered a request. -/
def trigger (request : RecoveryRequest) : Option Uuid × Option Uuid :=
  (request.triggerReceiptId, request.triggerBatchId)

/-- The later queue has the same requests with the same triggers. -/
def KeepsTriggers (q q' : RecoveryQueue) : Prop :=
  ∀ id, (q'.requests.get? id).map trigger = (q.requests.get? id).map trigger

variable {q : RecoveryQueue}

theorem KeepsTriggers.refl : q.KeepsTriggers q := fun _ => rfl

theorem keepsTriggers_set {requestId : Uuid} {old row : RecoveryRequest}
    {attempts : PyDict (Uuid × ℕ) RecoveryAttempt} (hget : q.requests.get? requestId = some old)
    (hreceipt : row.triggerReceiptId = old.triggerReceiptId)
    (hbatch : row.triggerBatchId = old.triggerBatchId) :
    q.KeepsTriggers ⟨q.requests.set requestId row, attempts⟩ := by
  intro id
  rw [PyDict.get?_set]
  split_ifs with hid
  · subst hid
    rw [hget, Option.map_some, Option.map_some, trigger, trigger, hreceipt, hbatch]
  · rfl

/-- Each request is found in the queue of before. -/
theorem KeepsTriggers.before {q' : RecoveryQueue} (h : q.KeepsTriggers q') {id : Uuid}
    {r' : RecoveryRequest} (hget : q'.requests.get? id = some r') :
    ∃ r, q.requests.get? id = some r ∧ r'.triggerReceiptId = r.triggerReceiptId ∧
      r'.triggerBatchId = r.triggerBatchId := by
  have hmap := h id
  rw [hget, Option.map_some, eq_comm, Option.map_eq_some_iff] at hmap
  obtain ⟨r, hr, htrigger⟩ := hmap
  obtain ⟨hreceipt, hbatch⟩ := Prod.mk.inj htrigger
  exact ⟨r, hr, hreceipt.symm, hbatch.symm⟩

/-- Failures keep the triggers. -/
theorem keepsTriggers_recordFailure (requestId : Uuid) (error : Text) (now done : Instant) :
    q.KeepsTriggers (q.step (.recordFailure requestId error now done)) := by
  unfold step
  split
  next q' hperform =>
    obtain ⟨request, hget, ⟨-, rfl⟩ | ⟨-, rfl⟩⟩ := recordFailure_eq_ok hperform
    · exact .refl
    · exact keepsTriggers_set hget rfl rfl
  · exact .refl

theorem keepsTriggers_requeueFailed (requestId : Uuid) (additionalAttempts : ℤ) (now : Instant) :
    q.KeepsTriggers (q.step (.requeueFailed requestId additionalAttempts now)) := by
  unfold step
  split
  next q' hperform =>
    obtain ⟨request, hget, -, -, rfl⟩ := requeueFailed_eq_ok hperform
    exact keepsTriggers_set hget rfl rfl
  · exact .refl

end RecoveryQueue

/-- A call of the worker keeps the triggers. -/
theorem keepsTriggers_runNext (berlinToUtc : Date → ℕ → UtcDateTime) (sha256 : Bytes → Text)
    (s : PublicationState) (call : Call) :
    s.queue.KeepsTriggers (call.runNext berlinToUtc sha256 s).1.queue := by
  by_cases hc : call.Commits berlinToUtc sha256 s
  · obtain ⟨requestId, request, ⟨s', outcome⟩, hreach, hready, hpublish, hcommit⟩ := hc
    rw [Call.runNext_of_publish hreach hready hpublish hcommit]
    obtain ⟨request', candidate, rows, hp, rfl, -⟩ := Call.publish_eq_ok hpublish
    exact RecoveryQueue.keepsTriggers_set hp.stored rfl rfl
  · obtain hs | ⟨requestId, request, error, -, hs⟩ := Call.runNext_of_not_commits hc
    · rw [hs]
      exact .refl
    · rw [hs]
      exact RecoveryQueue.keepsTriggers_recordFailure requestId _ _ _

/-- The delivery behind a request, whose first receipt triggered it. -/
structure Triggered (db : Database) (request : RecoveryRequest) (batchId : Uuid)
    (batch : IngestionBatch) : Prop where
  triggerBatch : request.triggerBatchId = some batchId
  stored : db.batches.get? batchId = some batch
  triggerReceipt : if 0 < batch.observedRowCount then
      ∃ receiptId receipt, request.triggerReceiptId = some receiptId ∧
        db.receipts.get? receiptId = some receipt ∧ receipt.batchId = batchId
    else request.triggerReceiptId = none

/-- The invariant of all tables. -/
structure Recovering (platform : Platform) (db : Database) : Prop where
  settled : Settled platform db
  sound : db.publication.Sound platform.berlinToUtc platform.sha256
  triggered : ∀ requestId request, db.publication.queue.requests.get? requestId = some request →
    ∃ batchId batch, Triggered db request batchId batch

section

variable {platform : Platform} {db db' : Database}

/-- Later batches and receipts leave the trigger of a request alone. -/
theorem Triggered.mono {request request' : RecoveryRequest} {batchId : Uuid}
    {batch : IngestionBatch} (h : Triggered db request batchId batch)
    (hreceiptId : request'.triggerReceiptId = request.triggerReceiptId)
    (hbatchId : request'.triggerBatchId = request.triggerBatchId)
    (hbatches : ∀ id b, db.batches.get? id = some b → db'.batches.get? id = some b)
    (hreceipts : ∀ id r, db.receipts.get? id = some r →
      ∃ r', db'.receipts.get? id = some r' ∧ r'.batchId = r.batchId) :
    Triggered db' request' batchId batch := by
  obtain ⟨htrigger, hstored, hreceipt⟩ := h
  refine ⟨hbatchId.trans htrigger, hbatches _ _ hstored, ?_⟩
  split_ifs at hreceipt ⊢
  · obtain ⟨receiptId, receipt, htrigger, hget, hbatch⟩ := hreceipt
    obtain ⟨receipt', hget', hbatch'⟩ := hreceipts receiptId receipt hget
    exact ⟨receiptId, receipt', hreceiptId.trans htrigger, hget', hbatch'.trans hbatch⟩
  · exact hreceiptId.trans hreceipt

theorem coreRow_fst (p : Uuid × SourceReceipt) : (coreRow p).1 = p.1 := rfl

theorem coreRow_batchId (p : Uuid × SourceReceipt) : (coreRow p).2.batchId = p.2.batchId := by
  unfold coreRow
  dsimp only
  split_ifs <;> rfl

variable {call : IngestionCall} {delivery : VerifiedDelivery} {deliveryKey : Text}
  {stored : List (Uuid × SourceReceipt)}

/-- The receipts of before, and those of the rows, are stored afterwards. -/
theorem Ingested.receipt (h : Ingested platform call db db' delivery deliveryKey stored)
    {p : Uuid × SourceReceipt} (hp : p ∈ db.receipts.items ∨ p ∈ stored) :
    ∃ r', db'.receipts.get? p.1 = some r' ∧ r'.batchId = p.2.batchId := by
  have hmem : coreRow p ∈ db'.receipts.items.map coreRow := by
    rw [h.receipts]
    exact List.mem_map_of_mem (List.mem_append.mpr hp)
  obtain ⟨q, hq, hpq⟩ := List.mem_map.mp hmem
  have hid : q.1 = p.1 := by rw [← coreRow_fst q, hpq, coreRow_fst]
  have hbatch : q.2.batchId = p.2.batchId := by
    rw [← coreRow_batchId q, ← coreRow_batchId p, hpq]
  exact ⟨q.2, hid ▸ PyDict.mem_items_iff.mp hq, hbatch⟩

theorem Ingested.batch (h : Ingested platform call db db' delivery deliveryKey stored)
    {batchId : Uuid} {batch : IngestionBatch} (hget : db.batches.get? batchId = some batch) :
    db'.batches.get? batchId = some batch := by
  rw [h.batches, PyDict.get?_set, if_neg, hget]
  rintro rfl
  cases h.freshBatch.symm.trans hget

/-- The first row of a delivery is stored under the receipt ID that triggers the request. -/
theorem Ingested.firstRow (h : Ingested platform call db db' delivery deliveryKey stored)
    (hne : delivery.records ≠ []) :
    ∃ p ∈ stored, p.1 = call.receiptId 1 ∧ p.2.batchId = call.batchId := by
  obtain ⟨row, rows, hrows⟩ := List.exists_cons_of_ne_nil hne
  have hmapM := h.rows
  rw [hrows, List.zipIdx_cons, List.mapM_cons] at hmapM
  simp only [Option.bind_eq_bind, Option.bind_eq_some_iff, Option.pure_def,
    Option.some.injEq] at hmapM
  obtain ⟨p, hp, rest, -, rfl⟩ := hmapM
  obtain ⟨hid, hbatch, -⟩ := storedRow_spec hp
  exact ⟨p, List.mem_cons_self, hid, hbatch⟩

/-- The request of an ingestion is triggered by its delivery. -/
theorem Ingested.triggered (h : Ingested platform call db db' delivery deliveryKey stored)
    {request : RecoveryRequest} (hbatch : request.triggerBatchId = some call.batchId)
    (hreceipt : request.triggerReceiptId =
      if delivery.records = [] then none else some (call.receiptId 1)) :
    ∃ batchId batch, Triggered db' request batchId batch := by
  refine ⟨call.batchId, _, hbatch, by rw [h.batches, PyDict.get?_set, if_pos rfl], ?_⟩
  have hcount : (0 : ℤ) < delivery.records.length ↔ delivery.records ≠ [] := by
    rw [Int.natCast_pos, List.length_pos_iff]
  change if (0 : ℤ) < delivery.records.length then _ else _
  by_cases hempty : delivery.records = []
  · rw [if_neg (hcount.not.mpr (not_not.mpr hempty)), hreceipt, if_pos hempty]
  · rw [if_pos (hcount.mpr hempty)]
    obtain ⟨p, hp, hid, hpb⟩ := h.firstRow hempty
    obtain ⟨r', hget, hbatch'⟩ := h.receipt (.inr hp)
    exact ⟨call.receiptId 1, r', by rw [hreceipt, if_neg hempty], hid ▸ hget, hbatch'.trans hpb⟩

/-! ## All calls -/

theorem recovering_empty : Recovering platform ∅ where
  settled := settled_empty
  sound := PublicationState.sound_empty
  triggered _ _ h := nomatch h

/-- A call that only touches the requests it finds keeps the invariant. -/
theorem Recovering.setPublication (h : Recovering platform db) {publication : PublicationState}
    (hsound : publication.Sound platform.berlinToUtc platform.sha256)
    (hkeeps : db.publication.queue.KeepsTriggers publication.queue) :
    Recovering platform { db with publication := publication } where
  settled := h.settled.setPublication publication
  sound := hsound
  triggered requestId request' hget' := by
    obtain ⟨request, hget, hreceipt, hbatch⟩ := hkeeps.before hget'
    obtain ⟨batchId, batch, htriggered⟩ := h.triggered requestId request hget
    exact ⟨batchId, batch, htriggered.mono hreceipt hbatch (fun _ _ hb => hb)
      fun _ r hr => ⟨r, hr, rfl⟩⟩

theorem Recovering.ingest (h : Recovering platform db)
    (hingested : Ingested platform call db db' delivery deliveryKey stored)
    (hsettled : Settled platform db') : Recovering platform db' := by
  obtain ⟨requestKey, hinsert⟩ := hingested.request
  have hinserted := RecoveryQueue.insertRequest_eq_ok hinsert
  refine ⟨hsettled, ?_, ?_⟩
  · -- To the publication tables the ingestion is an enqueuing.
    have hsound := h.sound.queueStep (.enqueue {
        requestId := call.requestId
        requestKey := requestKey
        triggerReceiptId := if delivery.records = [] then none else some (call.receiptId 1)
        triggerBatchId := some call.batchId
        asOfUtc := call.asOfUtc
      } true call.now) fun hcompletes => hcompletes
    rw [hingested.publication]
    simpa only [RecoveryQueue.step, RecoveryQueue.perform, hinsert, Except.mapError] using hsound
  · intro requestId request hget
    rw [hinserted.2.2, PyDict.get?_set] at hget
    by_cases hid : call.requestId = requestId
    · rw [if_pos hid] at hget
      obtain rfl := Option.some.inj hget
      exact hingested.triggered rfl rfl
    · rw [if_neg hid] at hget
      obtain ⟨batchId, batch, htriggered⟩ := h.triggered requestId request hget
      exact ⟨batchId, batch, htriggered.mono rfl rfl (fun _ _ => hingested.batch)
        fun _ _ hr => hingested.receipt (.inl (PyDict.mem_items_iff.mpr hr))⟩

theorem Recovering.step (h : Recovering platform db) (event : DatabaseEvent) :
    Recovering platform (db.step platform event) := by
  cases event with
  | ingest call =>
    obtain hsame | ⟨delivery, deliveryKey, stored, hingested, hsettled⟩ :=
      h.settled.ingest_cases call
    · rw [Database.step, hsame]
      exact h
    · exact h.ingest hingested hsettled
  | runNext call =>
    exact h.setPublication (h.sound.step (.runNext call)) (keepsTriggers_runNext _ _ _ call)
  | recordFailure requestId error now done =>
    exact h.setPublication (h.sound.queueStep _ fun hcompletes => hcompletes)
      (RecoveryQueue.keepsTriggers_recordFailure requestId error now done)
  | requeueFailed requestId additionalAttempts now =>
    exact h.setPublication (h.sound.queueStep _ fun hcompletes => hcompletes)
      (RecoveryQueue.keepsTriggers_requeueFailed requestId additionalAttempts now)

theorem recovering_after (events : List DatabaseEvent) :
    Recovering platform (Database.after platform events) := by
  have hstep : ∀ (db : Database) event, Recovering platform db →
      Recovering platform (db.step platform event) := fun _ event h => h.step event
  exact run_invariant hstep recovering_empty events

/-! ## What the inspection finds -/

theorem fingerprintVersion_storedValue {result : ReconciliationResult} {document : Json}
    (h : result.storedValue.jsonValue = some document) :
    fingerprintVersion document = .ok (.num (.int financialFingerprintVersion)) := by
  obtain ⟨j, hj, hitem⟩ := @Value.item_of_field _ (.number (.int financialFingerprintVersion)) _
    (txt "financial_fingerprint_version") h rfl
  obtain rfl := Option.some.inj hj
  unfold item at hitem
  unfold fingerprintVersion
  split at hitem
  next members =>
    split at hitem
    next m hm =>
      have hvalue := Except.ok.inj hitem
      simp only [hm, hvalue]
    · cases hitem
  · cases hitem

/-- A request that has succeeded passes its checks. -/
theorem Recovering.inspectSucceeded (h : Recovering platform db) {requestId : Uuid}
    {request : RecoveryRequest} (hget : db.publication.queue.requests.get? requestId = some request)
    (hstatus : request.status = .succeeded) :
    inspectSucceeded platform.sha256 request (request.resultRunId.bind db.publication.runs.get?)
      (request.resultRunId.bind db.publication.results.get?) = .ok () := by
  obtain ⟨runId, hrun, -⟩ := (h.sound.queue.history requestId request hget).succeeded hstatus
  obtain ⟨row, hrow, -⟩ := h.sound.evaluated requestId request runId hget hstatus hrun
  obtain ⟨stored, result, hrecorded⟩ := h.sound.runs runId row hrow
  have hcompleted : request.completedAtUtc ≠ none := by
    obtain ⟨-, -, hcompletion, -⟩ := RecoveryRequest.checks_iff.mp (h.sound.queue.checked _ _ hget)
    intro hnone
    simp [RecoveryRequest.completionOk, hstatus, hnone] at hcompletion
  have hversion := fingerprintVersion_storedValue hrecorded.payload
  have hpayload : stored.resultPayload ≠ .null := by
    intro hnull
    rw [hnull] at hversion
    cases hversion
  have hverified : verifyStoredFinancialResult platform.sha256 stored :=
    logicalFingerprint_reread hrecorded.payload hrecorded.hash
  have hequals : equalsInt (.num (.int financialFingerprintVersion)) financialFingerprintVersion =
      true := rfl
  unfold Threadline.inspectSucceeded
  simp only [hrun, Option.bind_some, hrow, hrecorded.found, bind_eq_ok, require_eq_ok, hversion,
    Option.map_some, hrecorded.published, hrecorded.runHash, exists_const, ne_eq, reduceCtorEq,
    not_false_eq_true, true_and]
  exact ⟨hcompleted, hpayload, _, rfl, by rw [if_pos hequals]; exact require_eq_ok.mpr hverified⟩

theorem Recovering.inspectFailed (h : Recovering platform db) {requestId : Uuid}
    {request : RecoveryRequest} (hget : db.publication.queue.requests.get? requestId = some request)
    (hstatus : request.status = .failed) : inspectFailed request = .ok () := by
  obtain ⟨-, -, hcompletion, -⟩ := RecoveryRequest.checks_iff.mp (h.sound.queue.checked _ _ hget)
  simp only [RecoveryRequest.completionOk, hstatus, Bool.and_eq_true, Option.isNone_iff_eq_none,
    Option.isSome_iff_ne_none] at hcompletion
  exact require_eq_ok.mpr ⟨hcompletion.1.1, hcompletion.1.2, hcompletion.2⟩

theorem Recovering.inspectPending (h : Recovering platform db) {requestId : Uuid}
    {request : RecoveryRequest} (hget : db.publication.queue.requests.get? requestId = some request)
    (hstatus : request.status = .pending) : inspectPending request = .ok () := by
  obtain ⟨-, -, hcompletion, hbudget⟩ :=
    RecoveryRequest.checks_iff.mp (h.sound.queue.checked _ _ hget)
  simp only [RecoveryRequest.completionOk, hstatus, Bool.and_eq_true,
    Option.isNone_iff_eq_none] at hcompletion
  exact require_eq_ok.mpr ⟨hcompletion.1, hcompletion.2, hbudget hstatus⟩

/-- The source evidence of a request is found when its delivery had rows. -/
theorem Recovering.sourceBatchStatus (h : Recovering platform db) {request : RecoveryRequest}
    {batchId : Uuid} {batch : IngestionBatch} (htriggered : Triggered db request batchId batch) :
    db.sourceBatchStatus request = some .committed ↔ 0 < batch.observedRowCount := by
  obtain ⟨-, hstored, hreceipt⟩ := htriggered
  have hcommitted : batch.ingestionStatus = .committed :=
    h.settled.committed (batchId, batch) (PyDict.mem_items_iff.mpr hstored)
  split_ifs at hreceipt with hrows
  · obtain ⟨receiptId, receipt, htrigger, hget, hbatch⟩ := hreceipt
    refine iff_of_true ?_ hrows
    simp [Database.sourceBatchStatus, htrigger, hget, hbatch, Database.batchStatus, hstored,
      hcommitted]
  · refine iff_of_false ?_ hrows
    simp [Database.sourceBatchStatus, hreceipt]

/-- The delivery that a request was made for had rows. -/
def Database.SourceHasRows (db : Database) (request : RecoveryRequest) : Prop :=
  ∃ batchId batch, request.triggerBatchId = some batchId ∧
    db.batches.get? batchId = some batch ∧ 0 < batch.observedRowCount

/-- An inspection that finds the source evidence gives the action that is due. -/
theorem Recovering.inspectRecovery (h : Recovering platform db) {requestId : Uuid}
    {request : RecoveryRequest} (hget : db.publication.queue.requests.get? requestId = some request)
    (now : Instant) (hsource : db.sourceBatchStatus request = some .committed) :
    ∃ observation, db.inspectRecovery platform requestId (some now) = .ok observation ∧
      observation.requestStatus = some request.status ∧
        observation.action = request.dueAction now := by
  unfold Database.inspectRecovery RecoveryRequest.dueAction
  simp only [hget, bind_eq_ok, require_eq_ok]
  cases hstatus : request.status with
  | succeeded =>
    exact ⟨_, ⟨⟨⟩, hsource, bind_eq_ok.mpr ⟨⟨⟩, h.inspectSucceeded hget hstatus, rfl⟩⟩, hstatus ▸ rfl,
      rfl⟩
  | failed =>
    exact ⟨_, ⟨⟨⟩, hsource, bind_eq_ok.mpr ⟨⟨⟩, h.inspectFailed hget hstatus, rfl⟩⟩, hstatus ▸ rfl,
      rfl⟩
  | pending =>
    by_cases hdue : request.nextAttemptAtUtc ≤ now
    · exact ⟨_, ⟨⟨⟩, hsource, bind_eq_ok.mpr ⟨⟨⟩, h.inspectPending hget hstatus, if_pos hdue⟩⟩,
        hstatus ▸ rfl, (if_pos hdue).symm⟩
    · exact ⟨_, ⟨⟨⟩, hsource, bind_eq_ok.mpr ⟨⟨⟩, h.inspectPending hget hstatus, if_neg hdue⟩⟩,
        hstatus ▸ rfl, (if_neg hdue).symm⟩

/-- After any calls, the inspection of a request gives the action that is due, exactly when the
delivery it was made for had rows. -/
theorem inspectRecovery_iff (platform : Platform) (events : List DatabaseEvent) {requestId : Uuid}
    {request : RecoveryRequest} (hget : (Database.after platform events).publication.queue.requests.get?
      requestId = some request) (now : Instant) :
    (∃ observation, (Database.after platform events).inspectRecovery platform requestId (some now) =
        .ok observation ∧ observation.requestStatus = some request.status ∧
          observation.action = request.dueAction now) ↔
      (Database.after platform events).SourceHasRows request := by
  have h : Recovering platform (Database.after platform events) := recovering_after events
  obtain ⟨batchId, batch, htriggered⟩ := h.triggered requestId request hget
  have hsource := h.sourceBatchStatus htriggered
  constructor
  · rintro ⟨observation, hinspect, -⟩
    unfold Database.inspectRecovery at hinspect
    simp only [hget, bind_eq_ok, require_eq_ok] at hinspect
    obtain ⟨-, hcommitted, -⟩ := hinspect
    exact ⟨batchId, batch, htriggered.triggerBatch, htriggered.stored, hsource.mp hcommitted⟩
  · rintro ⟨batchId', batch', htrigger', hstored', hrows⟩
    obtain rfl := Option.some.inj (htriggered.triggerBatch.symm.trans htrigger')
    obtain rfl := Option.some.inj (htriggered.stored.symm.trans hstored')
    exact h.inspectRecovery hget now (hsource.mpr hrows)

end

/-! ## A delivery with a row, and one without -/

namespace CancelledDay

open PaidDay (september atTen valid15)

/-- The first ingestion of one of the reports. -/
def received (report : DigestedReport) : List DatabaseEvent :=
  [.ingest (report.ingestion (atTen (september 15 valid15)) report.name)]

def orders : DigestedReport := report .orders [orderPayload]
  0x7e6fb71c230582dbef39cdadfeea388428d2cba42606ed82b49a13052de75739
  0x03c497d265d835fbc13c582a83b9da489e59c71233f06f2d58e00264efeceb72

def payments : DigestedReport := report .payments [] emptyDigest
  0x999616d1b45c869b3fdb72a9fd0ec012ce23f4c8d2c2d0cd0ca1f7fa04ecbf67

/-- The request for the orders can be inspected. -/
theorem inspectRecovery_iff_orders : ∃ request,
    (Database.after inbox.platform (received orders)).publication.queue.requests.get? orders.name =
      some request ∧
    ∃ observation, (Database.after inbox.platform (received orders)).inspectRecovery inbox.platform
        orders.name (some 0) = .ok observation ∧
      observation.requestStatus = some request.status ∧
        observation.action = request.dueAction 0 := by
  have hrequest : (((Database.after inbox.platform (received orders)).publication.queue.requests.get?
      orders.name).any fun request => request.triggerBatchId = some orders.name) = true := by
    decide +kernel
  have hbatch : (((Database.after inbox.platform (received orders)).batches.get? orders.name).any
      fun batch => decide (0 < batch.observedRowCount)) = true := by decide +kernel
  obtain ⟨request, hget, htrigger⟩ := (Option.any_eq_true _ _).mp hrequest
  obtain ⟨batch, hstored, hrows⟩ := (Option.any_eq_true _ _).mp hbatch
  refine ⟨request, hget, (inspectRecovery_iff inbox.platform (received orders) hget 0).mpr ?_⟩
  exact ⟨orders.name, batch, of_decide_eq_true htrigger, hstored, of_decide_eq_true hrows⟩

/-- The request for a report without payments exists, and its inspection raises. -/
theorem inspectRecovery_empty_report :
    ((Database.after inbox.platform (received payments)).publication.queue.requests.get?
      payments.name).isSome ∧
    (Database.after inbox.platform (received payments)).inspectRecovery inbox.platform
      payments.name (some 0) = .error .sourceEvidence := by
  decide +kernel

end CancelledDay

end Threadline
