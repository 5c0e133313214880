import Threadline.PublishableResults
import Threadline.QueueLifecycle
import Threadline.ResultRows

/-!
# The recovery worker

One call of `run_next`: the oldest ready request is rebuilt and published in one
transaction, and a failure is recorded in another.
-/

open PyText PyJson PyCalendar PyExcept

namespace Threadline

inductive RunStatus
  | candidate | published | failed
  deriving DecidableEq

/-- A row of `reconciliation_run`, without its ID. -/
structure ReconciliationRun where
  contractVersion : Text
  asOfUtc : UtcDateTime
  inputWatermarkUtc : Instant
  status : RunStatus
  resultHash : Text
  publishedAtUtc : Option Instant
  deriving DecidableEq

/-- A row of `recovery_result`, without its ID. -/
structure RecoveryResult where
  inputFingerprint : Text
  logicalFingerprint : Text
  resultPayload : Json

/-- The tables that publication writes. -/
structure PublicationState where
  runs : PyDict Uuid ReconciliationRun
  results : PyDict Uuid RecoveryResult
  rows : List ResultRow
  /-- `publication_pointer`: the current run under each publication name. -/
  pointer : PyDict Text Uuid
  queue : RecoveryQueue

instance : EmptyCollection PublicationState := ⟨⟨∅, ∅, [], ∅, ∅⟩⟩

/-- Where a call can be made to raise before it commits: at its statements, in the functions it
calls and at its failure hooks, two of which are called twice. -/
inductive CallPoint
  | nextReady | clock | build | serialize | validateDomain | validateArithmetic
  | logicalFingerprint | inputFingerprint | afterValidation | insertRun | afterRunInsert
  | insertResult | persistRows | afterResultInsert | beforePointerUpdate | afterResultInsertAgain
  | beforePointerUpdateAgain | publishRun | updatePointer | afterPointerUpdate | markSucceeded
  | afterQueueCompletion | beforeCommit

/-- What becomes of the transaction: an unacknowledged one has committed, but the client sees an
exception. -/
inductive CommitOutcome
  | committed
  | refused (error : RecoveryError)
  | unacknowledged (error : RecoveryError)

/-- A call of `run_next`: the worker's settings, the values it draws, and the exceptions that its
surroundings raise. -/
structure Call where
  publicationName : Text
  build : Uuid → UtcDateTime → Except RecoveryError ReconciliationResult
  inputFingerprint : Json → Except RecoveryError Text
  /-- The requests that other transactions have locked. -/
  locked : List Uuid
  selectedAt : Instant
  runId : Uuid
  cutoff : Instant
  publishedAt : Instant
  completedAt : Instant
  raises : CallPoint → Option RecoveryError
  commit : CommitOutcome
  afterCommit : Option RecoveryError
  /-- What the transaction that records a failure raises. -/
  bookkeeping : Option RecoveryError
  failedAt : Instant
  failureDoneAt : Instant
  /-- The name of an exception's type, a colon and its text. -/
  errorText : RecoveryError → Text

structure RecoveryOutcome where
  requestId : Uuid
  runId : Uuid
  inputFingerprint : Text
  logicalFingerprint : Text
  deriving DecidableEq

/-- A candidate that has been checked. -/
structure Candidate where
  result : ReconciliationResult
  document : Json
  logicalHash : Text
  evidenceHash : Text

/-- Its row of `recovery_result`. -/
def Candidate.recoveryResult (candidate : Candidate) : RecoveryResult where
  inputFingerprint := candidate.evidenceHash
  logicalFingerprint := candidate.logicalHash
  resultPayload := candidate.document

/-- `logical_fingerprint`, which raises on a text without UTF-8 bytes. -/
def ReconciliationResult.logicalHash (r : ReconciliationResult) (sha256 : Bytes → Text) :
    Except RecoveryError Text :=
  match logicalFingerprint sha256 r.toValue with
  | some hash => .ok hash
  | none => .error .unserializable

theorem document_eq_ok {r : ReconciliationResult} {document : Json}
    (h : r.document = .ok document) : r.storedValue.jsonValue = some document := by
  unfold ReconciliationResult.document at h
  split at h
  · next hjson => exact hjson.trans (congrArg some (Except.ok.inj h))
  · cases h

theorem logicalHash_eq_ok {r : ReconciliationResult} {sha256 : Bytes → Text} {hash : Text}
    (h : r.logicalHash sha256 = .ok hash) : logicalFingerprint sha256 r.toValue = some hash := by
  unfold ReconciliationResult.logicalHash at h
  split at h
  · next hsome => exact hsome.trans (congrArg some (Except.ok.inj h))
  · cases h

namespace Call

variable (berlinToUtc : Date → ℕ → UtcDateTime) (sha256 : Bytes → Text) (call : Call)

/-- Pass a point, unless an exception is raised there. -/
def reach (point : CallPoint) : Except RecoveryError Unit :=
  match call.raises point with
  | some error => .error error
  | none => .ok ()

/-- From the clock reading to the hook `after_validation`. -/
def prepare (asOfUtc : UtcDateTime) : Except RecoveryError Candidate := do
  call.reach .clock
  call.reach .build
  let result ← call.build call.runId asOfUtc
  call.reach .serialize
  let document ← result.document
  require (result.runId = call.runId) RecoveryError.candidateRunId
  require (result.detectedAtUtc = asOfUtc) RecoveryError.candidateAsOf
  call.reach .validateDomain
  (validateForPublication result).mapError RecoveryError.publication
  call.reach .validateArithmetic
  (validateArithmetic document).mapError RecoveryError.arithmetic
  call.reach .logicalFingerprint
  let logicalHash ← result.logicalHash sha256
  call.reach .inputFingerprint
  let evidenceHash ← call.inputFingerprint document
  call.reach .afterValidation
  pure ⟨result, document, logicalHash, evidenceHash⟩

/-- The row of `reconciliation_run` for a candidate. -/
def candidateRun (asOfUtc : UtcDateTime) (candidate : Candidate) : ReconciliationRun where
  contractVersion := candidate.result.contractVersion
  asOfUtc := asOfUtc
  inputWatermarkUtc := call.cutoff
  status := .candidate
  resultHash := candidate.logicalHash
  publishedAtUtc := none

def publishedRun (asOfUtc : UtcDateTime) (candidate : Candidate) : ReconciliationRun :=
  { call.candidateRun asOfUtc candidate with
    status := .published
    publishedAtUtc := some call.publishedAt }

/-- From the insertion of the run to the hook `before_pointer_update`. -/
def insertCandidate (s : PublicationState) (asOfUtc : UtcDateTime) (candidate : Candidate) :
    Except RecoveryError PublicationState := do
  call.reach .insertRun
  require (s.runs.get? call.runId = none) (RecoveryError.database .uniqueViolation)
  let runs := s.runs.set call.runId (call.candidateRun asOfUtc candidate)
  call.reach .afterRunInsert
  call.reach .insertResult
  require (s.results.get? call.runId = none) (RecoveryError.database .uniqueViolation)
  call.reach .persistRows
  let rows ← persistCandidateRows berlinToUtc candidate.result
    (fun runId => (runs.get? runId).isSome) s.rows candidate.document
  call.reach .afterResultInsert
  call.reach .beforePointerUpdate
  call.reach .afterResultInsertAgain
  call.reach .beforePointerUpdateAgain
  pure { s with
    runs := runs
    results := s.results.set call.runId candidate.recoveryResult
    rows := rows }

/-- From the update of the run to the hook `before_commit`. -/
def completeRequest (s : PublicationState) (requestId : Uuid) (asOfUtc : UtcDateTime)
    (candidate : Candidate) : Except RecoveryError PublicationState := do
  call.reach .publishRun
  let runs := s.runs.set call.runId (call.publishedRun asOfUtc candidate)
  call.reach .updatePointer
  let pointer := s.pointer.set call.publicationName call.runId
  call.reach .afterPointerUpdate
  call.reach .markSucceeded
  let queue ← (s.queue.markSucceeded requestId call.runId (runs.get? call.runId).isSome
    call.completedAt).mapError RecoveryError.queue
  call.reach .afterQueueCompletion
  call.reach .beforeCommit
  pure { s with
    runs := runs
    pointer := pointer
    queue := queue }

/-- The candidate transaction of a request that has been selected. -/
def publish (s : PublicationState) (requestId : Uuid) (asOfUtc : UtcDateTime) :
    Except RecoveryError (PublicationState × RecoveryOutcome) := do
  let candidate ← call.prepare sha256 asOfUtc
  let s ← call.insertCandidate berlinToUtc s asOfUtc candidate
  let s ← call.completeRequest s requestId asOfUtc candidate
  pure (s, ⟨requestId, call.runId, candidate.evidenceHash, candidate.logicalHash⟩)

/-- The handler of the candidate transaction: it records the failure in a transaction of its own
and raises again. -/
def handleFailure (s : PublicationState) (requestId : Uuid) (error : RecoveryError) :
    PublicationState × RecoveryError :=
  match call.bookkeeping with
  | some error' => (s, error')
  | none =>
    match s.queue.recordFailure requestId (call.errorText error) call.failedAt call.failureDoneAt with
    | .ok queue => ({ s with queue := queue }, error)
    | .error error' => (s, .queue error')

/-- `run_next`: the tables afterwards, and what the call returns or raises. -/
def runNext (s : PublicationState) :
    PublicationState × Except RecoveryError (Option RecoveryOutcome) :=
  match call.raises .nextReady with
  | some error => (s, .error error)
  | none =>
    match s.queue.nextReady call.locked call.selectedAt with
    | none => (s, .ok none)
    | some (requestId, request) =>
      match call.publish berlinToUtc sha256 s requestId request.asOfUtc with
      | .error error =>
        let (s, raised) := call.handleFailure s requestId error
        (s, .error raised)
      | .ok (published, outcome) =>
        match call.commit with
        | .refused error =>
          let (s, raised) := call.handleFailure s requestId error
          (s, .error raised)
        | .unacknowledged error =>
          let (s, raised) := call.handleFailure published requestId error
          (s, .error raised)
        | .committed =>
          -- The hook is outside the handler: nothing is rolled back or recorded here.
          match call.afterCommit with
          | some error => (published, .error error)
          | none => (published, .ok (some outcome))

/-! ## What the transaction leaves behind -/

variable {berlinToUtc sha256 call}

/-- What the checks have established of a candidate. -/
structure Prepared (call : Call) (sha256 : Bytes → Text) (asOfUtc : UtcDateTime)
    (candidate : Candidate) : Prop where
  built : call.build call.runId asOfUtc = .ok candidate.result
  document : candidate.result.storedValue.jsonValue = some candidate.document
  runId : candidate.result.runId = call.runId
  detectedAt : candidate.result.detectedAtUtc = asOfUtc
  publishable : Publishable candidate.result
  logicalHash : logicalFingerprint sha256 candidate.result.toValue = some candidate.logicalHash

theorem prepare_eq_ok {asOfUtc : UtcDateTime} {candidate : Candidate}
    (h : call.prepare sha256 asOfUtc = .ok candidate) :
    Prepared call sha256 asOfUtc candidate := by
  simp only [prepare, bind_eq_ok, require_eq_ok, mapError_eq_ok] at h
  obtain ⟨_, _, _, _, result, hbuilt, _, _, document, hdocument, _, hrunId, _, hdetected, _, _, _,
    hdomain, _, _, _, _, _, _, hash, hhash, _, _, evidence, _, _, _, hpure⟩ := h
  obtain rfl := Except.ok.inj hpure
  exact ⟨hbuilt, document_eq_ok hdocument, hrunId, hdetected,
    validateForPublication_eq_ok.mp hdomain, logicalHash_eq_ok hhash⟩

/-- The rows that a published candidate adds to the result tables. -/
theorem insertCandidate_eq_ok {s s' : PublicationState} {asOfUtc : UtcDateTime}
    {candidate : Candidate}
    (h : call.insertCandidate berlinToUtc s asOfUtc candidate = .ok s') :
    s.runs.get? call.runId = none ∧ s.results.get? call.runId = none ∧
      ∃ rows, candidateRows berlinToUtc candidate.result candidate.document = .ok rows ∧
        s' = { s with
          runs := s.runs.set call.runId (call.candidateRun asOfUtc candidate)
          results := s.results.set call.runId candidate.recoveryResult
          rows := s.rows ++ rows } := by
  simp only [insertCandidate, bind_eq_ok, require_eq_ok] at h
  obtain ⟨_, _, _, hrun, _, _, _, _, _, hresult, _, _, rows, hrows, _, _, _, _, _, _, _, _, hpure⟩ := h
  obtain rfl := Except.ok.inj hpure
  obtain ⟨new, hnew, rfl, _⟩ := persistCandidateRows_eq_ok hrows
  exact ⟨hrun, hresult, new, hnew, rfl⟩

theorem completeRequest_eq_ok {s s' : PublicationState} {requestId : Uuid} {asOfUtc : UtcDateTime}
    {candidate : Candidate}
    (h : call.completeRequest s requestId asOfUtc candidate = .ok s') :
    ∃ queue, s.queue.markSucceeded requestId call.runId true call.completedAt = .ok queue ∧
      s' = { s with
        runs := s.runs.set call.runId (call.publishedRun asOfUtc candidate)
        pointer := s.pointer.set call.publicationName call.runId
        queue := queue } := by
  simp only [completeRequest, bind_eq_ok, mapError_eq_ok, PyDict.get?_set, if_true,
    Option.isSome_some] at h
  obtain ⟨_, _, _, _, _, _, _, _, queue, hqueue, _, _, _, _, hpure⟩ := h
  obtain rfl := Except.ok.inj hpure
  exact ⟨queue, hqueue, rfl⟩

/-- The state that the candidate transaction of a pending request commits. -/
def published (s : PublicationState) (requestId : Uuid) (request : RecoveryRequest)
    (asOfUtc : UtcDateTime) (candidate : Candidate) (rows : List ResultRow) : PublicationState where
  runs := s.runs.set call.runId (call.publishedRun asOfUtc candidate)
  results := s.results.set call.runId candidate.recoveryResult
  rows := s.rows ++ rows
  pointer := s.pointer.set call.publicationName call.runId
  queue := ⟨s.queue.requests.set requestId
      (RecoveryQueue.succeededRow request call.runId call.completedAt),
    s.queue.attempts.set (requestId, request.attemptCount + 1) (.succeeded call.runId)⟩

/-- What has been established when the candidate transaction reaches its end. -/
structure Publishes (berlinToUtc : Date → ℕ → UtcDateTime) (sha256 : Bytes → Text) (call : Call)
    (s : PublicationState) (requestId : Uuid) (request : RecoveryRequest) (asOfUtc : UtcDateTime)
    (candidate : Candidate) (rows : List ResultRow) : Prop where
  prepared : Prepared call sha256 asOfUtc candidate
  freshRun : s.runs.get? call.runId = none
  freshResult : s.results.get? call.runId = none
  rows : candidateRows berlinToUtc candidate.result candidate.document = .ok rows
  stored : s.queue.requests.get? requestId = some request
  pending : request.status = .pending

theorem publish_eq_ok {s s' : PublicationState} {requestId : Uuid} {asOfUtc : UtcDateTime}
    {outcome : RecoveryOutcome}
    (h : call.publish berlinToUtc sha256 s requestId asOfUtc = .ok (s', outcome)) :
    ∃ request candidate rows,
      Publishes berlinToUtc sha256 call s requestId request asOfUtc candidate rows ∧
        s' = call.published s requestId request asOfUtc candidate rows ∧
        outcome = ⟨requestId, call.runId, candidate.evidenceHash, candidate.logicalHash⟩ := by
  simp only [publish, bind_eq_ok] at h
  obtain ⟨candidate, hprepare, s₁, hinsert, s₂, hcomplete, hpure⟩ := h
  obtain ⟨hrun, hresult, rows, hrows, rfl⟩ := insertCandidate_eq_ok hinsert
  obtain ⟨queue, hqueue, rfl⟩ := completeRequest_eq_ok hcomplete
  obtain ⟨request, hget, hstatus, _, _, rfl⟩ := RecoveryQueue.markSucceeded_eq_ok hqueue
  obtain ⟨rfl, rfl⟩ := Prod.mk.inj (Except.ok.inj hpure)
  refine ⟨request, candidate, rows,
    ⟨prepare_eq_ok hprepare, hrun, hresult, hrows, hget, hstatus⟩, ?_, rfl⟩
  simp only [published, PyDict.set_set]

/-! ## What a call leaves behind -/

/-- The call selects a request, and its candidate transaction commits. -/
def Commits (berlinToUtc : Date → ℕ → UtcDateTime) (sha256 : Bytes → Text) (call : Call)
    (s : PublicationState) : Prop :=
  ∃ requestId request published, call.raises .nextReady = none ∧
    s.queue.nextReady call.locked call.selectedAt = some (requestId, request) ∧
    call.publish berlinToUtc sha256 s requestId request.asOfUtc = .ok published ∧
    ∀ error, call.commit ≠ .refused error

/-- The failure of a request is recorded or not, and nothing else changes. -/
theorem handleFailure_fst (call : Call) (s : PublicationState) (requestId : Uuid) (error : RecoveryError) :
    (call.handleFailure s requestId error).1 = s ∨
      (call.handleFailure s requestId error).1 = { s with
        queue := s.queue.step (.recordFailure requestId (call.errorText error) call.failedAt
          call.failureDoneAt) } := by
  unfold handleFailure
  split
  · exact .inl rfl
  · split
    · next queue hrecord =>
      refine .inr ?_
      have hstep : s.queue.step (.recordFailure requestId (call.errorText error) call.failedAt
          call.failureDoneAt) = queue := by
        rw [RecoveryQueue.step, RecoveryQueue.perform, hrecord]
      rw [hstep]
    · exact .inl rfl

/-- A request that has been published is not recorded as failed. -/
theorem handleFailure_published {s : PublicationState} {requestId : Uuid}
    {request : RecoveryRequest} {asOfUtc : UtcDateTime} {candidate : Candidate}
    {rows : List ResultRow} (error : RecoveryError) :
    (call.handleFailure (call.published s requestId request asOfUtc candidate rows) requestId
      error).1 = call.published s requestId request asOfUtc candidate rows := by
  obtain h | h := handleFailure_fst call
    (call.published s requestId request asOfUtc candidate rows) requestId error
  · exact h
  · rw [h, RecoveryQueue.step, RecoveryQueue.perform, RecoveryQueue.recordFailure]
    simp [published, RecoveryQueue.succeededRow]

/-- A call that commits leaves the published state, whatever is raised afterwards. -/
theorem runNext_of_publish {s : PublicationState} {requestId : Uuid} {request : RecoveryRequest}
    {published : PublicationState × RecoveryOutcome} (hreach : call.raises .nextReady = none)
    (hready : s.queue.nextReady call.locked call.selectedAt = some (requestId, request))
    (hpublish : call.publish berlinToUtc sha256 s requestId request.asOfUtc = .ok published)
    (hcommit : ∀ error, call.commit ≠ .refused error) :
    (call.runNext berlinToUtc sha256 s).1 = published.1 := by
  obtain ⟨after, outcome⟩ := published
  obtain ⟨request', candidate, rows, _, rfl, _⟩ := publish_eq_ok hpublish
  unfold runNext
  simp only [hreach, hready, hpublish]
  cases hc : call.commit with
  | committed => cases call.afterCommit <;> rfl
  | refused error => exact absurd hc (hcommit error)
  | unacknowledged error => exact handleFailure_published error

/-- A call that does not commit records at most the failure of the request it selected. -/
theorem runNext_of_not_commits {s : PublicationState} (h : ¬ call.Commits berlinToUtc sha256 s) :
    (call.runNext berlinToUtc sha256 s).1 = s ∨
      ∃ requestId request error,
        s.queue.nextReady call.locked call.selectedAt = some (requestId, request) ∧
        (call.runNext berlinToUtc sha256 s).1 = { s with
          queue := s.queue.step (.recordFailure requestId (call.errorText error) call.failedAt
            call.failureDoneAt) } := by
  unfold runNext
  cases hreach : call.raises .nextReady with
  | some error => exact .inl rfl
  | none =>
    cases hready : s.queue.nextReady call.locked call.selectedAt with
    | none => exact .inl rfl
    | some selected =>
      obtain ⟨requestId, request⟩ := selected
      have hfail : ∀ error, (call.handleFailure s requestId error).1 = s ∨
          ∃ id r error', some (requestId, request) = some (id, r) ∧
            (call.handleFailure s requestId error).1 = { s with
              queue := s.queue.step (.recordFailure id (call.errorText error') call.failedAt
                call.failureDoneAt) } := fun error =>
        (handleFailure_fst call s requestId error).imp id fun hstep =>
          ⟨requestId, request, error, rfl, hstep⟩
      cases hpublish : call.publish berlinToUtc sha256 s requestId request.asOfUtc with
      | error error =>
        simp only [hpublish]
        exact hfail error
      | ok published =>
        simp only [hpublish]
        cases hc : call.commit with
        | refused error => exact hfail error
        | committed =>
          exact absurd ⟨requestId, request, published, hreach, hready, hpublish,
            fun error he => nomatch hc.symm.trans he⟩ h
        | unacknowledged error =>
          exact absurd ⟨requestId, request, published, hreach, hready, hpublish,
            fun error he => nomatch hc.symm.trans he⟩ h

end Call

end Threadline
