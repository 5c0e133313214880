import Threadline.PyCalendar
import Threadline.PyDict
import Threadline.PyExcept
import Threadline.PySorted
import Threadline.Runs

/-!
# The recovery queue

Requests for a rebuild and their attempts, each operation inside its own
transaction. An operation that raises leaves both tables as they were.
-/

open PyText PyCalendar PySorted PyExcept

namespace Threadline

/-- A `uuid` by its hyphenated text, which PostgreSQL orders the same way. -/
abbrev Uuid := Text

/-- A reading of the server's clock, in microseconds. -/
abbrev Instant := ℤ

/-- The largest `INTEGER`. -/
def integerMax : ℕ := 2147483647

/-- Why the server refuses a statement. -/
inductive DatabaseError
  | uniqueViolation | foreignKeyViolation | checkViolation | numericValueOutOfRange
  | stringDataRightTruncation | untranslatableText
  deriving DecidableEq, Repr

inductive QueueError
  | requestMissing | requestNotPending | attemptLimitExceeded | additionalNotPositive
  | requestNotFailed | database (error : DatabaseError)
  deriving DecidableEq

inductive RequestStatus
  | pending | succeeded | failed
  deriving DecidableEq

/-- A row of `recovery_request`, without its ID. -/
structure RecoveryRequest where
  requestKey : Text
  triggerReceiptId : Option Uuid
  triggerBatchId : Option Uuid
  asOfUtc : UtcDateTime
  status : RequestStatus
  attemptCount : ℕ
  maxAttempts : ℕ
  baseRetryDelaySeconds : ℕ
  nextAttemptAtUtc : Instant
  lastError : Option Text
  resultRunId : Option Uuid
  createdAtUtc : Instant
  completedAtUtc : Option Instant
  deriving DecidableEq

/-- The outcome of an attempt: a run, or an error message. -/
inductive RecoveryAttempt
  | succeeded (runId : Uuid)
  | failed (errorMessage : Text)
  deriving DecidableEq

def RecoveryAttempt.Succeeded : RecoveryAttempt → Prop
  | .succeeded _ => True
  | .failed _ => False

/-- `recovery_request` by request ID, `recovery_attempt` by request ID and attempt number. -/
structure RecoveryQueue where
  requests : PyDict Uuid RecoveryRequest
  attempts : PyDict (Uuid × ℕ) RecoveryAttempt

/-- The columns that an `INSERT` into `recovery_request` names. -/
structure NewRequest where
  requestId : Uuid
  requestKey : Text
  triggerReceiptId : Option Uuid
  triggerBatchId : Option Uuid
  asOfUtc : UtcDateTime
  deriving DecidableEq

/-- The row with the column defaults. -/
def NewRequest.row (new : NewRequest) (now : Instant) : RecoveryRequest where
  requestKey := new.requestKey
  triggerReceiptId := new.triggerReceiptId
  triggerBatchId := new.triggerBatchId
  asOfUtc := new.asOfUtc
  status := .pending
  attemptCount := 0
  maxAttempts := 5
  baseRetryDelaySeconds := 30
  nextAttemptAtUtc := now
  lastError := none
  resultRunId := none
  createdAtUtc := now
  completedAtUtc := none

/-- `ck_recovery_completion`. -/
def RecoveryRequest.completionOk (r : RecoveryRequest) : Bool :=
  match r.status with
  | .pending => r.resultRunId.isNone && r.completedAtUtc.isNone
  | .succeeded => r.resultRunId.isSome && r.completedAtUtc.isSome
  | .failed => r.resultRunId.isNone && r.completedAtUtc.isSome && r.lastError.isSome

/-- The `CHECK` constraints of `recovery_request`. -/
def RecoveryRequest.checks (r : RecoveryRequest) : Bool :=
  decide (1 ≤ r.maxAttempts) && decide (r.baseRetryDelaySeconds ≤ 3600) && r.completionOk &&
    (decide (r.status ≠ .pending) || decide (r.attemptCount < r.maxAttempts))

theorem RecoveryRequest.checks_iff {r : RecoveryRequest} :
    r.checks = true ↔ 1 ≤ r.maxAttempts ∧ r.baseRetryDelaySeconds ≤ 3600 ∧ r.completionOk = true ∧
      (r.status = .pending → r.attemptCount < r.maxAttempts) := by
  simp only [checks, Bool.and_eq_true, Bool.or_eq_true, decide_eq_true_eq, and_assoc,
    ← imp_iff_not_or]

/-- A text the server can store: UTF-8 without a NUL. -/
def storableText (s : Text) : Bool := (encodeUtf8 s).isSome && !s.contains (ofChar '\x00')

/-- The delay in seconds after a failed attempt. -/
def retryDelay (baseRetryDelaySeconds attemptNumber : ℕ) : ℕ :=
  min 3600 (baseRetryDelaySeconds * 2 ^ min (attemptNumber - 1) 12)

theorem retryDelay_le (base attemptNumber : ℕ) : retryDelay base attemptNumber ≤ 3600 :=
  Nat.min_le_left _ _

theorem retryDelay_mono (base : ℕ) {m n : ℕ} (h : m ≤ n) : retryDelay base m ≤ retryDelay base n := by
  unfold retryDelay
  have hexp : min (m - 1) 12 ≤ min (n - 1) 12 := by omega
  have hprod := Nat.mul_le_mul_left base (Nat.pow_le_pow_right (show 0 < 2 by omega) hexp)
  exact le_min (Nat.min_le_left _ _) ((Nat.min_le_right _ _).trans hprod)

def microsPerSecond : ℕ := 1000000

namespace RecoveryQueue

instance : EmptyCollection RecoveryQueue := ⟨⟨∅, ∅⟩⟩

/-- One eligible request, the one due first. Requests that another transaction has locked are
skipped. -/
def nextReady (q : RecoveryQueue) (locked : List Uuid) (now : Instant) :
    Option (Uuid × RecoveryRequest) :=
  (sortedBy (κ := Instant ×ₗ Instant ×ₗ Text)
    (fun p => toLex (p.2.nextAttemptAtUtc, toLex (p.2.createdAtUtc, p.1)))
    (q.requests.items.filter fun p =>
      decide (p.2.status = .pending) && decide (p.2.attemptCount < p.2.maxAttempts) &&
        decide (p.2.nextAttemptAtUtc ≤ now) && !locked.contains p.1)).head?

/-- `INSERT INTO recovery_request`. `triggersExist` says that the receipt and the batch it names
exist. -/
def insertRequest (q : RecoveryQueue) (new : NewRequest) (triggersExist : Bool) (now : Instant) :
    Except DatabaseError RecoveryQueue :=
  if (q.requests.get? new.requestId).isSome ∨
      q.requests.values.any fun r => r.requestKey = new.requestKey then .error .uniqueViolation
  else if !triggersExist then .error .foreignKeyViolation
  else if !(new.row now).checks then .error .checkViolation
  else .ok { q with requests := q.requests.set new.requestId (new.row now) }

/-- `INSERT INTO recovery_attempt`. `runExists` says that the run it names exists. -/
def insertAttempt (q : RecoveryQueue) (requestId : Uuid) (attemptNumber : ℕ)
    (attempt : RecoveryAttempt) (runExists : Bool) : Except QueueError RecoveryQueue :=
  if attemptNumber < 1 then .error (.database .checkViolation)
  else if (q.attempts.get? (requestId, attemptNumber)).isSome then
    .error (.database .uniqueViolation)
  else if !runExists then .error (.database .foreignKeyViolation)
  else .ok { q with attempts := q.attempts.set (requestId, attemptNumber) attempt }

/-- `UPDATE recovery_request`. -/
def updateRequest (q : RecoveryQueue) (requestId : Uuid) (row : RecoveryRequest) :
    Except QueueError RecoveryQueue :=
  if row.checks then .ok { q with requests := q.requests.set requestId row }
  else .error (.database .checkViolation)

/-- The row that `mark_succeeded` writes. -/
def succeededRow (request : RecoveryRequest) (runId : Uuid) (now : Instant) : RecoveryRequest :=
  { request with
    status := .succeeded
    attemptCount := request.attemptCount + 1
    lastError := none
    resultRunId := some runId
    completedAtUtc := some now }

def markSucceeded (q : RecoveryQueue) (requestId runId : Uuid) (runExists : Bool) (now : Instant) :
    Except QueueError RecoveryQueue :=
  match q.requests.get? requestId with
  | none => .error .requestMissing
  | some request =>
    if request.status ≠ .pending then .error .requestNotPending
    else if request.attemptCount + 1 > request.maxAttempts then .error .attemptLimitExceeded
    else do
      let q ← q.insertAttempt requestId (request.attemptCount + 1) (.succeeded runId) runExists
      q.updateRequest requestId (succeededRow request runId now)

/-- The row that `record_failure` writes, reading the clock at `now` for the next attempt and at
`done` for the completion. -/
def failedRow (request : RecoveryRequest) (errorMessage : Text) (now done : Instant) :
    RecoveryRequest :=
  let attemptNumber := request.attemptCount + 1
  let exhausted := attemptNumber ≥ request.maxAttempts
  { request with
    attemptCount := attemptNumber
    lastError := some errorMessage
    status := if exhausted then .failed else .pending
    nextAttemptAtUtc :=
      now + (retryDelay request.baseRetryDelaySeconds attemptNumber * microsPerSecond : ℕ)
    completedAtUtc := if exhausted then some done else none }

/-- `error` is the name of the exception's type, a colon and its text. -/
def recordFailure (q : RecoveryQueue) (requestId : Uuid) (error : Text) (now done : Instant) :
    Except QueueError RecoveryQueue :=
  match q.requests.get? requestId with
  | none => .error .requestMissing
  | some request =>
    if request.status ≠ .pending then .ok q
    else if !storableText (error.take 2000) then .error (.database .untranslatableText)
    else do
      let q ← q.insertAttempt requestId (request.attemptCount + 1) (.failed (error.take 2000)) true
      q.updateRequest requestId (failedRow request (error.take 2000) now done)

/-- The row that `requeue_failed` writes. -/
def requeuedRow (request : RecoveryRequest) (additionalAttempts : ℤ) (now : Instant) :
    RecoveryRequest :=
  { request with
    status := .pending
    maxAttempts := request.attemptCount + additionalAttempts.toNat
    nextAttemptAtUtc := now
    completedAtUtc := none }

def requeueFailed (q : RecoveryQueue) (requestId : Uuid) (additionalAttempts : ℤ) (now : Instant) :
    Except QueueError RecoveryQueue :=
  if additionalAttempts < 1 then .error .additionalNotPositive
  else match q.requests.get? requestId with
    | none => .error .requestNotFailed
    | some request =>
      if request.status ≠ .failed then .error .requestNotFailed
      else if integerMax < request.attemptCount + additionalAttempts.toNat then
        .error (.database .numericValueOutOfRange)
      else q.updateRequest requestId (requeuedRow request additionalAttempts now)

/-! ## What an operation leaves behind -/

theorem nextReady_eq_some {q : RecoveryQueue} {locked : List Uuid} {now : Instant}
    {requestId : Uuid} {request : RecoveryRequest}
    (h : q.nextReady locked now = some (requestId, request)) :
    q.requests.get? requestId = some request ∧ request.status = .pending ∧
      request.attemptCount < request.maxAttempts ∧ request.nextAttemptAtUtc ≤ now ∧
      requestId ∉ locked := by
  have hmem := (mem_sortedBy _).mp (List.mem_of_head? h)
  simp only [List.mem_filter, Bool.and_eq_true, decide_eq_true_eq, Bool.not_eq_true',
    List.contains_eq_mem, decide_eq_false_iff_not] at hmem
  obtain ⟨hitem, ⟨⟨hstatus, hbudget⟩, hdue⟩, hfree⟩ := hmem
  exact ⟨PyDict.mem_items_iff.mp hitem, hstatus, hbudget, hdue, hfree⟩

theorem insertRequest_eq_ok {q q' : RecoveryQueue} {new : NewRequest} {triggersExist : Bool}
    {now : Instant} (h : q.insertRequest new triggersExist now = .ok q') :
    q.requests.get? new.requestId = none ∧
      (∀ r ∈ q.requests.values, r.requestKey ≠ new.requestKey) ∧
      q' = { q with requests := q.requests.set new.requestId (new.row now) } := by
  unfold insertRequest at h
  split_ifs at h with hdup hfk hck
  simp only [not_or, Option.not_isSome_iff_eq_none, List.any_eq_true, decide_eq_true_eq,
    not_exists, not_and] at hdup
  exact ⟨hdup.1, hdup.2, (Except.ok.inj h).symm⟩

theorem insertAttempt_eq_ok {q q' : RecoveryQueue} {requestId : Uuid} {attemptNumber : ℕ}
    {attempt : RecoveryAttempt} {runExists : Bool}
    (h : q.insertAttempt requestId attemptNumber attempt runExists = .ok q') :
    q.attempts.get? (requestId, attemptNumber) = none ∧ runExists = true ∧
      q' = { q with attempts := q.attempts.set (requestId, attemptNumber) attempt } := by
  unfold insertAttempt at h
  split_ifs at h with hpos hdup hfk
  simp only [Option.not_isSome_iff_eq_none] at hdup
  exact ⟨hdup, by simpa using hfk, (Except.ok.inj h).symm⟩

theorem updateRequest_eq_ok {q q' : RecoveryQueue} {requestId : Uuid} {row : RecoveryRequest}
    (h : q.updateRequest requestId row = .ok q') :
    row.checks = true ∧ q' = { q with requests := q.requests.set requestId row } := by
  unfold updateRequest at h
  split_ifs at h with hck
  exact ⟨hck, (Except.ok.inj h).symm⟩

theorem markSucceeded_eq_ok {q q' : RecoveryQueue} {requestId runId : Uuid} {runExists : Bool}
    {now : Instant} (h : q.markSucceeded requestId runId runExists now = .ok q') :
    ∃ request, q.requests.get? requestId = some request ∧ request.status = .pending ∧
      request.attemptCount < request.maxAttempts ∧ runExists = true ∧
      q' = ⟨q.requests.set requestId (succeededRow request runId now),
        q.attempts.set (requestId, request.attemptCount + 1) (.succeeded runId)⟩ := by
  unfold markSucceeded at h
  split at h
  · cases h
  · next request hget =>
    split_ifs at h with hstatus hlimit
    obtain ⟨q₁, hinsert, hupdate⟩ := bind_eq_ok.mp h
    obtain ⟨_, hrun, rfl⟩ := insertAttempt_eq_ok hinsert
    obtain ⟨_, rfl⟩ := updateRequest_eq_ok hupdate
    exact ⟨request, hget, not_not.mp hstatus, by omega, hrun, rfl⟩

theorem recordFailure_eq_ok {q q' : RecoveryQueue} {requestId : Uuid} {error : Text}
    {now done : Instant} (h : q.recordFailure requestId error now done = .ok q') :
    ∃ request, q.requests.get? requestId = some request ∧
      ((request.status ≠ .pending ∧ q' = q) ∨
        (request.status = .pending ∧
          q' = ⟨q.requests.set requestId (failedRow request (error.take 2000) now done),
            q.attempts.set (requestId, request.attemptCount + 1) (.failed (error.take 2000))⟩)) := by
  unfold recordFailure at h
  split at h
  · cases h
  · next request hget =>
    split_ifs at h with hstatus hstorable
    · exact ⟨request, hget, .inl ⟨hstatus, (Except.ok.inj h).symm⟩⟩
    · obtain ⟨q₁, hinsert, hupdate⟩ := bind_eq_ok.mp h
      obtain ⟨_, _, rfl⟩ := insertAttempt_eq_ok hinsert
      obtain ⟨_, rfl⟩ := updateRequest_eq_ok hupdate
      exact ⟨request, hget, .inr ⟨not_not.mp hstatus, rfl⟩⟩

theorem requeueFailed_eq_ok {q q' : RecoveryQueue} {requestId : Uuid} {additionalAttempts : ℤ}
    {now : Instant} (h : q.requeueFailed requestId additionalAttempts now = .ok q') :
    ∃ request, q.requests.get? requestId = some request ∧ request.status = .failed ∧
      1 ≤ additionalAttempts ∧
      q' = { q with
        requests := q.requests.set requestId (requeuedRow request additionalAttempts now) } := by
  unfold requeueFailed at h
  split_ifs at h with hadditional
  split at h
  · cases h
  · next request hget =>
    split_ifs at h with hstatus hrange
    obtain ⟨_, rfl⟩ := updateRequest_eq_ok h
    exact ⟨request, hget, not_not.mp hstatus, by omega, rfl⟩

end RecoveryQueue

end Threadline
