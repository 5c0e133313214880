import Threadline.RecoveryQueue

/-!
# The life of a recovery request

Runs of the queue's operations in any order. A request is enqueued once, fails
until its budget is spent, may be reopened with a new budget, and once it has
succeeded is never written again.
-/

open PyText PyCalendar PyExcept Runs

namespace Threadline

open RecoveryQueue

/-- A call on the queue in its own transaction, with the clock readings it makes. An enqueuing
that keeps the request already stored under its key changes nothing, like one that raises. -/
inductive QueueOperation
  | enqueue (new : NewRequest) (triggersExist : Bool) (now : Instant)
  | nextReady (locked : List Uuid) (now : Instant)
  | markSucceeded (requestId runId : Uuid) (runExists : Bool) (now : Instant)
  | recordFailure (requestId : Uuid) (error : Text) (now done : Instant)
  | requeueFailed (requestId : Uuid) (additionalAttempts : ℤ) (now : Instant)

namespace RecoveryQueue

/-- The tables an operation leaves when it does not raise. -/
def perform (q : RecoveryQueue) : QueueOperation → Except QueueError RecoveryQueue
  | .enqueue new triggersExist now => (q.insertRequest new triggersExist now).mapError .database
  | .nextReady _ _ => .ok q
  | .markSucceeded requestId runId runExists now => q.markSucceeded requestId runId runExists now
  | .recordFailure requestId error now done => q.recordFailure requestId error now done
  | .requeueFailed requestId additionalAttempts now => q.requeueFailed requestId additionalAttempts now

/-- An operation that raises is rolled back. -/
def step (q : RecoveryQueue) (op : QueueOperation) : RecoveryQueue :=
  match q.perform op with
  | .ok q' => q'
  | .error _ => q

/-- The queue after a sequence of operations on an empty one. -/
def after (ops : List QueueOperation) : RecoveryQueue := run step ∅ ops

/-- The attempts of one request by number. -/
def attempt (q : RecoveryQueue) (requestId : Uuid) (n : ℕ) : Option RecoveryAttempt :=
  q.attempts.get? (requestId, n)

/-- Everything an operation can do to the tables. -/
inductive Change (q : RecoveryQueue) : RecoveryQueue → Prop
  | unchanged : Change q q
  | enqueued (new : NewRequest) (now : Instant) (hid : q.requests.get? new.requestId = none)
      (hkey : ∀ r ∈ q.requests.values, r.requestKey ≠ new.requestKey) :
      Change q { q with requests := q.requests.set new.requestId (new.row now) }
  | succeeded (requestId runId : Uuid) (request : RecoveryRequest) (now : Instant)
      (hget : q.requests.get? requestId = some request) (hstatus : request.status = .pending) :
      Change q ⟨q.requests.set requestId (succeededRow request runId now),
        q.attempts.set (requestId, request.attemptCount + 1) (.succeeded runId)⟩
  | failed (requestId : Uuid) (request : RecoveryRequest) (message : Text) (now done : Instant)
      (hget : q.requests.get? requestId = some request) (hstatus : request.status = .pending) :
      Change q ⟨q.requests.set requestId (failedRow request message now done),
        q.attempts.set (requestId, request.attemptCount + 1) (.failed message)⟩
  | requeued (requestId : Uuid) (request : RecoveryRequest) (additionalAttempts : ℤ) (now : Instant)
      (hget : q.requests.get? requestId = some request) (hstatus : request.status = .failed)
      (hadditional : 1 ≤ additionalAttempts) :
      Change q { q with
        requests := q.requests.set requestId (requeuedRow request additionalAttempts now) }

theorem change_of_perform {q q' : RecoveryQueue} {op : QueueOperation}
    (h : q.perform op = .ok q') : q.Change q' := by
  cases op with
  | enqueue new triggersExist now =>
    cases hinsert : q.insertRequest new triggersExist now with
    | error err => simp [perform, hinsert, Except.mapError] at h
    | ok q₁ =>
      obtain rfl : q₁ = q' := by simpa [perform, hinsert, Except.mapError] using h
      obtain ⟨hid, hkey, rfl⟩ := insertRequest_eq_ok hinsert
      exact .enqueued new now hid hkey
  | nextReady locked now =>
    obtain rfl : q = q' := Except.ok.inj h
    exact .unchanged
  | markSucceeded requestId runId runExists now =>
    obtain ⟨request, hget, hstatus, _, _, rfl⟩ := markSucceeded_eq_ok h
    exact .succeeded requestId runId request now hget hstatus
  | recordFailure requestId error now done =>
    obtain ⟨request, hget, ⟨_, rfl⟩ | ⟨hstatus, rfl⟩⟩ := recordFailure_eq_ok h
    · exact .unchanged
    · exact .failed requestId request (error.take 2000) now done hget hstatus
  | requeueFailed requestId additionalAttempts now =>
    obtain ⟨request, hget, hstatus, hadditional, rfl⟩ := requeueFailed_eq_ok h
    exact .requeued requestId request additionalAttempts now hget hstatus hadditional

theorem change_step (q : RecoveryQueue) (op : QueueOperation) : q.Change (q.step op) := by
  unfold step
  cases h : q.perform op with
  | ok q' => exact change_of_perform h
  | error err => exact .unchanged

end RecoveryQueue

/-! ## The invariant -/

/-- What the rows of one request say about each other: its attempts by number, and its own row. -/
structure RequestHistory (attempt : ℕ → Option RecoveryAttempt) (r : RecoveryRequest) : Prop where
  numbered : ∀ n, (attempt n).isSome ↔ 1 ≤ n ∧ n ≤ r.attemptCount
  pending : r.status = .pending → r.attemptCount < r.maxAttempts ∧ r.resultRunId = none ∧
    ∀ n runId, attempt n ≠ some (.succeeded runId)
  failed : r.status = .failed → r.maxAttempts ≤ r.attemptCount ∧ r.lastError.isSome ∧
    ∀ n runId, attempt n ≠ some (.succeeded runId)
  succeeded : r.status = .succeeded → ∃ resultRunId, r.resultRunId = some resultRunId ∧
    ∀ n runId, attempt n = some (.succeeded runId) ↔ n = r.attemptCount ∧ runId = resultRunId

namespace RequestHistory

variable {attempt : ℕ → Option RecoveryAttempt} {r : RecoveryRequest}

theorem of_new (new : NewRequest) (now : Instant) (h : ∀ n, attempt n = none) :
    RequestHistory attempt (new.row now) where
  numbered n := by
    rw [h n]
    simp [NewRequest.row]
    omega
  pending _ := ⟨by simp [NewRequest.row], rfl, fun n runId => by simp [h n]⟩
  failed hstatus := nomatch hstatus
  succeeded hstatus := nomatch hstatus

/-- The next attempt takes the next number. -/
theorem numbered_update (h : RequestHistory attempt r) (a : RecoveryAttempt) (n : ℕ) :
    (Function.update attempt (r.attemptCount + 1) (some a) n).isSome ↔
      1 ≤ n ∧ n ≤ r.attemptCount + 1 := by
  by_cases hn : n = r.attemptCount + 1
  · subst hn
    simp
  · rw [Function.update_of_ne hn, h.numbered n]
    omega

theorem succeed (h : RequestHistory attempt r) (hstatus : r.status = .pending) (runId : Uuid)
    (now : Instant) :
    RequestHistory (Function.update attempt (r.attemptCount + 1) (some (.succeeded runId)))
      (succeededRow r runId now) where
  numbered := h.numbered_update _
  pending hs := nomatch hs
  failed hs := nomatch hs
  succeeded _ := by
    refine ⟨runId, rfl, fun n runId' => ?_⟩
    change _ ↔ n = r.attemptCount + 1 ∧ _
    by_cases hn : n = r.attemptCount + 1
    · subst hn
      simp [eq_comm]
    · have hnone := (h.pending hstatus).2.2 n runId'
      rw [Function.update_of_ne hn]
      simp [hn, hnone]

theorem fail (h : RequestHistory attempt r) (hstatus : r.status = .pending) (message : Text)
    (now done : Instant) :
    RequestHistory (Function.update attempt (r.attemptCount + 1) (some (.failed message)))
      (failedRow r message now done) := by
  have honly : ∀ n runId, Function.update attempt (r.attemptCount + 1)
      (some (RecoveryAttempt.failed message)) n ≠ some (.succeeded runId) := by
    intro n runId
    by_cases hn : n = r.attemptCount + 1
    · subst hn
      simp
    · rw [Function.update_of_ne hn]
      exact (h.pending hstatus).2.2 n runId
  have hresult : r.resultRunId = none := (h.pending hstatus).2.1
  -- The budget decides which of the two states the row is in.
  by_cases hspent : r.attemptCount + 1 ≥ r.maxAttempts
  · have hrow : (failedRow r message now done).status = .failed := if_pos hspent
    exact {
      numbered := h.numbered_update _
      pending := fun hs => nomatch hrow.symm.trans hs
      failed := fun _ => ⟨hspent, rfl, honly⟩
      succeeded := fun hs => nomatch hrow.symm.trans hs }
  · have hrow : (failedRow r message now done).status = .pending := if_neg hspent
    exact {
      numbered := h.numbered_update _
      pending := fun _ => ⟨Nat.lt_of_not_le hspent, hresult, honly⟩
      failed := fun hs => nomatch hrow.symm.trans hs
      succeeded := fun hs => nomatch hrow.symm.trans hs }

theorem requeue (h : RequestHistory attempt r) (hstatus : r.status = .failed)
    (hresult : r.resultRunId = none) {additionalAttempts : ℤ} (hpos : 1 ≤ additionalAttempts)
    (now : Instant) : RequestHistory attempt (requeuedRow r additionalAttempts now) where
  numbered := h.numbered
  pending _ := by
    refine ⟨?_, hresult, (h.failed hstatus).2.2⟩
    change r.attemptCount < r.attemptCount + additionalAttempts.toNat
    omega
  failed hs := nomatch hs
  succeeded hs := nomatch hs

end RequestHistory

/-! ## The rows written meet the table's constraints -/

theorem succeededRow_checks {r : RecoveryRequest} (h : r.checks = true) (runId : Uuid)
    (now : Instant) : (succeededRow r runId now).checks = true := by
  obtain ⟨hmax, hbase, _, _⟩ := RecoveryRequest.checks_iff.mp h
  exact RecoveryRequest.checks_iff.mpr ⟨hmax, hbase, rfl, fun hs => nomatch hs⟩

theorem resultRunId_of_checks {r : RecoveryRequest} (h : r.checks = true)
    (hstatus : r.status ≠ .succeeded) : r.resultRunId = none := by
  obtain ⟨_, _, hcompletion, _⟩ := RecoveryRequest.checks_iff.mp h
  unfold RecoveryRequest.completionOk at hcompletion
  cases hs : r.status with
  | pending => simp_all
  | succeeded => exact absurd hs hstatus
  | failed => simp_all

theorem failedRow_checks {r : RecoveryRequest} (h : r.checks = true) (hstatus : r.status = .pending)
    (message : Text) (now done : Instant) : (failedRow r message now done).checks = true := by
  obtain ⟨hmax, hbase, _, _⟩ := RecoveryRequest.checks_iff.mp h
  have hresult := resultRunId_of_checks h (by simp [hstatus])
  refine RecoveryRequest.checks_iff.mpr ⟨hmax, hbase, ?_, ?_⟩
  · by_cases hspent : r.attemptCount + 1 ≥ r.maxAttempts
    · simp [failedRow, RecoveryRequest.completionOk, hspent, hresult]
    · simp [failedRow, RecoveryRequest.completionOk, hspent, hresult]
  · intro hs
    by_cases hspent : r.attemptCount + 1 ≥ r.maxAttempts
    · simp [failedRow, hspent] at hs
    · exact Nat.lt_of_not_le hspent

theorem requeuedRow_checks {r : RecoveryRequest} (h : r.checks = true) (hstatus : r.status = .failed)
    {additionalAttempts : ℤ} (hpos : 1 ≤ additionalAttempts) (now : Instant) :
    (requeuedRow r additionalAttempts now).checks = true := by
  obtain ⟨_, hbase, _, _⟩ := RecoveryRequest.checks_iff.mp h
  have hresult := resultRunId_of_checks h (by simp [hstatus])
  refine RecoveryRequest.checks_iff.mpr ⟨?_, hbase, ?_, fun _ => ?_⟩
  · change 1 ≤ r.attemptCount + additionalAttempts.toNat
    omega
  · simp [requeuedRow, RecoveryRequest.completionOk, hresult]
  · change r.attemptCount < r.attemptCount + additionalAttempts.toNat
    omega

/-! ## The invariant of the tables -/

/-- The invariant of the queue's tables. -/
structure RecoveryQueue.Consistent (q : RecoveryQueue) : Prop where
  owned : ∀ requestId n, (q.attempt requestId n).isSome → (q.requests.get? requestId).isSome
  history : ∀ requestId r, q.requests.get? requestId = some r →
    RequestHistory (q.attempt requestId) r
  checked : ∀ requestId r, q.requests.get? requestId = some r → r.checks = true

namespace RecoveryQueue

theorem consistent_empty : Consistent ∅ where
  owned _ _ h := nomatch h
  history _ _ h := nomatch h
  checked _ _ h := nomatch h

theorem attempt_set (q : RecoveryQueue) (requests : PyDict Uuid RecoveryRequest) (requestId : Uuid)
    (n : ℕ) (a : RecoveryAttempt) (id : Uuid) :
    (⟨requests, q.attempts.set (requestId, n) a⟩ : RecoveryQueue).attempt id =
      if requestId = id then Function.update (q.attempt requestId) n (some a) else q.attempt id := by
  funext k
  unfold attempt
  rw [PyDict.get?_set]
  by_cases hid : requestId = id
  · subst hid
    by_cases hk : k = n
    · subst hk
      simp
    · simp [Function.update_of_ne hk, Ne.symm hk]
  · simp [hid]

/-- A new row of one request, with the attempts it goes with, keeps the tables consistent. -/
theorem Consistent.set {q : RecoveryQueue} (hq : q.Consistent) {requestId : Uuid}
    {row : RecoveryRequest} {attempts : PyDict (Uuid × ℕ) RecoveryAttempt}
    (hrow : row.checks = true)
    (hhistory : RequestHistory
      ((⟨q.requests.set requestId row, attempts⟩ : RecoveryQueue).attempt requestId) row)
    (hother : ∀ id, requestId ≠ id →
      (⟨q.requests.set requestId row, attempts⟩ : RecoveryQueue).attempt id = q.attempt id) :
    Consistent ⟨q.requests.set requestId row, attempts⟩ where
  owned id n hsome := by
    rw [PyDict.get?_set]
    split_ifs with hid
    · rfl
    · rw [hother id hid] at hsome
      exact hq.owned id n hsome
  history id r hget := by
    rw [PyDict.get?_set] at hget
    split_ifs at hget with hid
    · obtain rfl := Option.some.inj hget
      subst hid
      exact hhistory
    · rw [hother id hid]
      exact hq.history id r hget
  checked id r hget := by
    rw [PyDict.get?_set] at hget
    split_ifs at hget with hid
    · obtain rfl := Option.some.inj hget
      exact hrow
    · exact hq.checked id r hget

theorem Consistent.change {q q' : RecoveryQueue} (hq : q.Consistent) (h : q.Change q') :
    q'.Consistent := by
  cases h with
  | unchanged => exact hq
  | enqueued new now hid _ =>
    refine hq.set rfl (RequestHistory.of_new new now fun n => ?_) fun id _ => rfl
    have hnone := mt (hq.owned new.requestId n)
    rw [hid] at hnone
    exact Option.not_isSome_iff_eq_none.mp (hnone (by simp))
  | succeeded requestId runId request now hget hstatus =>
    refine hq.set (succeededRow_checks (hq.checked _ _ hget) runId now) ?_ fun id hne => ?_
    · rw [attempt_set, if_pos rfl]
      exact (hq.history _ _ hget).succeed hstatus runId now
    · rw [attempt_set, if_neg hne]
  | failed requestId request message now done hget hstatus =>
    refine hq.set (failedRow_checks (hq.checked _ _ hget) hstatus message now done) ?_
      fun id hne => ?_
    · rw [attempt_set, if_pos rfl]
      exact (hq.history _ _ hget).fail hstatus message now done
    · rw [attempt_set, if_neg hne]
  | requeued requestId request additionalAttempts now hget hstatus hadditional =>
    have hresult := resultRunId_of_checks (hq.checked _ _ hget) (by simp [hstatus])
    exact hq.set (requeuedRow_checks (hq.checked _ _ hget) hstatus hadditional now)
      ((hq.history _ _ hget).requeue hstatus hresult hadditional now) fun id _ => rfl

theorem Consistent.step {q : RecoveryQueue} (hq : q.Consistent) (op : QueueOperation) :
    (q.step op).Consistent := hq.change (change_step q op)

theorem consistent_after (ops : List QueueOperation) : (after ops).Consistent := by
  have hstep : ∀ (q : RecoveryQueue) op, q.Consistent → (q.step op).Consistent :=
    fun _ op hq => hq.step op
  exact run_invariant hstep consistent_empty ops

/-! ## No operation is refused by a constraint of the queue -/

theorem Consistent.insertAttempt_ok {q : RecoveryQueue} (hq : q.Consistent) {requestId : Uuid}
    {r : RecoveryRequest} (hget : q.requests.get? requestId = some r) (a : RecoveryAttempt) :
    q.insertAttempt requestId (r.attemptCount + 1) a true =
      .ok { q with attempts := q.attempts.set (requestId, r.attemptCount + 1) a } := by
  have hfree : q.attempts.get? (requestId, r.attemptCount + 1) = none := by
    have hnumbered := (hq.history _ _ hget).numbered (r.attemptCount + 1)
    rw [← Option.not_isSome_iff_eq_none]
    intro hsome
    have hle := (hnumbered.mp hsome).2
    omega
  unfold insertAttempt
  simp [hfree]

theorem updateRequest_ok (q : RecoveryQueue) (requestId : Uuid) {row : RecoveryRequest}
    (h : row.checks = true) :
    q.updateRequest requestId row = .ok { q with requests := q.requests.set requestId row } :=
  if_pos h

/-- A pending request can be completed with any run that exists. -/
theorem Consistent.markSucceeded_ok {q : RecoveryQueue} (hq : q.Consistent) {requestId : Uuid}
    {r : RecoveryRequest} (hget : q.requests.get? requestId = some r) (hstatus : r.status = .pending)
    (runId : Uuid) (now : Instant) :
    q.markSucceeded requestId runId true now =
      .ok ⟨q.requests.set requestId (succeededRow r runId now),
        q.attempts.set (requestId, r.attemptCount + 1) (.succeeded runId)⟩ := by
  have hbudget := ((hq.history _ _ hget).pending hstatus).1
  have hlimit : ¬ r.attemptCount + 1 > r.maxAttempts := by omega
  unfold markSucceeded
  simp only [hget, hstatus, ne_eq, not_true_eq_false, if_false, hlimit, hq.insertAttempt_ok hget]
  exact updateRequest_ok _ _ (succeededRow_checks (hq.checked _ _ hget) runId now)

/-- The failure of a pending request is recorded whenever its message can be stored. -/
theorem Consistent.recordFailure_ok {q : RecoveryQueue} (hq : q.Consistent) {requestId : Uuid}
    {r : RecoveryRequest} (hget : q.requests.get? requestId = some r) (hstatus : r.status = .pending)
    {error : Text} (herror : storableText (error.take 2000) = true) (now done : Instant) :
    q.recordFailure requestId error now done =
      .ok ⟨q.requests.set requestId (failedRow r (error.take 2000) now done),
        q.attempts.set (requestId, r.attemptCount + 1) (.failed (error.take 2000))⟩ := by
  unfold recordFailure
  simp only [hget, hstatus, ne_eq, not_true_eq_false, if_false, herror, Bool.not_true,
    Bool.false_eq_true, hq.insertAttempt_ok hget]
  exact updateRequest_ok _ _ (failedRow_checks (hq.checked _ _ hget) hstatus _ now done)

/-- A failed request is reopened whenever its new budget is an `INTEGER`. -/
theorem Consistent.requeueFailed_ok {q : RecoveryQueue} (hq : q.Consistent) {requestId : Uuid}
    {r : RecoveryRequest} (hget : q.requests.get? requestId = some r) (hstatus : r.status = .failed)
    {additionalAttempts : ℤ} (hpos : 1 ≤ additionalAttempts)
    (hrange : r.attemptCount + additionalAttempts.toNat ≤ integerMax) (now : Instant) :
    q.requeueFailed requestId additionalAttempts now = .ok { q with
      requests := q.requests.set requestId (requeuedRow r additionalAttempts now) } := by
  have hlt : ¬ additionalAttempts < 1 := by omega
  have hmax : ¬ integerMax < r.attemptCount + additionalAttempts.toNat := by omega
  unfold requeueFailed
  simp only [hlt, if_false, hget, hstatus, ne_eq, not_true_eq_false, hmax]
  exact updateRequest_ok _ _ (requeuedRow_checks (hq.checked _ _ hget) hstatus hpos now)

/-! ## What later operations keep -/

/-- Attempts are only ever added, and a succeeded request keeps its row and its attempts. -/
structure Keeps (q q' : RecoveryQueue) : Prop where
  attempts : ∀ requestId n a, q.attempt requestId n = some a → q'.attempt requestId n = some a
  succeeded : ∀ requestId r, q.requests.get? requestId = some r → r.status = .succeeded →
    q'.requests.get? requestId = some r ∧ q'.attempt requestId = q.attempt requestId

theorem Keeps.refl (q : RecoveryQueue) : q.Keeps q where
  attempts _ _ _ h := h
  succeeded _ _ h _ := ⟨h, rfl⟩

theorem Keeps.trans {q q' q'' : RecoveryQueue} (h : q.Keeps q') (h' : q'.Keeps q'') :
    q.Keeps q'' where
  attempts requestId n a hget := h'.attempts _ _ _ (h.attempts _ _ _ hget)
  succeeded requestId r hget hstatus := by
    obtain ⟨hrow, hattempts⟩ := h.succeeded requestId r hget hstatus
    obtain ⟨hrow', hattempts'⟩ := h'.succeeded requestId r hrow hstatus
    exact ⟨hrow', hattempts'.trans hattempts⟩

/-- Writing the next attempt of a request that has not succeeded, and its row. -/
theorem Consistent.keeps_attempt {q : RecoveryQueue} (hq : q.Consistent) {requestId : Uuid}
    {request row : RecoveryRequest} (hget : q.requests.get? requestId = some request)
    (hstatus : request.status ≠ .succeeded) (a : RecoveryAttempt) :
    q.Keeps ⟨q.requests.set requestId row, q.attempts.set (requestId, request.attemptCount + 1) a⟩ where
  attempts id n b hb := by
    rw [attempt_set]
    split_ifs with hid
    · subst hid
      have hnumbered := (hq.history _ _ hget).numbered n
      rw [hb] at hnumbered
      have hne : n ≠ request.attemptCount + 1 := by
        have hle := (hnumbered.mp rfl).2
        omega
      rw [Function.update_of_ne hne, hb]
    · exact hb
  succeeded id r hr hs := by
    have hid : requestId ≠ id := by
      rintro rfl
      obtain rfl := Option.some.inj (hget.symm.trans hr)
      exact hstatus hs
    rw [attempt_set, if_neg hid, PyDict.get?_set, if_neg hid]
    exact ⟨hr, rfl⟩

theorem Consistent.keeps_change {q q' : RecoveryQueue} (hq : q.Consistent) (h : q.Change q') :
    q.Keeps q' := by
  cases h with
  | unchanged => exact .refl q
  | enqueued new now hid _ =>
    refine ⟨fun _ _ _ hb => hb, fun id r hr _ => ?_⟩
    have hne : new.requestId ≠ id := by
      rintro rfl
      cases hid.symm.trans hr
    rw [PyDict.get?_set, if_neg hne]
    exact ⟨hr, rfl⟩
  | succeeded requestId runId request now hget hstatus =>
    exact hq.keeps_attempt hget (by simp [hstatus]) _
  | failed requestId request message now done hget hstatus =>
    exact hq.keeps_attempt hget (by simp [hstatus]) _
  | requeued requestId request additionalAttempts now hget hstatus _ =>
    refine ⟨fun _ _ _ hb => hb, fun id r hr hs => ?_⟩
    have hne : requestId ≠ id := by
      rintro rfl
      obtain rfl := Option.some.inj (hget.symm.trans hr)
      cases hstatus.symm.trans hs
    rw [PyDict.get?_set, if_neg hne]
    exact ⟨hr, rfl⟩

theorem Consistent.keeps_run {q : RecoveryQueue} (hq : q.Consistent) (later : List QueueOperation) :
    q.Keeps (run RecoveryQueue.step q later) := by
  have hinv : ∀ (q : RecoveryQueue) op, q.Consistent → (q.step op).Consistent :=
    fun _ op hq => hq.step op
  have hkeeps : ∀ (q : RecoveryQueue) op, q.Consistent → q.Keeps (q.step op) :=
    fun q op hq => hq.keeps_change (change_step q op)
  exact run_rel Keeps.refl (fun _ _ _ => Keeps.trans) hinv hkeeps hq later

/-! ## Delays -/

/-- The delay that an operation schedules, in microseconds from its clock reading: a recorded
failure schedules one. -/
def scheduledDelay (q : RecoveryQueue) : QueueOperation → List (Uuid × ℤ)
  | .recordFailure requestId error now done =>
    match q.requests.get? requestId,
        (q.step (.recordFailure requestId error now done)).requests.get? requestId with
    | some before, some after =>
      if before.attemptCount < after.attemptCount then
        [(requestId, after.nextAttemptAtUtc - now)]
      else []
    | _, _ => []
  | _ => []

/-- The delays of one request among those of a run, in the order in which they were scheduled. -/
def delaysOf (requestId : Uuid) (seen : List (Uuid × ℤ)) : List ℤ :=
  (seen.filter fun p => p.1 = requestId).map Prod.snd

/-- The delays scheduled for a request by a sequence of operations on an empty queue. -/
def delays (ops : List QueueOperation) (requestId : Uuid) : List ℤ :=
  delaysOf requestId (observed step scheduledDelay ∅ ops)

/-- The delay of the attempt a request is at. -/
def lastDelay (r : RecoveryRequest) : ℤ :=
  (retryDelay r.baseRetryDelaySeconds r.attemptCount * microsPerSecond : ℕ)

/-- Delays so far, none above the one the request's own row stands for. -/
def DelaysOrdered (q : RecoveryQueue) (seen : List (Uuid × ℤ)) : Prop :=
  ∀ requestId, (delaysOf requestId seen).Pairwise (· ≤ ·) ∧
    ∀ d ∈ delaysOf requestId seen, ∃ r, q.requests.get? requestId = some r ∧ d ≤ lastDelay r

/-- Rows survive every operation, and no row's delay goes down. -/
theorem lastDelay_change {q q' : RecoveryQueue} (h : q.Change q') {requestId : Uuid}
    {r : RecoveryRequest} (hget : q.requests.get? requestId = some r) :
    ∃ r', q'.requests.get? requestId = some r' ∧ lastDelay r ≤ lastDelay r' := by
  have hmono : ∀ base {m n : ℕ}, m ≤ n →
      ((retryDelay base m * microsPerSecond : ℕ) : ℤ) ≤ (retryDelay base n * microsPerSecond : ℕ) :=
    fun base _ _ hle => Int.ofNat_le.mpr (Nat.mul_le_mul_right _ (retryDelay_mono base hle))
  cases h with
  | unchanged => exact ⟨r, hget, le_rfl⟩
  | enqueued new now hid _ =>
    have hne : new.requestId ≠ requestId := by
      rintro rfl
      cases hid.symm.trans hget
    exact ⟨r, by rw [PyDict.get?_set, if_neg hne, hget], le_rfl⟩
  | succeeded id runId request now hr _ =>
    by_cases hid : id = requestId
    · subst hid
      obtain rfl := Option.some.inj (hr.symm.trans hget)
      exact ⟨succeededRow request runId now, by rw [PyDict.get?_set, if_pos rfl],
        hmono _ (Nat.le_succ _)⟩
    · exact ⟨r, by rw [PyDict.get?_set, if_neg hid, hget], le_rfl⟩
  | failed id request message now done hr _ =>
    by_cases hid : id = requestId
    · subst hid
      obtain rfl := Option.some.inj (hr.symm.trans hget)
      exact ⟨failedRow request message now done, by rw [PyDict.get?_set, if_pos rfl],
        hmono _ (Nat.le_succ _)⟩
    · exact ⟨r, by rw [PyDict.get?_set, if_neg hid, hget], le_rfl⟩
  | requeued id request additionalAttempts now hr _ _ =>
    by_cases hid : id = requestId
    · subst hid
      obtain rfl := Option.some.inj (hr.symm.trans hget)
      exact ⟨requeuedRow request additionalAttempts now, by rw [PyDict.get?_set, if_pos rfl], le_rfl⟩
    · exact ⟨r, by rw [PyDict.get?_set, if_neg hid, hget], le_rfl⟩

/-- An operation schedules nothing, or the delay of the attempt it has just recorded. -/
theorem scheduledDelay_cases (q : RecoveryQueue) (op : QueueOperation) :
    q.scheduledDelay op = [] ∨ ∃ requestId r, (q.step op).requests.get? requestId = some r ∧
      q.scheduledDelay op = [(requestId, lastDelay r)] := by
  unfold scheduledDelay
  split
  · next requestId error now done =>
    split
    · next before after hbefore hafter =>
      split_ifs with hcount
      · refine .inr ⟨requestId, after, hafter, ?_⟩
        unfold step at hafter
        split at hafter
        · next q' hperform =>
          obtain ⟨request, hget, ⟨_, rfl⟩ | ⟨_, rfl⟩⟩ := recordFailure_eq_ok hperform
          · obtain rfl := Option.some.inj (hbefore.symm.trans hafter)
            exact absurd hcount (lt_irrefl _)
          · rw [PyDict.get?_set, if_pos rfl] at hafter
            obtain rfl := Option.some.inj hafter
            have hsub : ∀ a b : ℤ, a + b - a = b := by omega
            simp only [failedRow, lastDelay, hsub]
        · obtain rfl := Option.some.inj (hbefore.symm.trans hafter)
          exact absurd hcount (lt_irrefl _)
      · exact .inl rfl
    · exact .inl rfl
  · exact .inl rfl

theorem DelaysOrdered.step {q : RecoveryQueue} {seen : List (Uuid × ℤ)} (h : q.DelaysOrdered seen)
    (op : QueueOperation) : (q.step op).DelaysOrdered (seen ++ q.scheduledDelay op) := by
  intro requestId
  obtain ⟨hsorted, hle⟩ := h requestId
  have hle' : ∀ d ∈ delaysOf requestId seen,
      ∃ r, (q.step op).requests.get? requestId = some r ∧ d ≤ lastDelay r := by
    intro d hd
    obtain ⟨r, hget, hdr⟩ := hle d hd
    obtain ⟨r', hget', hrr⟩ := lastDelay_change (change_step q op) hget
    exact ⟨r', hget', hdr.trans hrr⟩
  obtain hnone | ⟨id, r, hget, hone⟩ := scheduledDelay_cases q op
  · rw [hnone, List.append_nil]
    exact ⟨hsorted, hle'⟩
  · by_cases hid : id = requestId
    · subst hid
      have happend : delaysOf id (seen ++ q.scheduledDelay op) =
          delaysOf id seen ++ [lastDelay r] := by simp [delaysOf, hone]
      rw [happend]
      refine ⟨List.pairwise_append.mpr ⟨hsorted, List.pairwise_singleton _ _, ?_⟩, ?_⟩
      · intro d hd d' hd'
        obtain rfl := List.mem_singleton.mp hd'
        obtain ⟨r', hget', hdr⟩ := hle' d hd
        obtain rfl := Option.some.inj (hget.symm.trans hget')
        exact hdr
      · intro d hd
        rcases List.mem_append.mp hd with hd | hd
        · exact hle' d hd
        · obtain rfl := List.mem_singleton.mp hd
          exact ⟨r, hget, le_rfl⟩
    · have happend : delaysOf requestId (seen ++ q.scheduledDelay op) = delaysOf requestId seen := by
        simp [delaysOf, hone, hid]
      rw [happend]
      exact ⟨hsorted, hle'⟩

theorem delaysOrdered_after (ops : List QueueOperation) :
    (after ops).DelaysOrdered (observed step scheduledDelay ∅ ops) := by
  have hstep : ∀ (q : RecoveryQueue) seen op, q.DelaysOrdered seen →
      (q.step op).DelaysOrdered (seen ++ q.scheduledDelay op) := fun _ _ op h => h.step op
  exact observed_invariant hstep (fun _ => ⟨List.Pairwise.nil, fun _ hd => nomatch hd⟩) ops

theorem lastDelay_le (r : RecoveryRequest) : lastDelay r ≤ 3600 * microsPerSecond := by
  have hle := Nat.mul_le_mul_right microsPerSecond
    (retryDelay_le r.baseRetryDelaySeconds r.attemptCount)
  unfold lastDelay
  omega

/-- The life of every request under every sequence of operations on the queue. -/
theorem recoveryQueue_lifecycle (ops : List QueueOperation) :
    (∀ requestId r, (after ops).requests.get? requestId = some r →
      RequestHistory ((after ops).attempt requestId) r) ∧
    (∀ requestId r, (after ops).requests.get? requestId = some r → r.status = .succeeded →
      ∀ later, (after (ops ++ later)).requests.get? requestId = some r ∧
        (after (ops ++ later)).attempt requestId = (after ops).attempt requestId) ∧
    (∀ requestId additionalAttempts now,
      (after (ops ++ [.requeueFailed requestId additionalAttempts now])).attempts =
        (after ops).attempts) ∧
    ∀ requestId, (delays ops requestId).Pairwise (· ≤ ·) ∧
      ∀ d ∈ delays ops requestId, d ≤ 3600 * microsPerSecond := by
  have hconsistent := consistent_after ops
  refine ⟨hconsistent.history, ?_, ?_, ?_⟩
  · intro requestId r hget hstatus later
    unfold after
    rw [run_append]
    exact (hconsistent.keeps_run later).succeeded requestId r hget hstatus
  · intro requestId additionalAttempts now
    unfold after
    rw [run_concat, step]
    split
    · next q' hperform =>
      obtain ⟨_, _, _, _, rfl⟩ := requeueFailed_eq_ok hperform
      rfl
    · rfl
  · intro requestId
    obtain ⟨hsorted, hle⟩ := delaysOrdered_after ops requestId
    refine ⟨hsorted, fun d hd => ?_⟩
    obtain ⟨r, _, hdr⟩ := hle d hd
    exact hdr.trans (lastDelay_le r)

end RecoveryQueue

end Threadline
