import Threadline.RecoveryWorker

/-!
# Atomic publication

Calls of the worker, interleaved with the queue's other operations. Whatever
fails, the tables hold published runs only, each with its result and its rows,
and each is the result of one succeeded request.
-/

open PyText PyJson PyCalendar PyExcept Runs

namespace Threadline

/-- The operation completes a request, which only the worker does. -/
def QueueOperation.Completes : QueueOperation → Prop
  | .markSucceeded .. => True
  | _ => False

inductive PublicationEvent
  | runNext (call : Call)
  | queue (op : QueueOperation) (hop : ¬ op.Completes)

namespace PublicationState

variable (berlinToUtc : Date → ℕ → UtcDateTime) (sha256 : Bytes → Text)

def step (s : PublicationState) : PublicationEvent → PublicationState
  | .runNext call => (call.runNext berlinToUtc sha256 s).1
  | .queue op _ => { s with queue := s.queue.step op }

/-- The tables after a sequence of events on empty ones. -/
def after (events : List PublicationEvent) : PublicationState :=
  run (step berlinToUtc sha256) ∅ events

/-- A published run with its result and its rows. -/
structure Recorded (s : PublicationState) (runId : Uuid) (row : ReconciliationRun)
    (stored : RecoveryResult) (result : ReconciliationResult) : Prop where
  published : row.status = .published
  found : s.results.get? runId = some stored
  payload : result.storedValue.jsonValue = some stored.resultPayload
  named : result.runId = runId
  asOf : result.detectedAtUtc = row.asOfUtc
  publishable : Publishable result
  hash : logicalFingerprint sha256 result.toValue = some stored.logicalFingerprint
  runHash : row.resultHash = stored.logicalFingerprint
  rows : candidateRows berlinToUtc result stored.resultPayload =
    .ok (s.rows.filter fun r => r.runId? = some runId)

end PublicationState

namespace RecoveryQueue

/-- The request has succeeded with this run. -/
def SucceededWith (q : RecoveryQueue) (requestId runId : Uuid) : Prop :=
  ∃ r, q.requests.get? requestId = some r ∧ r.status = .succeeded ∧ r.resultRunId = some runId

/-- Writing a row that has not succeeded over none, or over one that has not succeeded either. -/
theorem get?_set_succeeded {requests : PyDict Uuid RecoveryRequest} {requestId id : Uuid}
    {row r : RecoveryRequest} (hrow : row.status ≠ .succeeded)
    (hold : ∀ old, requests.get? requestId = some old → old.status ≠ .succeeded)
    (hr : r.status = .succeeded) :
    (requests.set requestId row).get? id = some r ↔ requests.get? id = some r := by
  rw [PyDict.get?_set]
  split_ifs with hid
  · subst hid
    refine ⟨fun h => ?_, fun h => absurd hr (hold r h)⟩
    obtain rfl := Option.some.inj h
    exact absurd hr hrow
  · rfl

/-- The rows of succeeded requests are the same before and after every other operation. -/
theorem get?_succeeded_of_step {q : RecoveryQueue} {op : QueueOperation} (hop : ¬ op.Completes)
    {id : Uuid} {r : RecoveryRequest} (hr : r.status = .succeeded) :
    (q.step op).requests.get? id = some r ↔ q.requests.get? id = some r := by
  unfold step
  split
  · next q' hperform =>
    cases op with
    | enqueue new triggersExist now =>
      obtain ⟨hnew, _, rfl⟩ := insertRequest_eq_ok (mapError_eq_ok.mp hperform)
      have hpending : RequestStatus.pending ≠ .succeeded := by decide
      refine get?_set_succeeded hpending (fun old h => ?_) hr
      rw [hnew] at h
      cases h
    | nextReady locked now =>
      obtain rfl := Except.ok.inj hperform
      rfl
    | markSucceeded requestId runId runExists now => exact absurd trivial hop
    | recordFailure requestId error now done =>
      obtain ⟨request, hget, ⟨_, rfl⟩ | ⟨hstatus, rfl⟩⟩ := recordFailure_eq_ok hperform
      · rfl
      · refine get?_set_succeeded ?_ (fun old h => ?_) hr
        · simp only [failedRow]
          split_ifs <;> simp
        · obtain rfl := Option.some.inj (hget.symm.trans h)
          simp [hstatus]
    | requeueFailed requestId additionalAttempts now =>
      obtain ⟨request, hget, hstatus, _, rfl⟩ := requeueFailed_eq_ok hperform
      have hpending : RequestStatus.pending ≠ .succeeded := by decide
      refine get?_set_succeeded hpending (fun old h => ?_) hr
      obtain rfl := Option.some.inj (hget.symm.trans h)
      simp [hstatus]
  · rfl

theorem succeededWith_step {q : RecoveryQueue} {op : QueueOperation} (hop : ¬ op.Completes)
    {requestId runId : Uuid} :
    (q.step op).SucceededWith requestId runId ↔ q.SucceededWith requestId runId := by
  refine exists_congr fun r => ⟨?_, ?_⟩
  · rintro ⟨hget, hstatus, hrun⟩
    exact ⟨(get?_succeeded_of_step hop hstatus).mp hget, hstatus, hrun⟩
  · rintro ⟨hget, hstatus, hrun⟩
    exact ⟨(get?_succeeded_of_step hop hstatus).mpr hget, hstatus, hrun⟩

end RecoveryQueue

namespace PublicationState

variable (berlinToUtc : Date → ℕ → UtcDateTime) (sha256 : Bytes → Text)

/-- The invariant of the tables that publication writes. -/
structure Sound (s : PublicationState) : Prop where
  queue : s.queue.Consistent
  runs : ∀ runId row, s.runs.get? runId = some row →
    ∃ stored result, s.Recorded berlinToUtc sha256 runId row stored result
  results : ∀ runId, (s.results.get? runId).isSome → (s.runs.get? runId).isSome
  rows : ∀ r ∈ s.rows, ∃ runId, r.runId? = some runId ∧ (s.runs.get? runId).isSome
  pointer : ∀ name runId, s.pointer.get? name = some runId → (s.runs.get? runId).isSome
  completed : ∀ runId, (s.runs.get? runId).isSome →
    ∃ requestId, s.queue.SucceededWith requestId runId
  unique : ∀ requestId requestId' runId, s.queue.SucceededWith requestId runId →
    s.queue.SucceededWith requestId' runId → requestId = requestId'
  evaluated : ∀ requestId request runId, s.queue.requests.get? requestId = some request →
    request.status = .succeeded → request.resultRunId = some runId →
    ∃ row, s.runs.get? runId = some row ∧ row.asOfUtc = request.asOfUtc

variable {berlinToUtc sha256} {s : PublicationState}

theorem sound_empty : Sound berlinToUtc sha256 ∅ where
  queue := RecoveryQueue.consistent_empty
  runs _ _ h := nomatch h
  results _ h := nomatch h
  rows _ h := nomatch h
  pointer _ _ h := nomatch h
  completed _ h := nomatch h
  unique _ _ _ h := by
    obtain ⟨_, hget, _⟩ := h
    cases hget
  evaluated _ _ _ h := nomatch h

/-- The queue's other operations. -/
theorem Sound.queueStep (h : s.Sound berlinToUtc sha256) (op : QueueOperation)
    (hop : ¬ op.Completes) : Sound berlinToUtc sha256 { s with queue := s.queue.step op } where
  queue := h.queue.step op
  runs runId row hrow := by
    obtain ⟨stored, result, hrecorded⟩ := h.runs runId row hrow
    exact ⟨stored, result, ⟨hrecorded.published, hrecorded.found, hrecorded.payload,
      hrecorded.named, hrecorded.asOf, hrecorded.publishable, hrecorded.hash, hrecorded.runHash,
      hrecorded.rows⟩⟩
  results := h.results
  rows := h.rows
  pointer := h.pointer
  completed runId hrun := by
    obtain ⟨requestId, hsucceeded⟩ := h.completed runId hrun
    exact ⟨requestId, (RecoveryQueue.succeededWith_step hop).mpr hsucceeded⟩
  unique requestId requestId' runId h₁ h₂ :=
    h.unique requestId requestId' runId ((RecoveryQueue.succeededWith_step hop).mp h₁)
      ((RecoveryQueue.succeededWith_step hop).mp h₂)
  evaluated requestId request runId hget hstatus :=
    h.evaluated requestId request runId
      ((RecoveryQueue.get?_succeeded_of_step hop hstatus).mp hget) hstatus

/-! ## A publication -/

section Publish

variable {call : Call} {requestId : Uuid} {request : RecoveryRequest} {asOfUtc : UtcDateTime}
  {candidate : Candidate} {rows : List ResultRow}

/-- The rows of a published candidate are its run's. -/
theorem rows_runId (hp : Call.Publishes berlinToUtc sha256 call s requestId request asOfUtc candidate
    rows) : ∀ r ∈ rows, r.runId? = some call.runId := by
  have hpublishable := hp.prepared.publishable
  rw [← hp.prepared.runId]
  refine candidateRows_runId hp.prepared.document hp.rows (fun t ht => ?_) (fun p hp => ?_)
    fun x hx => ?_
  · have hrow := hpublishable.transactionRows t ht
    simp only [validateTransaction, bind_eq_ok, require_eq_ok] at hrow
    exact hrow.choose_spec.1
  · have hrow := hpublishable.payoutRows p hp
    simp only [validatePayout, bind_eq_ok, require_eq_ok] at hrow
    exact hrow.choose_spec.1
  · have hrow := hpublishable.exceptionRows x hx
    simp only [validateException, bind_eq_ok, require_eq_ok] at hrow
    exact hrow.choose_spec.1

theorem Sound.rows_fresh (h : s.Sound berlinToUtc sha256) {runId : Uuid}
    (hfresh : s.runs.get? runId = none) : ∀ r ∈ s.rows, r.runId? ≠ some runId := by
  intro r hr hrun
  obtain ⟨runId', hrun', hsome⟩ := h.rows r hr
  obtain rfl := Option.some.inj (hrun'.symm.trans hrun)
  rw [hfresh] at hsome
  cases hsome

theorem succeededWith_published (hp : Call.Publishes berlinToUtc sha256 call s requestId request
    asOfUtc candidate rows) {id runId : Uuid} :
    (call.published s requestId request asOfUtc candidate rows).queue.SucceededWith id runId ↔
      (id = requestId ∧ runId = call.runId) ∨ s.queue.SucceededWith id runId := by
  unfold RecoveryQueue.SucceededWith
  simp only [Call.published, PyDict.get?_set]
  by_cases hid : requestId = id
  · subst hid
    simp [RecoveryQueue.succeededRow, hp.stored, hp.pending, eq_comm]
  · simp [hid, Ne.symm hid]

theorem Sound.publish (h : s.Sound berlinToUtc sha256) (hp : Call.Publishes berlinToUtc sha256 call s
    requestId request asOfUtc candidate rows) (hasOf : request.asOfUtc = asOfUtc) :
    (call.published s requestId request asOfUtc candidate rows).Sound berlinToUtc sha256 where
  queue := h.queue.change (.succeeded requestId call.runId request call.completedAt hp.stored
    hp.pending)
  runs runId row hrow := by
    simp only [Call.published, PyDict.get?_set] at hrow
    split_ifs at hrow with hrun
    · -- The new run: its rows are the ones just inserted.
      subst hrun
      obtain rfl := Option.some.inj hrow
      have hold : (s.rows.filter fun r => r.runId? = some call.runId) = [] :=
        List.filter_eq_nil_iff.mpr fun r hr => by simpa using h.rows_fresh hp.freshRun r hr
      have hnew : (rows.filter fun r => r.runId? = some call.runId) = rows :=
        List.filter_eq_self.mpr fun r hr => by simpa using rows_runId hp r hr
      refine ⟨candidate.recoveryResult, candidate.result, rfl, ?_, hp.prepared.document,
        hp.prepared.runId, hp.prepared.detectedAt, hp.prepared.publishable, hp.prepared.logicalHash,
        rfl, ?_⟩
      · simp only [Call.published, PyDict.get?_set, if_true]
      · simp only [Call.published, List.filter_append, hold, hnew, List.nil_append]
        exact hp.rows
    · -- An earlier run keeps its rows.
      obtain ⟨stored, result, hrecorded⟩ := h.runs runId row hrow
      have hnone : (rows.filter fun r => r.runId? = some runId) = [] :=
        List.filter_eq_nil_iff.mpr fun r hr => by simp [rows_runId hp r hr, hrun]
      refine ⟨stored, result, hrecorded.published, ?_, hrecorded.payload, hrecorded.named,
        hrecorded.asOf, hrecorded.publishable, hrecorded.hash, hrecorded.runHash, ?_⟩
      · simp only [Call.published, PyDict.get?_set, if_neg hrun]
        exact hrecorded.found
      · simp only [Call.published, List.filter_append, hnone, List.append_nil]
        exact hrecorded.rows
  results runId hsome := by
    simp only [Call.published, PyDict.get?_set] at hsome ⊢
    split_ifs at hsome ⊢ with hrun
    · rfl
    · exact h.results runId hsome
  rows r hr := by
    simp only [Call.published, PyDict.get?_set]
    rcases List.mem_append.mp hr with hr | hr
    · obtain ⟨runId, hrun, hsome⟩ := h.rows r hr
      refine ⟨runId, hrun, ?_⟩
      split_ifs
      · rfl
      · exact hsome
    · exact ⟨call.runId, rows_runId hp r hr, by rw [if_pos rfl]; rfl⟩
  pointer name runId hget := by
    simp only [Call.published, PyDict.get?_set] at hget ⊢
    by_cases hrun : call.runId = runId
    · rw [if_pos hrun]
      rfl
    · rw [if_neg hrun]
      split_ifs at hget
      · exact absurd (Option.some.inj hget) hrun
      · exact h.pointer name runId hget
  completed runId hsome := by
    simp only [Call.published, PyDict.get?_set] at hsome
    split_ifs at hsome with hrun
    · exact ⟨requestId, (succeededWith_published hp).mpr (.inl ⟨rfl, hrun.symm⟩)⟩
    · obtain ⟨id, hsucceeded⟩ := h.completed runId hsome
      exact ⟨id, (succeededWith_published hp).mpr (.inr hsucceeded)⟩
  unique id id' runId h₁ h₂ := by
    -- No earlier request has succeeded with a run that did not exist.
    have hfresh : ∀ id, ¬ s.queue.SucceededWith id call.runId := by
      rintro id ⟨r, hget, hstatus, hrun⟩
      obtain ⟨row, hrow, _⟩ := h.evaluated id r call.runId hget hstatus hrun
      cases hp.freshRun.symm.trans hrow
    rcases (succeededWith_published hp).mp h₁ with ⟨hid₁, hrun₁⟩ | hold₁ <;>
      rcases (succeededWith_published hp).mp h₂ with ⟨hid₂, hrun₂⟩ | hold₂
    · exact hid₁.trans hid₂.symm
    · exact absurd (hrun₁ ▸ hold₂) (hfresh id')
    · exact absurd (hrun₂ ▸ hold₁) (hfresh id)
    · exact h.unique id id' runId hold₁ hold₂
  evaluated id r runId hget hstatus hrun := by
    simp only [Call.published, PyDict.get?_set] at hget ⊢
    split_ifs at hget with hid
    · obtain rfl := Option.some.inj hget
      obtain rfl := Option.some.inj hrun
      exact ⟨_, if_pos rfl, hasOf.symm⟩
    · obtain ⟨row, hrow, heval⟩ := h.evaluated id r runId hget hstatus hrun
      have hne : call.runId ≠ runId := by
        rintro rfl
        cases hp.freshRun.symm.trans hrow
      exact ⟨row, by rw [if_neg hne, hrow], heval⟩

end Publish

/-! ## Runs -/

/-- A call publishes the request it selects, or leaves the tables to the queue. -/
theorem runNext_cases (s : PublicationState) (call : Call) :
    (∃ requestId request candidate rows,
      call.Commits berlinToUtc sha256 s ∧
        s.queue.nextReady call.locked call.selectedAt = some (requestId, request) ∧
        Call.Publishes berlinToUtc sha256 call s requestId request request.asOfUtc candidate rows ∧
        s.step berlinToUtc sha256 (.runNext call) =
          call.published s requestId request request.asOfUtc candidate rows) ∨
      s.step berlinToUtc sha256 (.runNext call) = s ∨
      ∃ op, ¬ QueueOperation.Completes op ∧
        s.step berlinToUtc sha256 (.runNext call) = { s with queue := s.queue.step op } := by
  by_cases hc : call.Commits berlinToUtc sha256 s
  · have hcommits := hc
    obtain ⟨requestId, request, ⟨s', outcome⟩, hreach, hready, hpublish, hcommit⟩ := hc
    obtain ⟨request', candidate, rows, hp, rfl, _⟩ := Call.publish_eq_ok hpublish
    obtain rfl := Option.some.inj
      ((RecoveryQueue.nextReady_eq_some hready).1.symm.trans hp.stored)
    exact .inl ⟨requestId, request, candidate, rows, hcommits, hready, hp,
      Call.runNext_of_publish hreach hready hpublish hcommit⟩
  · refine .inr ((Call.runNext_of_not_commits hc).imp id ?_)
    rintro ⟨requestId, request, error, _, hstep⟩
    exact ⟨.recordFailure requestId (call.errorText error) call.failedAt call.failureDoneAt,
      fun h => h, hstep⟩

theorem Sound.step (h : s.Sound berlinToUtc sha256) (event : PublicationEvent) :
    (s.step berlinToUtc sha256 event).Sound berlinToUtc sha256 := by
  cases event with
  | queue op hop => exact h.queueStep op hop
  | runNext call =>
    obtain ⟨requestId, request, candidate, rows, _, _, hp, hs⟩ | hs | ⟨op, hop, hs⟩ :=
      runNext_cases s call
    · exact hs ▸ h.publish hp rfl
    · exact hs.symm ▸ h
    · exact hs ▸ h.queueStep op hop

theorem sound_after (events : List PublicationEvent) :
    (after berlinToUtc sha256 events).Sound berlinToUtc sha256 := by
  have hstep : ∀ (s : PublicationState) event, s.Sound berlinToUtc sha256 →
      (s.step berlinToUtc sha256 event).Sound berlinToUtc sha256 := fun _ event h => h.step event
  exact run_invariant hstep sound_empty events

/-- The published runs and the succeeded requests, one to one. -/
theorem Sound.bijection (h : s.Sound berlinToUtc sha256) :
    (∀ runId, (∃ row, s.runs.get? runId = some row ∧ row.status = .published) →
      ∃! requestId, s.queue.SucceededWith requestId runId) ∧
    ∀ requestId r, s.queue.requests.get? requestId = some r → r.status = .succeeded →
      ∃! runId, s.queue.SucceededWith requestId runId ∧
        ∃ row, s.runs.get? runId = some row ∧ row.status = .published := by
  constructor
  · rintro runId ⟨row, hrow, _⟩
    obtain ⟨requestId, hsucceeded⟩ := h.completed runId (by rw [hrow]; rfl)
    exact ⟨requestId, hsucceeded, fun id hid => h.unique id requestId runId hid hsucceeded⟩
  · intro requestId r hget hstatus
    obtain ⟨runId, hrun, _⟩ := (h.queue.history requestId r hget).succeeded hstatus
    obtain ⟨row, hrow, _⟩ := h.evaluated requestId r runId hget hstatus hrun
    obtain ⟨stored, result, hrecorded⟩ := h.runs runId row hrow
    refine ⟨runId, ⟨⟨r, hget, hstatus, hrun⟩, row, hrow, hrecorded.published⟩, ?_⟩
    rintro runId' ⟨⟨r', hget', _, hrun'⟩, _⟩
    obtain rfl := Option.some.inj (hget.symm.trans hget')
    exact Option.some.inj (hrun'.symm.trans hrun)

/-- The attempt bookkeeping of a failed call: the next attempt of the request, and its row. -/
def failureRecorded (s : PublicationState) (call : Call) (requestId : Uuid)
    (request : RecoveryRequest) (message : Text) : PublicationState :=
  { s with queue := ⟨s.queue.requests.set requestId
      (RecoveryQueue.failedRow request message call.failedAt call.failureDoneAt),
    s.queue.attempts.set (requestId, request.attemptCount + 1) (.failed message)⟩ }

theorem runNext_failed {call : Call} (h : ¬ call.Commits berlinToUtc sha256 s) :
    (call.runNext berlinToUtc sha256 s).1 = s ∨ ∃ requestId request message,
      s.queue.nextReady call.locked call.selectedAt = some (requestId, request) ∧
        (call.runNext berlinToUtc sha256 s).1 = s.failureRecorded call requestId request message := by
  obtain hs | ⟨requestId, request, error, hready, hs⟩ := Call.runNext_of_not_commits h
  · exact .inl hs
  · rw [hs, RecoveryQueue.step]
    split
    · next q' hperform =>
      obtain ⟨hget, hstatus, _⟩ := RecoveryQueue.nextReady_eq_some hready
      obtain ⟨request', hget', ⟨hne, _⟩ | ⟨_, rfl⟩⟩ := RecoveryQueue.recordFailure_eq_ok hperform
      · obtain rfl := Option.some.inj (hget.symm.trans hget')
        exact absurd hstatus hne
      · obtain rfl := Option.some.inj (hget.symm.trans hget')
        exact .inr ⟨requestId, request, _, hready, rfl⟩
    · exact .inl rfl

/-- Publication is atomic and exactly-once under every sequence of calls and queue operations. -/
theorem publication_atomic (events : List PublicationEvent) :
    let s := after berlinToUtc sha256 events
    (∀ name runId, s.pointer.get? name = some runId → ∃ row stored result,
      s.runs.get? runId = some row ∧ s.Recorded berlinToUtc sha256 runId row stored result) ∧
    (∀ runId row, s.runs.get? runId = some row → row.status = .published) ∧
    (∀ runId, (s.results.get? runId).isSome → (s.runs.get? runId).isSome) ∧
    (∀ r ∈ s.rows, ∃ runId, r.runId? = some runId ∧ (s.runs.get? runId).isSome) ∧
    (∀ call : Call, ¬ call.Commits berlinToUtc sha256 s →
      (call.runNext berlinToUtc sha256 s).1 = s ∨ ∃ requestId request message,
        s.queue.nextReady call.locked call.selectedAt = some (requestId, request) ∧
          (call.runNext berlinToUtc sha256 s).1 =
            s.failureRecorded call requestId request message) ∧
    (∀ call : Call, call.Commits berlinToUtc sha256 s →
      (call.runNext berlinToUtc sha256 s).1 =
        ({ call with commit := .committed, afterCommit := none }.runNext berlinToUtc sha256 s).1) ∧
    (∀ runId, (∃ row, s.runs.get? runId = some row ∧ row.status = .published) →
      ∃! requestId, s.queue.SucceededWith requestId runId) ∧
    ∀ requestId r, s.queue.requests.get? requestId = some r → r.status = .succeeded →
      ∃! runId, s.queue.SucceededWith requestId runId ∧
        ∃ row, s.runs.get? runId = some row ∧ row.status = .published := by
  intro s
  have h : s.Sound berlinToUtc sha256 := sound_after events
  refine ⟨?_, ?_, h.results, h.rows, fun call => runNext_failed, ?_, h.bijection⟩
  · intro name runId hget
    obtain ⟨row, hrow⟩ := Option.isSome_iff_exists.mp (h.pointer name runId hget)
    obtain ⟨stored, result, hrecorded⟩ := h.runs runId row hrow
    exact ⟨row, stored, result, hrow, hrecorded⟩
  · intro runId row hrow
    obtain ⟨_, _, hrecorded⟩ := h.runs runId row hrow
    exact hrecorded.published
  · rintro call ⟨requestId, request, published, hreach, hready, hpublish, hcommit⟩
    rw [Call.runNext_of_publish hreach hready hpublish hcommit]
    have hcommitted : ({ call with commit := .committed, afterCommit := none }.runNext berlinToUtc
        sha256 s).1 = published.1 :=
      Call.runNext_of_publish hreach hready hpublish fun _ he => nomatch he
    exact hcommitted.symm

end PublicationState

end Threadline
