import Threadline.PublicationRuns

/-!
# Draining the recovery queue

The runner calls a worker until no request is ready or a limit is reached, while
other sessions go on between its calls. Each request that it counts has been
published by one run of its own, and stays published.
-/

open PyText PyJson PyCalendar PySorted PyExcept Runs

namespace Threadline

inductive StopReason
  | batchLimit | timeBudget | noReadyRequest
  deriving DecidableEq

structure RecoveryDrainSummary where
  processedCount : ℕ
  stopReason : StopReason
  elapsedSeconds : ℚ
  lastRequestId : Option Uuid
  lastRunId : Option Uuid
  lastLogicalFingerprint : Option Text

inductive DrainError
  | maxRequests | maxSeconds
  | worker (error : RecoveryError)

/-- `round(seconds, 3)`, with ties to even. -/
def roundMillis (seconds : ℚ) : ℚ :=
  let millis := seconds * 1000
  let below := millis.floor
  let rest := millis - below
  let rounded := if rest < 1 / 2 ∨ rest = 1 / 2 ∧ below % 2 = 0 then below else below + 1
  rounded / 1000

/-- One round of the loop: the reading of the clock, what other sessions commit before the call, and
the call. -/
structure DrainTurn where
  reading : ℚ
  others : List PublicationEvent
  call : Call

/-- What a drain meets: its clock readings and its rounds. -/
structure DrainSchedule where
  started : ℚ
  turns : ℕ → DrainTurn
  finished : ℚ

namespace DrainSchedule

variable (berlinToUtc : Date → ℕ → UtcDateTime) (sha256 : Bytes → Text) (schedule : DrainSchedule)

def summary (processed : ℕ) (stopReason : StopReason) (last : Option RecoveryOutcome) :
    RecoveryDrainSummary where
  processedCount := processed
  stopReason := stopReason
  elapsedSeconds := roundMillis (schedule.finished - schedule.started)
  lastRequestId := last.map RecoveryOutcome.requestId
  lastRunId := last.map RecoveryOutcome.runId
  lastLogicalFingerprint := last.map RecoveryOutcome.logicalFingerprint

/-- The loop, with the number of requests that it may still process. -/
def loop (maxSeconds : ℚ) : ℕ → ℕ → Option RecoveryOutcome → PublicationState →
    PublicationState × Except DrainError RecoveryDrainSummary
  | 0, processed, last, s => (s, .ok (schedule.summary processed .batchLimit last))
  | remaining + 1, processed, last, s =>
    let turn := schedule.turns processed
    if turn.reading - schedule.started ≥ maxSeconds then
      (s, .ok (schedule.summary processed .timeBudget last))
    else
      let s := run (PublicationState.step berlinToUtc sha256) s turn.others
      match turn.call.runNext berlinToUtc sha256 s with
      | (s, .error error) => (s, .error (.worker error))
      | (s, .ok none) => (s, .ok (schedule.summary processed .noReadyRequest last))
      | (s, .ok (some outcome)) => loop maxSeconds remaining (processed + 1) (some outcome) s

/-- `drain_recovery_queue`. The limits are `none` where they are no integer and no finite number. -/
def drainRecoveryQueue (maxRequests : Option ℤ) (maxSeconds : Option ℚ) (s : PublicationState) :
    PublicationState × Except DrainError RecoveryDrainSummary :=
  match maxRequests.filter fun n => 0 < n, maxSeconds.filter fun t => 0 < t with
  | none, _ => (s, .error .maxRequests)
  | some _, none => (s, .error .maxSeconds)
  | some n, some t => schedule.loop berlinToUtc sha256 t n.toNat 0 none s

end DrainSchedule

/-! ## What stays published -/

namespace PublicationState

/-- Runs, results and completed requests stay as they are. -/
structure Grows (s s' : PublicationState) : Prop where
  runs : ∀ runId row, s.runs.get? runId = some row → s'.runs.get? runId = some row
  results : ∀ runId stored, s.results.get? runId = some stored → s'.results.get? runId = some stored
  succeeded : ∀ requestId runId, s.queue.SucceededWith requestId runId →
    s'.queue.SucceededWith requestId runId

variable {berlinToUtc : Date → ℕ → UtcDateTime} {sha256 : Bytes → Text} {s s' s'' : PublicationState}

theorem Grows.refl (s : PublicationState) : s.Grows s := ⟨fun _ _ h => h, fun _ _ h => h, fun _ _ h => h⟩

theorem Grows.trans (h : s.Grows s') (h' : s'.Grows s'') : s.Grows s'' where
  runs runId row hrow := h'.runs runId row (h.runs runId row hrow)
  results runId stored hstored := h'.results runId stored (h.results runId stored hstored)
  succeeded requestId runId hs := h'.succeeded requestId runId (h.succeeded requestId runId hs)

theorem grows_published {call : Call} {requestId : Uuid} {request : RecoveryRequest}
    {asOfUtc : UtcDateTime} {candidate : Candidate} {rows : List ResultRow}
    (hp : Call.Publishes berlinToUtc sha256 call s requestId request asOfUtc candidate rows) :
    s.Grows (call.published s requestId request asOfUtc candidate rows) where
  runs runId row hrow := by
    have hne : call.runId ≠ runId := by
      rintro rfl
      cases hp.freshRun.symm.trans hrow
    rw [Call.published, PyDict.get?_set, if_neg hne, hrow]
  results runId stored hstored := by
    have hne : call.runId ≠ runId := by
      rintro rfl
      cases hp.freshResult.symm.trans hstored
    rw [Call.published, PyDict.get?_set, if_neg hne, hstored]
  succeeded id runId hs := by
    obtain ⟨r, hget, hstatus, hrun⟩ := hs
    have hne : requestId ≠ id := by
      rintro rfl
      obtain rfl := Option.some.inj (hp.stored.symm.trans hget)
      cases hp.pending.symm.trans hstatus
    refine ⟨r, ?_, hstatus, hrun⟩
    rw [Call.published, PyDict.get?_set, if_neg hne, hget]

theorem grows_queueStep (s : PublicationState) {op : QueueOperation} (hop : ¬ op.Completes) :
    s.Grows { s with queue := s.queue.step op } :=
  ⟨fun _ _ h => h, fun _ _ h => h, fun _ _ h => (RecoveryQueue.succeededWith_step hop).mpr h⟩

theorem grows_step (s : PublicationState) (event : PublicationEvent) :
    s.Grows (s.step berlinToUtc sha256 event) := by
  cases event with
  | queue op hop => exact s.grows_queueStep hop
  | runNext call =>
    obtain ⟨requestId, request, candidate, rows, -, -, hp, hs⟩ | hs | ⟨op, hop, hs⟩ :=
      runNext_cases s call
    · rw [hs]
      exact grows_published hp
    · rw [hs]
      exact .refl s
    · rw [hs]
      exact s.grows_queueStep hop

theorem grows_run (s : PublicationState) (events : List PublicationEvent) :
    s.Grows (run (step berlinToUtc sha256) s events) := by
  have hstep : ∀ (t : PublicationState) event, s.Grows t →
      s.Grows (t.step berlinToUtc sha256 event) := fun t event h => h.trans (t.grows_step event)
  exact run_invariant hstep (Grows.refl s) events

/-! ## One round -/

/-- A call that finds nothing leaves the tables as they are. -/
theorem runNext_eq_none {call : Call} (h : call.runNext berlinToUtc sha256 s = (s', .ok none)) :
    s' = s ∧ s.queue.nextReady call.locked call.selectedAt = none := by
  unfold Call.runNext at h
  split at h
  · cases h
  · split at h
    next hready =>
      obtain ⟨rfl, -⟩ := Prod.mk.inj h
      exact ⟨rfl, hready⟩
    · split at h
      · cases h
      · split at h
        · cases h
        · cases h
        · split at h <;> cases h

/-- An outcome belongs to a request that this call has published. -/
theorem runNext_eq_some {call : Call} {outcome : RecoveryOutcome}
    (h : call.runNext berlinToUtc sha256 s = (s', .ok (some outcome))) :
    ∃ request candidate rows,
      Call.Publishes berlinToUtc sha256 call s outcome.requestId request request.asOfUtc candidate
        rows ∧
      s' = call.published s outcome.requestId request request.asOfUtc candidate rows ∧
      outcome.runId = call.runId ∧ outcome.inputFingerprint = candidate.evidenceHash ∧
      outcome.logicalFingerprint = candidate.logicalHash := by
  unfold Call.runNext at h
  split at h
  · cases h
  · split at h
    · cases h
    next requestId request hready =>
      split at h
      · cases h
      next published outcome' hpublish =>
        obtain ⟨request', candidate, rows, hp, rfl, rfl⟩ := Call.publish_eq_ok hpublish
        obtain rfl := Option.some.inj
          ((RecoveryQueue.nextReady_eq_some hready).1.symm.trans hp.stored)
        split at h
        · cases h
        · cases h
        · split at h
          · cases h
          · obtain ⟨rfl, hout⟩ := Prod.mk.inj h
            obtain rfl := Option.some.inj (Except.ok.inj hout)
            exact ⟨request, candidate, rows, hp, rfl, rfl, rfl, rfl⟩

/-- The outcomes belong to different requests and runs, which were open before and are published
now. -/
structure Processed (s s' : PublicationState) (outcomes : List RecoveryOutcome) : Prop where
  grows : s.Grows s'
  open_before : ∀ o ∈ outcomes, s.runs.get? o.runId = none ∧
    ∀ runId, ¬ s.queue.SucceededWith o.requestId runId
  published : ∀ o ∈ outcomes, s'.queue.SucceededWith o.requestId o.runId ∧
    (s'.runs.get? o.runId).isSome ∧ ∃ stored, s'.results.get? o.runId = some stored ∧
      stored.inputFingerprint = o.inputFingerprint ∧
      stored.logicalFingerprint = o.logicalFingerprint
  requests : (outcomes.map RecoveryOutcome.requestId).Nodup
  runs : (outcomes.map RecoveryOutcome.runId).Nodup

theorem processed_nil (s : PublicationState) : Processed s s [] :=
  ⟨.refl s, List.forall_mem_nil _, List.forall_mem_nil _, List.nodup_nil, List.nodup_nil⟩

variable {done : List RecoveryOutcome}

theorem Processed.mono (h : Processed s s' done) (hgrows : s'.Grows s'') :
    Processed s s'' done where
  grows := h.grows.trans hgrows
  open_before := h.open_before
  published o ho := by
    obtain ⟨hsucceeded, hrun, stored, hstored, hfingerprints⟩ := h.published o ho
    obtain ⟨row, hrow⟩ := Option.isSome_iff_exists.mp hrun
    exact ⟨hgrows.succeeded _ _ hsucceeded, by rw [hgrows.runs _ _ hrow]; rfl, stored,
      hgrows.results _ _ hstored, hfingerprints⟩
  requests := h.requests
  runs := h.runs

theorem Grows.get?_none (h : s.Grows s') {runId : Uuid} (hnone : s'.runs.get? runId = none) :
    s.runs.get? runId = none := by
  by_contra hsome
  obtain ⟨row, hget⟩ := Option.ne_none_iff_exists'.mp hsome
  cases hnone.symm.trans (h.runs runId row hget)

/-- The outcome of one more call. -/
theorem Processed.snoc (h : Processed s s' done) {call : Call} {outcome : RecoveryOutcome}
    (hcall : call.runNext berlinToUtc sha256 s' = (s'', .ok (some outcome))) :
    Processed s s'' (done ++ [outcome]) := by
  obtain ⟨request, candidate, rows, hp, rfl, hrun, hevidence, hlogical⟩ := runNext_eq_some hcall
  -- The selected request is pending, so it is none of those that have succeeded.
  have hopen : ∀ runId, ¬ s'.queue.SucceededWith outcome.requestId runId := by
    rintro runId ⟨r, hget, hstatus, -⟩
    obtain rfl := Option.some.inj (hp.stored.symm.trans hget)
    cases hp.pending.symm.trans hstatus
  have hfresh : s'.runs.get? outcome.runId = none := hrun ▸ hp.freshRun
  have hkept := h.mono (grows_published hp)
  constructor
  · exact hkept.grows
  · intro o ho
    obtain ho | ho := List.mem_append.mp ho
    · exact h.open_before o ho
    · obtain rfl := List.mem_singleton.mp ho
      exact ⟨h.grows.get?_none hfresh, fun runId hs => hopen runId (h.grows.succeeded _ _ hs)⟩
  · intro o ho
    obtain ho | ho := List.mem_append.mp ho
    · exact hkept.published o ho
    · obtain rfl := List.mem_singleton.mp ho
      refine ⟨(succeededWith_published hp).mpr (.inl ⟨rfl, hrun⟩), ?_, candidate.recoveryResult, ?_,
        hevidence.symm, hlogical.symm⟩
      · rw [hrun, Call.published, PyDict.get?_set, if_pos rfl]
        rfl
      · rw [hrun, Call.published, PyDict.get?_set, if_pos rfl]
  · rw [List.map_append, List.map_singleton]
    refine List.nodup_append.mpr ⟨h.requests, List.nodup_singleton _, fun id hid id' hid' => ?_⟩
    obtain ⟨o, ho, rfl⟩ := List.mem_map.mp hid
    obtain rfl := List.mem_singleton.mp hid'
    intro hsame
    exact hopen o.runId (hsame ▸ (h.published o ho).1)
  · rw [List.map_append, List.map_singleton]
    refine List.nodup_append.mpr ⟨h.runs, List.nodup_singleton _, fun id hid id' hid' => ?_⟩
    obtain ⟨o, ho, rfl⟩ := List.mem_map.mp hid
    obtain rfl := List.mem_singleton.mp hid'
    intro hsame
    have hsome := (h.published o ho).2.1
    rw [hsame, hfresh] at hsome
    cases hsome

/-- Nothing is ready when every pending request waits or is locked. -/
theorem nextReady_eq_none {q : RecoveryQueue} (hq : q.Consistent) {locked : List Uuid}
    {now : Instant} (h : q.nextReady locked now = none) {id : Uuid} {r : RecoveryRequest}
    (hget : q.requests.get? id = some r) (hpending : r.status = .pending) :
    now < r.nextAttemptAtUtc ∨ id ∈ locked := by
  have hattempts := ((hq.history id r hget).pending hpending).1
  rw [RecoveryQueue.nextReady, List.head?_eq_none_iff] at h
  by_contra hready
  obtain ⟨hdue, hfree⟩ := not_or.mp hready
  have hmem : (id, r) ∈ q.requests.items.filter fun p =>
      decide (p.2.status = .pending) && decide (p.2.attemptCount < p.2.maxAttempts) &&
        decide (p.2.nextAttemptAtUtc ≤ now) && !locked.contains p.1 := by
    refine List.mem_filter.mpr ⟨PyDict.mem_items_iff.mpr hget, ?_⟩
    simp [hpending, hattempts, not_lt.mp hdue, hfree]
  have hsorted := (mem_sortedBy (κ := Instant ×ₗ Instant ×ₗ Text) (fun p : Uuid × RecoveryRequest =>
    toLex (p.2.nextAttemptAtUtc, toLex (p.2.createdAtUtc, p.1)))).mpr hmem
  rw [h] at hsorted
  cases hsorted

/-! ## The loop -/

/-- What a drain reports when it stops. -/
structure Stopped (schedule : DrainSchedule) (maxSeconds : ℚ) (limit : ℕ) (s : PublicationState)
    (outcomes : List RecoveryOutcome) (summary : RecoveryDrainSummary) : Prop where
  processedCount : summary.processedCount = outcomes.length
  lastRequestId : summary.lastRequestId = outcomes.getLast?.map RecoveryOutcome.requestId
  lastRunId : summary.lastRunId = outcomes.getLast?.map RecoveryOutcome.runId
  lastLogicalFingerprint : summary.lastLogicalFingerprint =
    outcomes.getLast?.map RecoveryOutcome.logicalFingerprint
  batchLimit : summary.stopReason = .batchLimit ↔ outcomes.length = limit
  timeBudget : summary.stopReason = .timeBudget →
    maxSeconds ≤ (schedule.turns outcomes.length).reading - schedule.started
  noReadyRequest : summary.stopReason = .noReadyRequest →
    ∀ id r, s.queue.requests.get? id = some r → r.status = .pending →
      (schedule.turns outcomes.length).call.selectedAt < r.nextAttemptAtUtc ∨
        id ∈ (schedule.turns outcomes.length).call.locked

variable (berlinToUtc sha256)

/-- A drain that ends with this result has processed these outcomes: no more than its limit, and
none that it has begun after its time. -/
structure Drained (schedule : DrainSchedule) (maxSeconds : ℚ) (limit : ℕ) (s s' : PublicationState)
    (outcomes : List RecoveryOutcome) (result : Except DrainError RecoveryDrainSummary) : Prop where
  processed : Processed s s' outcomes
  length : outcomes.length ≤ limit
  inTime : ∀ k < outcomes.length, (schedule.turns k).reading - schedule.started < maxSeconds
  stopped : ∀ summary, result = .ok summary → Stopped schedule maxSeconds limit s' outcomes summary
  raised : ∀ error, result = .error error → outcomes.length < limit ∧ ∃ s₁ raised,
    error = .worker raised ∧ Processed s s₁ outcomes ∧
      (schedule.turns outcomes.length).call.runNext berlinToUtc sha256 s₁ = (s', .error raised)

variable {berlinToUtc sha256} {schedule : DrainSchedule} {maxSeconds : ℚ} {limit : ℕ}

/-- What is reported of the requests that were processed. -/
theorem stopped_summary {reason : StopReason} (hbatch : reason = .batchLimit ↔ done.length = limit)
    (htime : reason = .timeBudget →
      maxSeconds ≤ (schedule.turns done.length).reading - schedule.started)
    (hready : reason = .noReadyRequest →
      ∀ id r, s.queue.requests.get? id = some r → r.status = .pending →
        (schedule.turns done.length).call.selectedAt < r.nextAttemptAtUtc ∨
          id ∈ (schedule.turns done.length).call.locked) :
    Stopped schedule maxSeconds limit s done
      (schedule.summary done.length reason done.getLast?) where
  processedCount := rfl
  lastRequestId := rfl
  lastRunId := rfl
  lastLogicalFingerprint := rfl
  batchLimit := hbatch
  timeBudget := htime
  noReadyRequest := hready

/-- A loop that ends with a summary here. -/
theorem drained_of_stopped (hprocessed : Processed s s' done) (hlength : done.length ≤ limit)
    (htimes : ∀ k < done.length, (schedule.turns k).reading - schedule.started < maxSeconds)
    {summary : RecoveryDrainSummary}
    (hstopped : Stopped schedule maxSeconds limit s' done summary) :
    Drained berlinToUtc sha256 schedule maxSeconds limit s s' done (.ok summary) where
  processed := hprocessed
  length := hlength
  inTime := htimes
  stopped summary' h := by
    obtain rfl := Except.ok.inj h
    exact hstopped
  raised error h := by cases h

/-- A loop that ends with the exception of a call. -/
theorem drained_of_raised {s₁ : PublicationState} {error : RecoveryError}
    (hprocessed : Processed s s₁ done) (hlength : done.length < limit)
    (htimes : ∀ k < done.length, (schedule.turns k).reading - schedule.started < maxSeconds)
    (hcall : (schedule.turns done.length).call.runNext berlinToUtc sha256 s₁ = (s', .error error)) :
    Drained berlinToUtc sha256 schedule maxSeconds limit s s' done (.error (.worker error)) where
  processed := by
    have hgrows : s₁.Grows (s₁.step berlinToUtc sha256
        (.runNext (schedule.turns done.length).call)) := s₁.grows_step _
    simp only [PublicationState.step, hcall] at hgrows
    exact hprocessed.mono hgrows
  length := hlength.le
  inTime := htimes
  stopped summary h := by cases h
  raised error' h := by
    obtain rfl := Except.error.inj h
    exact ⟨hlength, s₁, error, rfl, hprocessed, hcall⟩

/-- The loop, from a round that finds these requests processed. -/
theorem loop_spec {result : Except DrainError RecoveryDrainSummary} {s₀ : PublicationState} :
    ∀ {remaining : ℕ} {done : List RecoveryOutcome} {s : PublicationState},
      s.Sound berlinToUtc sha256 → Processed s₀ s done → done.length + remaining = limit →
      (∀ k < done.length, (schedule.turns k).reading - schedule.started < maxSeconds) →
      schedule.loop berlinToUtc sha256 maxSeconds remaining done.length done.getLast? s =
        (s', result) →
      ∃ outcomes, Drained berlinToUtc sha256 schedule maxSeconds limit s₀ s' outcomes result := by
  intro remaining
  induction remaining with
  | zero =>
    intro done s _ hprocessed hlimit htimes h
    obtain ⟨rfl, rfl⟩ := Prod.mk.inj h
    refine ⟨done, drained_of_stopped hprocessed (by omega) htimes (stopped_summary ?_ ?_ ?_)⟩
    · exact iff_of_true rfl (by omega)
    · intro hreason
      cases hreason
    · intro hreason
      cases hreason
  | succ remaining ih =>
    intro done s hsound hprocessed hlimit htimes h
    have hshort : ¬ done.length = limit := by omega
    simp only [DrainSchedule.loop] at h
    split_ifs at h with htime
    · obtain ⟨rfl, rfl⟩ := Prod.mk.inj h
      refine ⟨done, drained_of_stopped hprocessed (by omega) htimes (stopped_summary ?_ ?_ ?_)⟩
      · exact iff_of_false (by decide) hshort
      · exact fun _ => htime
      · intro hreason
        cases hreason
    · -- What the other sessions commit keeps what is published.
      have hothers : Processed s₀ (run (PublicationState.step berlinToUtc sha256) s
          (schedule.turns done.length).others) done := hprocessed.mono (s.grows_run _)
      have hsound₁ : (run (PublicationState.step berlinToUtc sha256) s
          (schedule.turns done.length).others).Sound berlinToUtc sha256 :=
        run_invariant (fun _ event h => h.step event) hsound _
      generalize run (PublicationState.step berlinToUtc sha256) s
        (schedule.turns done.length).others = s₁ at h hothers hsound₁
      have hstep := hsound₁.step (.runNext (schedule.turns done.length).call)
      simp only [PublicationState.step] at hstep
      split at h
      next s₂ error hcall =>
        obtain ⟨rfl, rfl⟩ := Prod.mk.inj h
        exact ⟨done, drained_of_raised hothers (by omega) htimes hcall⟩
      next s₂ hcall =>
        obtain ⟨rfl, rfl⟩ := Prod.mk.inj h
        obtain ⟨rfl, hnone⟩ := runNext_eq_none hcall
        refine ⟨done, drained_of_stopped hothers (by omega) htimes (stopped_summary ?_ ?_ ?_)⟩
        · exact iff_of_false (by decide) hshort
        · intro hreason
          cases hreason
        · exact fun _ id r hget hpending => nextReady_eq_none hsound₁.queue hnone hget hpending
      next s₂ outcome hcall =>
        rw [hcall] at hstep
        have hlength : (done ++ [outcome]).length = done.length + 1 := List.length_append
        refine ih hstep (hothers.snoc hcall) (by omega) ?_ ?_
        · intro k hk
          obtain hk | rfl := Nat.lt_succ_iff_lt_or_eq.mp (hlength ▸ hk)
          · exact htimes k hk
          · exact not_le.mp htime
        · rw [hlength, List.getLast?_concat]
          exact h

/-- Draining the queue of a running system refuses a limit that is not positive, and otherwise it
processes requests one after the other until it has to stop. -/
theorem drainRecoveryQueue_spec (events : List PublicationEvent) (schedule : DrainSchedule)
    (maxRequests : Option ℤ) (maxSeconds : Option ℚ) :
    let s := after berlinToUtc sha256 events
    let drained := schedule.drainRecoveryQueue berlinToUtc sha256 maxRequests maxSeconds s
    (∃ error, drained = (s, .error error) ∧
      ((error = .maxRequests ∧ ∀ n, maxRequests = some n → n ≤ 0) ∨
        (error = .maxSeconds ∧ ∀ t, maxSeconds = some t → t ≤ 0))) ∨
    ∃ n t, maxRequests = some n ∧ 0 < n ∧ maxSeconds = some t ∧ 0 < t ∧
      ∃ outcomes, Drained berlinToUtc sha256 schedule t n.toNat s drained.1 outcomes drained.2 := by
  intro s drained
  have hdrained : drained =
      schedule.drainRecoveryQueue berlinToUtc sha256 maxRequests maxSeconds s := rfl
  clear_value drained
  unfold DrainSchedule.drainRecoveryQueue at hdrained
  split at hdrained
  next hrequests =>
    refine .inl ⟨.maxRequests, hdrained, .inl ⟨rfl, fun n hn => ?_⟩⟩
    rw [hn, Option.filter_eq_none_iff] at hrequests
    simpa using hrequests n rfl
  next n hrequests hseconds =>
    refine .inl ⟨.maxSeconds, hdrained, .inr ⟨rfl, fun t ht => ?_⟩⟩
    rw [ht, Option.filter_eq_none_iff] at hseconds
    simpa using hseconds t rfl
  next n t hrequests hseconds =>
    obtain ⟨hn, hpos⟩ := Option.filter_eq_some_iff.mp hrequests
    obtain ⟨ht, htpos⟩ := Option.filter_eq_some_iff.mp hseconds
    refine .inr ⟨n, t, hn, of_decide_eq_true hpos, ht, of_decide_eq_true htpos, ?_⟩
    exact loop_spec (sound_after events) (processed_nil s) (Nat.zero_add _)
      (fun k hk => absurd hk (Nat.not_lt_zero k)) hdrained.symm

end PublicationState

end Threadline
