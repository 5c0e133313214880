import Threadline.PublicationRuns

/-!
# The published evaluation point

A publication moves the pointer without looking at the run it replaces. With
requests enqueued in the order of their evaluation times, the pointer goes back
only to a request that was passed over while it waited.
-/

open PyText PyJson PyCalendar PyExcept Runs

namespace Threadline

namespace RecoveryQueue

/-- No change removes a request or its evaluation time. -/
theorem asOf_change {q q' : RecoveryQueue} (h : q.Change q') {id : Uuid} {r : RecoveryRequest}
    (hget : q.requests.get? id = some r) :
    ∃ r', q'.requests.get? id = some r' ∧ r'.asOfUtc = r.asOfUtc := by
  have hset : ∀ {requestId row}, (∀ old, q.requests.get? requestId = some old →
      row.asOfUtc = old.asOfUtc) →
      ∃ r', (q.requests.set requestId row).get? id = some r' ∧ r'.asOfUtc = r.asOfUtc := by
    intro requestId row hrow
    by_cases hid : requestId = id
    · subst hid
      exact ⟨row, by rw [PyDict.get?_set, if_pos rfl], hrow r hget⟩
    · exact ⟨r, by rw [PyDict.get?_set, if_neg hid, hget], rfl⟩
  cases h with
  | unchanged => exact ⟨r, hget, rfl⟩
  | enqueued new now hid _ => exact hset fun old hold => nomatch hid.symm.trans hold
  | succeeded requestId runId request now hr _ =>
    exact hset fun old hold => Option.some.inj (hr.symm.trans hold) ▸ rfl
  | failed requestId request message now done hr _ =>
    exact hset fun old hold => Option.some.inj (hr.symm.trans hold) ▸ rfl
  | requeued requestId request additionalAttempts now hr _ _ =>
    exact hset fun old hold => Option.some.inj (hr.symm.trans hold) ▸ rfl

end RecoveryQueue

namespace PublicationState

variable (berlinToUtc : Date → ℕ → UtcDateTime) (sha256 : Bytes → Text)

/-- Every request that the events add has an evaluation time no earlier than those of the requests
already there. -/
def EnqueuedInOrder (events : List PublicationEvent) : Prop :=
  ∀ pre event post, events = pre ++ event :: post → ∀ id r,
    (after berlinToUtc sha256 pre).queue.requests.get? id = none →
    (after berlinToUtc sha256 (pre ++ [event])).queue.requests.get? id = some r →
    ∀ id' r', (after berlinToUtc sha256 pre).queue.requests.get? id' = some r' →
      r'.asOfUtc ≤ r.asOfUtc

/-- The call replaces one run by another under a publication name. -/
def Replaces (s : PublicationState) (call : Call) (old new : ReconciliationRun) : Prop :=
  ∃ name runId runId', s.pointer.get? name = some runId ∧ s.runs.get? runId = some old ∧
    (s.step berlinToUtc sha256 (.runNext call)).pointer.get? name = some runId' ∧
    (s.step berlinToUtc sha256 (.runNext call)).runs.get? runId' = some new

/-- The published evaluation point never moves backwards. -/
def PointMovesForward (events : List PublicationEvent) : Prop :=
  ∀ pre call post, events = pre ++ .runNext call :: post → ∀ old new,
    Replaces berlinToUtc sha256 (after berlinToUtc sha256 pre) call old new →
      old.asOfUtc ≤ new.asOfUtc

/-- The request that the call selects had not succeeded when the run `old` was published, which has
a later evaluation time. -/
def PassedOver (pre : List PublicationEvent) (call : Call) (old : ReconciliationRun) : Prop :=
  ∃ requestId request, (after berlinToUtc sha256 pre).queue.nextReady call.locked call.selectedAt =
      some (requestId, request) ∧
    ∃ pre' call' post', pre = pre' ++ .runNext call' :: post' ∧
      call'.Commits berlinToUtc sha256 (after berlinToUtc sha256 pre') ∧
      (after berlinToUtc sha256 (pre' ++ [.runNext call'])).runs.get? call'.runId = some old ∧
      ∃ waiting, (after berlinToUtc sha256 pre').queue.requests.get? requestId = some waiting ∧
        waiting.status ≠ .succeeded ∧ waiting.asOfUtc < old.asOfUtc

/-- Every call that commits has selected an unfinished request with the earliest evaluation
time. -/
def OldestFirst (events : List PublicationEvent) : Prop :=
  ∀ pre call post, events = pre ++ .runNext call :: post →
    call.Commits berlinToUtc sha256 (after berlinToUtc sha256 pre) → ∀ requestId request,
    (after berlinToUtc sha256 pre).queue.nextReady call.locked call.selectedAt =
      some (requestId, request) →
    ∀ id r, (after berlinToUtc sha256 pre).queue.requests.get? id = some r →
      r.status ≠ .succeeded → request.asOfUtc ≤ r.asOfUtc

/-! ## What a run of events keeps of the queue -/

variable {berlinToUtc sha256}

theorem queue_change (s : PublicationState) (event : PublicationEvent) :
    s.queue.Change (s.step berlinToUtc sha256 event).queue := by
  cases event with
  | queue op hop => exact RecoveryQueue.change_step s.queue op
  | runNext call =>
    obtain ⟨requestId, request, candidate, rows, _, _, hp, hs⟩ | hs | ⟨op, _, hs⟩ :=
      runNext_cases s call
    · rw [hs]
      exact .succeeded requestId call.runId request call.completedAt hp.stored hp.pending
    · rw [hs]
      exact .unchanged
    · rw [hs]
      exact RecoveryQueue.change_step s.queue op

/-- A request keeps its evaluation time, and once it has succeeded its row. -/
def QueueGrows (s s' : PublicationState) : Prop :=
  ∀ id r, s.queue.requests.get? id = some r →
    ∃ r', s'.queue.requests.get? id = some r' ∧ r'.asOfUtc = r.asOfUtc ∧
      (r.status = .succeeded → r' = r)

theorem Sound.queueGrows_step {s : PublicationState} (h : s.Sound berlinToUtc sha256)
    (event : PublicationEvent) : s.QueueGrows (s.step berlinToUtc sha256 event) := by
  intro id r hget
  have hchange : s.queue.Change (s.step berlinToUtc sha256 event).queue := queue_change s event
  obtain ⟨r', hget', hasOf⟩ := RecoveryQueue.asOf_change hchange hget
  refine ⟨r', hget', hasOf, fun hstatus => ?_⟩
  have hkept := ((h.queue.keeps_change hchange).succeeded id r hget hstatus).1
  exact Option.some.inj (hget'.symm.trans hkept)

theorem QueueGrows.trans {s s' s'' : PublicationState} (h : s.QueueGrows s') (h' : s'.QueueGrows s'') :
    s.QueueGrows s'' := by
  intro id r hget
  obtain ⟨r', hget', hasOf, hrow⟩ := h id r hget
  obtain ⟨r'', hget'', hasOf', hrow'⟩ := h' id r' hget'
  refine ⟨r'', hget'', hasOf'.trans hasOf, fun hstatus => ?_⟩
  obtain rfl := hrow hstatus
  exact hrow' hstatus

theorem after_append (events events' : List PublicationEvent) :
    after berlinToUtc sha256 (events ++ events') =
      run (step berlinToUtc sha256) (after berlinToUtc sha256 events) events' :=
  run_append events events'

theorem queueGrows_after (events events' : List PublicationEvent) :
    (after berlinToUtc sha256 events).QueueGrows
      (after berlinToUtc sha256 (events ++ events')) := by
  rw [after_append]
  have hinv : ∀ (s : PublicationState) event, s.Sound berlinToUtc sha256 →
      (s.step berlinToUtc sha256 event).Sound berlinToUtc sha256 := fun _ event h => h.step event
  have hstep : ∀ (s : PublicationState) event, s.Sound berlinToUtc sha256 →
      s.QueueGrows (s.step berlinToUtc sha256 event) := fun _ event h => h.queueGrows_step event
  have hrefl : ∀ s : PublicationState, s.QueueGrows s := fun _ _ r hget =>
    ⟨r, hget, rfl, fun _ => rfl⟩
  exact run_rel hrefl (fun _ _ _ => QueueGrows.trans) hinv hstep (sound_after events) events'

/-- A request that is added later has an evaluation time no earlier than those already there. -/
theorem EnqueuedInOrder.le_added {events pre mid post : List PublicationEvent}
    (h : EnqueuedInOrder berlinToUtc sha256 events) (hsplit : events = pre ++ mid ++ post)
    {id id' : Uuid} {r r' : RecoveryRequest}
    (hnone : (after berlinToUtc sha256 pre).queue.requests.get? id = none)
    (hget : (after berlinToUtc sha256 (pre ++ mid)).queue.requests.get? id = some r)
    (hget' : (after berlinToUtc sha256 pre).queue.requests.get? id' = some r') :
    r'.asOfUtc ≤ r.asOfUtc := by
  have hbefore : ¬ ((after berlinToUtc sha256 pre).queue.requests.get? id).isSome := by simp [hnone]
  have hafter : ((run (step berlinToUtc sha256) (after berlinToUtc sha256 pre)
      mid).queue.requests.get? id).isSome := by
    rw [← after_append, hget]
    rfl
  obtain ⟨mid₁, event, mid₂, rfl, hnot, hsome⟩ := exists_step_of_run
    (fun s : PublicationState => (s.queue.requests.get? id).isSome = true) hbefore hafter
  rw [← after_append] at hnot
  rw [← after_append, ← List.append_assoc] at hsome
  obtain ⟨added, hadded⟩ := Option.isSome_iff_exists.mp hsome
  obtain ⟨r₁, hget₁, hasOf₁, _⟩ := queueGrows_after pre mid₁ id' r' hget'
  -- The evaluation times of both requests are the same at the step that adds the later one.
  obtain ⟨r₂, hget₂, hasOf₂, _⟩ := queueGrows_after (pre ++ mid₁ ++ [event]) mid₂ id added hadded
  have heq : pre ++ mid₁ ++ [event] ++ mid₂ = pre ++ (mid₁ ++ event :: mid₂) := by simp
  rw [heq] at hget₂
  obtain rfl := Option.some.inj (hget₂.symm.trans hget)
  have hle := h (pre ++ mid₁) event (mid₂ ++ post) (by simp [hsplit]) id added
    (Option.not_isSome_iff_eq_none.mp hnot) hadded id' r₁ hget₁
  rw [hasOf₁] at hle
  exact hle.trans_eq hasOf₂.symm

/-! ## Where a run comes from -/

/-- A run in the tables was published by an earlier call, for a request with its evaluation
time. -/
theorem exists_publication {events : List PublicationEvent} {runId : Uuid} {row : ReconciliationRun}
    (hrow : (after berlinToUtc sha256 events).runs.get? runId = some row) :
    ∃ pre call post requestId request, events = pre ++ .runNext call :: post ∧
      call.runId = runId ∧ call.Commits berlinToUtc sha256 (after berlinToUtc sha256 pre) ∧
      (after berlinToUtc sha256 (pre ++ [.runNext call])).runs.get? runId = some row ∧
      (after berlinToUtc sha256 pre).queue.nextReady call.locked call.selectedAt =
        some (requestId, request) ∧
      (after berlinToUtc sha256 pre).queue.requests.get? requestId = some request ∧
      request.asOfUtc = row.asOfUtc := by
  have hempty : (∅ : PublicationState).runs.get? runId ≠ some row := fun h => by cases h
  obtain ⟨pre, event, post, rfl, hnot, hadded⟩ := exists_step_of_run
    (fun s : PublicationState => s.runs.get? runId = some row) hempty hrow
  have hstep : run (step berlinToUtc sha256) ∅ (pre ++ [event]) =
      (after berlinToUtc sha256 pre).step berlinToUtc sha256 event := run_concat pre event
  have hadded' := hadded
  rw [hstep] at hadded'
  cases event with
  | queue op hop => exact absurd hadded' hnot
  | runNext call =>
    obtain ⟨requestId, request, candidate, rows, hcommits, hready, hp, hs⟩ | hs | ⟨op, _, hs⟩ :=
      runNext_cases (after berlinToUtc sha256 pre) call
    · rw [hs, Call.published, PyDict.get?_set] at hadded'
      split_ifs at hadded' with hrun
      · obtain rfl := Option.some.inj hadded'
        exact ⟨pre, call, post, requestId, request, rfl, hrun, hcommits, hadded, hready, hp.stored,
          rfl⟩
      · exact absurd hadded' hnot
    · rw [hs] at hadded'
      exact absurd hadded' hnot
    · rw [hs] at hadded'
      exact absurd hadded' hnot

/-- The run that a committing call leaves has the evaluation time of the selected request. -/
theorem asOf_of_commits {s : PublicationState} {call : Call}
    (hcommits : call.Commits berlinToUtc sha256 s) {row : ReconciliationRun}
    (hrow : (s.step berlinToUtc sha256 (.runNext call)).runs.get? call.runId = some row) :
    ∃ requestId request, s.queue.nextReady call.locked call.selectedAt = some (requestId, request) ∧
      request.asOfUtc = row.asOfUtc := by
  obtain ⟨requestId, request, ⟨s', outcome⟩, hreach, hready, hpublish, hcommit⟩ := hcommits
  obtain ⟨request', candidate, rows, hp, rfl, _⟩ := Call.publish_eq_ok hpublish
  rw [step, Call.runNext_of_publish hreach hready hpublish hcommit] at hrow
  simp only [Call.published, PyDict.get?_set, if_true] at hrow
  obtain rfl := Option.some.inj hrow
  exact ⟨requestId, request, hready, rfl⟩

/-! ## Where the pointer goes back -/

/-- A call that takes the pointer back publishes a request that was passed over. -/
theorem EnqueuedInOrder.forward_or_passedOver {events pre post : List PublicationEvent} {call : Call}
    {old new : ReconciliationRun} (h : EnqueuedInOrder berlinToUtc sha256 events)
    (hsplit : events = pre ++ .runNext call :: post)
    (hreplaces : Replaces berlinToUtc sha256 (after berlinToUtc sha256 pre) call old new) :
    old.asOfUtc ≤ new.asOfUtc ∨ PassedOver berlinToUtc sha256 pre call old := by
  obtain ⟨name, runId, runId', hpointer, hold, hpointer', hnew⟩ := hreplaces
  have hsame : ∀ s : PublicationState, s = after berlinToUtc sha256 pre ∨
      (s.pointer = (after berlinToUtc sha256 pre).pointer ∧
        s.runs = (after berlinToUtc sha256 pre).runs) →
      s.pointer.get? name = some runId' → s.runs.get? runId' = some new →
      old.asOfUtc ≤ new.asOfUtc := by
    intro s hs hp hr
    obtain ⟨hsp, hsr⟩ : s.pointer = (after berlinToUtc sha256 pre).pointer ∧
        s.runs = (after berlinToUtc sha256 pre).runs := hs.elim (fun he => he ▸ ⟨rfl, rfl⟩) id
    rw [hsp, hpointer] at hp
    obtain rfl := Option.some.inj hp
    rw [hsr, hold] at hr
    exact (congrArg ReconciliationRun.asOfUtc (Option.some.inj hr)).le
  obtain ⟨requestId, request, candidate, rows, _, hready, hp, hs⟩ | hs | ⟨op, _, hs⟩ :=
    runNext_cases (after berlinToUtc sha256 pre) call
  · rw [hs] at hpointer' hnew
    simp only [Call.published, PyDict.get?_set] at hpointer' hnew
    split_ifs at hpointer' with hname
    · -- The pointer moves to the new run, which has the evaluation time of its request.
      obtain rfl := Option.some.inj hpointer'
      rw [if_pos rfl] at hnew
      obtain rfl := Option.some.inj hnew
      refine or_iff_not_imp_left.mpr fun hback => ?_
      have hlt : request.asOfUtc < old.asOfUtc := not_le.mp hback
      obtain ⟨pre', call', post', id', request', rfl, rfl, hcommits, hpublished, hready', hget',
        hasOf⟩ := exists_publication hold
      refine ⟨requestId, request, hready, pre', call', post', rfl, hcommits, hpublished, ?_⟩
      cases hwaiting : (after berlinToUtc sha256 pre').queue.requests.get? requestId with
      | none =>
        -- A request added after the old run's would not be earlier.
        have hle := h.le_added hsplit hwaiting hp.stored hget'
        exact absurd (hasOf ▸ hle) (not_le.mpr hlt)
      | some waiting =>
        obtain ⟨r, hget, hsameAsOf, hkept⟩ :=
          queueGrows_after pre' (.runNext call' :: post') requestId waiting hwaiting
        obtain rfl := Option.some.inj (hget.symm.trans hp.stored)
        refine ⟨waiting, rfl, fun hstatus => ?_, hsameAsOf ▸ hlt⟩
        rw [hkept hstatus] at hp
        cases hp.pending.symm.trans hstatus
    · -- Under another name the pointer stays.
      obtain rfl := Option.some.inj (hpointer.symm.trans hpointer')
      have hne : call.runId ≠ runId := by
        rintro rfl
        cases hp.freshRun.symm.trans hold
      rw [if_neg hne, hold] at hnew
      exact .inl (congrArg ReconciliationRun.asOfUtc (Option.some.inj hnew)).le
  · exact .inl (hsame _ (.inl hs) hpointer' hnew)
  · exact .inl (hsame _ (.inr (hs ▸ ⟨rfl, rfl⟩)) hpointer' hnew)

/-- The requests that a step adds are in order. -/
def addsInOrder (s s' : PublicationState) : Bool :=
  s'.queue.requests.items.all fun p => (s.queue.requests.get? p.1).isSome ||
    s.queue.requests.items.all fun p' => p'.2.asOfUtc ≤ p.2.asOfUtc

variable (berlinToUtc sha256) in
def orderedFrom (s : PublicationState) : List PublicationEvent → Bool
  | [] => true
  | event :: events => s.addsInOrder (s.step berlinToUtc sha256 event) &&
    (s.step berlinToUtc sha256 event).orderedFrom events

theorem addsInOrder_of_orderedFrom {s : PublicationState} {pre post : List PublicationEvent}
    {event : PublicationEvent} (h : s.orderedFrom berlinToUtc sha256 (pre ++ event :: post) = true) :
    (run (step berlinToUtc sha256) s pre).addsInOrder
      (run (step berlinToUtc sha256) s (pre ++ [event])) = true := by
  induction pre generalizing s with
  | nil => exact (Bool.and_eq_true_iff.mp h).1
  | cons e pre ih => exact ih (Bool.and_eq_true_iff.mp h).2

theorem enqueuedInOrder_of_orderedFrom {events : List PublicationEvent}
    (h : orderedFrom berlinToUtc sha256 ∅ events = true) :
    EnqueuedInOrder berlinToUtc sha256 events := by
  rintro pre event post rfl id r hnone hget id' r' hget'
  have hadds := List.all_eq_true.mp (addsInOrder_of_orderedFrom h) (id, r)
    (PyDict.mem_items_iff.mpr hget)
  unfold after at hnone
  simp only [hnone, Option.isSome_none, Bool.false_or] at hadds
  simpa using List.all_eq_true.mp hadds (id', r') (PyDict.mem_items_iff.mpr hget')

end PublicationState

/-! ## A request that fails once -/

namespace LateRetry

open PaidDay PublicationState

def runA : Uuid := txt "5d1f6a0e-3b6f-4c1c-9f37-6f6b0c0a2f01"

def runB : Uuid := txt "5d1f6a0e-3b6f-4c1c-9f37-6f6b0c0a2f02"

def requestA : Uuid := txt "b7c9a3c2-92d4-4f56-8c0b-1f4f5e6d7a01"

def requestB : Uuid := txt "b7c9a3c2-92d4-4f56-8c0b-1f4f5e6d7a02"

def second : Instant := microsPerSecond

/-- The digest of the logical document of a result without rows. -/
def logicalDigest : Text := txt "1a5d1cc1150f03080cf9249c4e9d1508967954a583018ce4fe094c26eefd0978"

def inputDigest : Text := txt "1b30870e76a9cfb1f5302a8487b2086049afb66b5a3aa2ba54753dd0bd8c7bb5"

/-- SHA-256 on the one document that is hashed here. -/
def sha256 (_ : Bytes) : Text := logicalDigest

/-- Midnight UTC: no deadline is computed here. -/
def berlinToUtc (date : Date) (_ : ℕ) : UtcDateTime := ⟨date, 0⟩

def emptyResult (runId : Uuid) (asOfUtc : UtcDateTime) : ReconciliationResult where
  runId := runId
  contractVersion := contractVersion
  detectedAtUtc := asOfUtc
  transactions := []
  expectedMovements := []
  payouts := []
  exceptions := []
  sourceCompleteness := []
  quarantineRecords := []

/-- A call at one clock reading, with a failure hook. -/
def callAt (runId : Uuid) (now : Instant) (hook : CallPoint → Option RecoveryError) : Call where
  publicationName := txt "threadline"
  build runId asOfUtc := .ok (emptyResult runId asOfUtc)
  inputFingerprint _ := .ok inputDigest
  locked := []
  selectedAt := now
  runId := runId
  cutoff := now
  publishedAt := now
  completedAt := now
  raises := hook
  commit := .committed
  afterCommit := none
  bookkeeping := none
  failedAt := now
  failureDoneAt := now
  errorText _ := txt "InjectedFailure: Controlled failure at after_validation"

def failAfterValidation : CallPoint → Option RecoveryError
  | .afterValidation => some (.raised (txt "InjectedFailure"))
  | _ => none

def retry : Call := callAt runA (60 * second) fun _ => none

/-- Request A fails and backs off, request B is published, and A is retried. -/
def events : List PublicationEvent :=
  [.queue (.enqueue ⟨requestA, txt "a", none, none, atTen (september 17 valid17)⟩ true 0) id,
   .queue (.enqueue ⟨requestB, txt "b", none, none, atTen (september 18 valid18)⟩ true second) id,
   .runNext (callAt runA (2 * second) failAfterValidation),
   .runNext (callAt runB (3 * second) fun _ => none)]

theorem events_inOrder : EnqueuedInOrder berlinToUtc sha256 (events ++ [.runNext retry]) :=
  enqueuedInOrder_of_orderedFrom (by decide +kernel)

def publishedRow (asOfUtc : UtcDateTime) (now : Instant) : ReconciliationRun where
  contractVersion := contractVersion
  asOfUtc := asOfUtc
  inputWatermarkUtc := now
  status := .published
  resultHash := logicalDigest
  publishedAtUtc := some now

theorem retry_replaces : Replaces berlinToUtc sha256 (after berlinToUtc sha256 events) retry
    (publishedRow (atTen (september 18 rfl)) (3 * second))
    (publishedRow (atTen (september 17 rfl)) (60 * second)) :=
  ⟨txt "threadline", runB, runA, by decide +kernel, by decide +kernel, by decide +kernel,
    by decide +kernel⟩

end LateRetry

end Threadline
