import Threadline.ReplayedDeliveries

/-!
# Published replays

Workers that rebuild from the database, among ingestions, failures and requeued
requests. A published run is the replay of what had been delivered when it was
built; when every request has succeeded, the current one is the replay of all
that has been delivered.
-/

open PyText PyJson PyCalendar PySorted PyExcept Runs

namespace Threadline

/-- `FullRebuildRecovery` with `build_candidate` as its builder. -/
structure RebuildWorker where
  publicationName : Text
  /-- How an error of the builder is raised. -/
  raised : BuildError → RecoveryError

namespace RebuildWorker

variable (worker : RebuildWorker) (platform : Platform)

/-- A call of the worker. It builds in its transaction, from the database it has found. -/
def call (db : Database) (call : Call) : Call :=
  { call with
    publicationName := worker.publicationName
    build := fun runId asOfUtc =>
      (db.buildCandidate platform runId asOfUtc).mapError worker.raised }

def event (db : Database) : DatabaseEvent → DatabaseEvent
  | .ingest ingestion => .ingest ingestion
  | .runNext next => .runNext (worker.call platform db next)
  | .recordFailure requestId error now done => .recordFailure requestId error now done
  | .requeueFailed requestId additionalAttempts now =>
    .requeueFailed requestId additionalAttempts now

def step (db : Database) (event : DatabaseEvent) : Database :=
  db.step platform (worker.event platform db event)

/-- The database after events in which every call is one of the worker. -/
def after (events : List DatabaseEvent) : Database := run (worker.step platform) ∅ events

/-- The inputs of the oracle after these events. -/
def inputs (events : List DatabaseEvent) : List FinancialRecord :=
  observed (worker.step platform) (Database.delivers platform) ∅ events

end RebuildWorker

/-- Every request has succeeded. -/
def RecoveryQueue.Drained (q : RecoveryQueue) : Prop :=
  ∀ id r, q.requests.get? id = some r → r.status = .succeeded

/-- A published run holds the candidate of a database. -/
def BuiltFrom (platform : Platform) (db : Database) (s : PublicationState) (runId : Uuid) : Prop :=
  ∃ row stored result, s.runs.get? runId = some row ∧ s.results.get? runId = some stored ∧
    db.buildCandidate platform runId row.asOfUtc = .ok result ∧
    result.storedValue.jsonValue = some stored.resultPayload ∧
    logicalFingerprint platform.sha256 result.toValue = some stored.logicalFingerprint

section

variable {platform : Platform} {db : Database} {s s' : PublicationState} {runId : Uuid}

theorem BuiltFrom.of_eq (h : BuiltFrom platform db s runId)
    (hruns : s'.runs.get? runId = s.runs.get? runId)
    (hresults : s'.results.get? runId = s.results.get? runId) : BuiltFrom platform db s' runId := by
  obtain ⟨row, stored, result, hrow, hstored, h⟩ := h
  exact ⟨row, stored, result, hruns.trans hrow, hresults.trans hstored, h⟩

/-! ## One step -/

/-- Operations on the queue keep its requests. -/
theorem RecoveryQueue.Change.keeps_request {q q' : RecoveryQueue} (h : q.Change q') {id : Uuid}
    {r : RecoveryRequest} (hget : q.requests.get? id = some r) :
    ∃ r', q'.requests.get? id = some r' := by
  have hset : ∀ (requestId : Uuid) (row : RecoveryRequest),
      ∃ r', (q.requests.set requestId row).get? id = some r' := by
    intro requestId row
    rw [PyDict.get?_set]
    split_ifs
    · exact ⟨row, rfl⟩
    · exact ⟨r, hget⟩
  cases h with
  | unchanged => exact ⟨r, hget⟩
  | enqueued => exact hset _ _
  | succeeded => exact hset _ _
  | failed => exact hset _ _
  | requeued => exact hset _ _

/-- An operation that completes no request leaves none drained that was not. -/
theorem drained_of_step {q : RecoveryQueue} {op : QueueOperation} (hop : ¬ op.Completes)
    (h : (q.step op).Drained) : q.Drained := by
  intro id r hget
  obtain ⟨r', hget'⟩ := (RecoveryQueue.change_step q op).keeps_request hget
  have hsucceeded := h id r' hget'
  obtain rfl := Option.some.inj
    (hget.symm.trans ((RecoveryQueue.get?_succeeded_of_step hop hsucceeded).mp hget'))
  exact hsucceeded

/-- What an event can do to the publications of a worker: it publishes a candidate of the database
it finds, or opens a request for deliveries that no run has seen, or does neither. -/
inductive WorkerStep (platform : Platform) (name : Text) (db : Database) : Database → Prop
  | published (runId : Uuid) (s : PublicationState)
      (fresh : db.publication.runs.get? runId = none)
      (pointer : s.pointer = db.publication.pointer.set name runId)
      (runs : ∀ id ≠ runId, s.runs.get? id = db.publication.runs.get? id)
      (results : ∀ id ≠ runId, s.results.get? id = db.publication.results.get? id)
      (built : BuiltFrom platform db s runId) :
      WorkerStep platform name db { db with publication := s }
  | opened (db' : Database) (runs : db'.publication.runs = db.publication.runs)
      (results : db'.publication.results = db.publication.results)
      (pending : ¬ db'.publication.queue.Drained) : WorkerStep platform name db db'
  | unpublished (s : PublicationState) (runs : s.runs = db.publication.runs)
      (results : s.results = db.publication.results) (pointer : s.pointer = db.publication.pointer)
      (drained : s.queue.Drained → db.publication.queue.Drained) :
      WorkerStep platform name db { db with publication := s }

/-- A call of the worker that publishes. -/
theorem RebuildWorker.published_cases (worker : RebuildWorker) {call : Call} {requestId : Uuid}
    {request : RecoveryRequest} {candidate : Candidate} {rows : List ResultRow}
    (hp : Call.Publishes platform.berlinToUtc platform.sha256 (worker.call platform db call)
      db.publication requestId request request.asOfUtc candidate rows) :
    WorkerStep platform worker.publicationName db { db with
      publication := (worker.call platform db call).published db.publication requestId request
        request.asOfUtc candidate rows } := by
  have hbuilt : (db.buildCandidate platform call.runId request.asOfUtc).mapError worker.raised =
      .ok candidate.result := hp.prepared.built
  have hcandidate := mapError_eq_ok.mp hbuilt
  refine .published (worker.call platform db call).runId _ hp.freshRun ?_ (fun id hid => ?_)
    (fun id hid => ?_) ?_
  · rfl
  · rw [Call.published, PyDict.get?_set, if_neg hid.symm]
  · rw [Call.published, PyDict.get?_set, if_neg hid.symm]
  · refine ⟨(worker.call platform db call).publishedRun request.asOfUtc candidate,
      candidate.recoveryResult, candidate.result, ?_, ?_, hcandidate, hp.prepared.document,
      hp.prepared.logicalHash⟩
    · rw [Call.published, PyDict.get?_set, if_pos rfl]
    · rw [Call.published, PyDict.get?_set, if_pos rfl]

theorem RebuildWorker.step_cases (worker : RebuildWorker) (hs : Settled platform db)
    (event : DatabaseEvent) :
    WorkerStep platform worker.publicationName db (worker.step platform db event) := by
  have hqueue : ∀ op, ¬ QueueOperation.Completes op → WorkerStep platform worker.publicationName db
      { db with publication := { db.publication with queue := db.publication.queue.step op } } :=
    fun op hop => .unpublished _ rfl rfl rfl (drained_of_step hop)
  cases event with
  | ingest call =>
    obtain hsame | ⟨delivery, deliveryKey, stored, hingested, -⟩ := hs.ingest_cases call
    · have hstep : worker.step platform db (.ingest call) = db := hsame
      rw [hstep]
      exact .unpublished db.publication rfl rfl rfl fun h => h
    · change Ingested platform call db (worker.step platform db (.ingest call)) delivery deliveryKey
        stored at hingested
      refine .opened _ ?_ ?_ fun hdrained => ?_
      · rw [hingested.publication]
      · rw [hingested.publication]
      · -- The request of the new batch is pending.
        obtain ⟨requestKey, hinsert⟩ := hingested.request
        obtain ⟨-, -, hnew⟩ := RecoveryQueue.insertRequest_eq_ok hinsert
        have hsucceeded := hdrained call.requestId _ (by rw [hnew, PyDict.get?_set, if_pos rfl])
        cases hsucceeded
  | runNext call =>
    have hstep : worker.step platform db (.runNext call) = { db with
        publication := db.publication.step platform.berlinToUtc platform.sha256
          (.runNext (worker.call platform db call)) } := rfl
    rw [hstep]
    obtain ⟨requestId, request, candidate, rows, -, -, hp, hpublished⟩ | hsame | ⟨op, hop, hsame⟩ :=
      PublicationState.runNext_cases db.publication (worker.call platform db call)
    · rw [hpublished]
      exact worker.published_cases hp
    · rw [hsame]
      exact .unpublished db.publication rfl rfl rfl fun h => h
    · rw [hsame]
      exact hqueue op hop
  | recordFailure requestId error now done => exact hqueue (.recordFailure ..) fun h => h
  | requeueFailed requestId additionalAttempts now =>
    exact hqueue (.requeueFailed ..) fun h => h

/-! ## Runs -/

variable (worker : RebuildWorker)

theorem RebuildWorker.delivering_after (events : List DatabaseEvent) :
    Delivering platform (worker.after platform events) (worker.inputs platform events) := by
  refine observed_invariant (fun db records event h => ?_) delivering_empty events
  have hsame : db.delivers platform (worker.event platform db event) = db.delivers platform event := by
    cases event <;> rfl
  rw [← hsame]
  exact h.step (worker.event platform db event)

/-- Every run was published with the candidate of the database at that moment. -/
theorem RebuildWorker.exists_built (events : List DatabaseEvent)
    (h : ((worker.after platform events).publication.runs.get? runId).isSome) :
    ∃ before later, events = before ++ later ∧ BuiltFrom platform (worker.after platform before)
      (worker.after platform events).publication runId := by
  induction events using List.reverseRecOn with
  | nil => cases h
  | append_singleton events event ih =>
    have hdelivering : Delivering platform (worker.after platform events)
        (worker.inputs platform events) := worker.delivering_after events
    have hstep := worker.step_cases hdelivering.settled event
    have hafter : worker.after platform (events ++ [event]) =
        worker.step platform (worker.after platform events) event := run_concat events event
    rw [hafter] at h ⊢
    have hold : ∀ {s : PublicationState},
        s.runs.get? runId = (worker.after platform events).publication.runs.get? runId →
        s.results.get? runId = (worker.after platform events).publication.results.get? runId →
        (s.runs.get? runId).isSome → ∃ before later, events ++ [event] = before ++ later ∧
          BuiltFrom platform (worker.after platform before) s runId := by
      intro s hruns hresults hsome
      obtain ⟨before, later, hsplit, hbuilt⟩ := ih (hruns ▸ hsome)
      exact ⟨before, later ++ [event], by rw [hsplit, List.append_assoc],
        hbuilt.of_eq hruns hresults⟩
    generalize worker.step platform (worker.after platform events) event = db' at hstep h ⊢
    cases hstep with
    | published id s fresh pointer runs results built =>
      by_cases hid : runId = id
      · subst hid
        exact ⟨events, [event], rfl, built⟩
      · exact hold (runs runId hid) (results runId hid) h
    | opened _ runs results => exact hold (by rw [runs]) (by rw [results]) h
    | unpublished s runs results => exact hold (by rw [runs]) (by rw [results]) h

/-- A drained queue has nothing to show, or a current run with the candidate of the database. -/
def UpToDate (platform : Platform) (name : Text) (db : Database) : Prop :=
  db.publication.queue.Drained → db.batches.items = [] ∨
    ∃ runId, db.publication.pointer.get? name = some runId ∧
      BuiltFrom platform db db.publication runId

theorem UpToDate.step {name : Text} {db' : Database} (h : UpToDate platform name db)
    (hstep : WorkerStep platform name db db') : UpToDate platform name db' := by
  intro hdrained
  cases hstep with
  | published runId s fresh pointer runs results built =>
    refine .inr ⟨runId, ?_, built⟩
    change s.pointer.get? name = some runId
    rw [pointer, PyDict.get?_set, if_pos rfl]
  | opened _ runs results pending => exact absurd hdrained pending
  | unpublished s runs results pointer drained =>
    obtain hnone | ⟨runId, hpointer, hbuilt⟩ := h (drained hdrained)
    · exact .inl hnone
    · exact .inr ⟨runId, pointer ▸ hpointer, hbuilt.of_eq (by rw [runs]) (by rw [results])⟩

theorem RebuildWorker.upToDate_after (events : List DatabaseEvent) :
    UpToDate platform worker.publicationName (worker.after platform events) := by
  have hinv : Settled platform (worker.after platform events) ∧
      UpToDate platform worker.publicationName (worker.after platform events) := by
    have hstep : ∀ db event, Settled platform db ∧ UpToDate platform worker.publicationName db →
        Settled platform (worker.step platform db event) ∧
          UpToDate platform worker.publicationName (worker.step platform db event) :=
      fun db event h => ⟨h.1.step _, h.2.step (worker.step_cases h.1 event)⟩
    exact run_invariant hstep ⟨settled_empty, fun _ => .inl rfl⟩ events
  exact hinv.2

/-- A published run replays these records: an oracle that reads them, under any run and with any
receipts, finds the published fingerprint, and apart from the labels and the rejected rows the
published document. -/
def ReplayOf (platform : Platform) (db : Database) (records : List FinancialRecord)
    (s : PublicationState) (runId : Uuid) : Prop :=
  ∃ row stored reports, s.runs.get? runId = some row ∧ s.results.get? runId = some stored ∧
    db.loadCompleteness platform row.asOfUtc = .ok reports ∧
    ∀ (oracle : List (RecordEnvelope platform.sha256)) (run : Run), Envelopes records oracle →
      requireRunId run.runId = .ok run.runId → ∃ replayed quarantine,
        replay platform.sha256 run.runId run.detectedAtUtc reports [] oracle = .ok replayed ∧
        logicalFingerprint platform.sha256 replayed.toValue = some stored.logicalFingerprint ∧
        { replayed.relabel ⟨runId, row.asOfUtc⟩ with
          quarantineRecords := quarantine }.storedValue.jsonValue = some stored.resultPayload

/-- What a run was built from it replays. -/
theorem BuiltFrom.replayOf {records : List FinancialRecord} (h : BuiltFrom platform db s runId)
    (hdelivering : Delivering platform db records) : ReplayOf platform db records s runId := by
  obtain ⟨row, stored, result, hrow, hstored, hbuild, hpayload, hfingerprint⟩ := h
  obtain ⟨quarantine, envelopes, hrebuilt⟩ := hdelivering.settled.rebuildReceipts
  obtain ⟨reports, hreports, hreplay⟩ := (hdelivering.buildCandidate_eq_ok hrebuilt).mp hbuild
  refine ⟨row, stored, reports, hrow, hstored, hreports, fun oracle run horacle hrun => ?_⟩
  refine ⟨_, result.quarantineRecords, hdelivering.replays horacle hrun hreports hbuild, ?_, ?_⟩
  · rw [logicalFingerprint_relabel]
    exact hfingerprint
  · -- The candidate carries the labels of its own run already.
    have hid : requireRunId runId = .ok runId := by
      obtain ⟨c, -, candidate, hcandidate, -⟩ := replay_eq_ok.mp hreplay
      obtain ⟨b, movements, hopened, -⟩ := reconcile_ok hcandidate
      exact hopened.runId_ok
    have hown := Except.ok.inj
      (hreplay.symm.trans (replay_relabel ⟨runId, row.asOfUtc⟩ hid hreplay))
    rw [← hpayload, hown]
    simp only [ReconciliationResult.relabel, List.map_map]
    rfl

end

end Threadline
