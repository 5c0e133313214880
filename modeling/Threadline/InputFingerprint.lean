import Threadline.DatabaseRuns
import Threadline.LogicalForm
import Threadline.RecoveryRebuild

/-!
# The input fingerprint

Each publication stores a fingerprint of the batches, the receipts and the
resolutions that it was built from. Computed again later, it differs once a
delivery has been ingested in the meantime, and not before.
-/

open PyText PyJson PyCalendar PySorted PyExcept Runs

namespace Threadline

def IngestionStatus.value : IngestionStatus → Text
  | .received => txt "RECEIVED"
  | .processing => txt "PROCESSING"
  | .committed => txt "COMMITTED"
  | .failed => txt "FAILED"

def StoredDisposition.value : StoredDisposition → Text
  | .pending => txt "PENDING"
  | .accepted => txt "ACCEPTED"
  | .stale => txt "STALE"
  | .duplicate => txt "DUPLICATE"
  | .conflicted => txt "CONFLICTED"
  | .quarantined => txt "QUARANTINED"

def ResolutionState.value : ResolutionState → Text
  | .accepted => txt "ACCEPTED"
  | .conflicted => txt "CONFLICTED"

/-- A row of the batches. The schema version is always `1`. -/
def auditBatch (p : Uuid × IngestionBatch) : Json := .obj
  [(txt "batch_id", .str p.1),
   (txt "file_checksum", .str p.2.fileChecksum),
   (txt "manifest_checksum", .str p.2.manifestChecksum),
   (txt "schema_version", .str (txt "1")),
   (txt "report_type", .str p.2.reportType),
   (txt "report_date", .str p.2.reportDate.isoformat),
   (txt "declared_row_count", .num (.int p.2.declaredRowCount)),
   (txt "observed_row_count", .num (.int p.2.observedRowCount)),
   (txt "ingestion_status", .str p.2.ingestionStatus.value)]

def auditReceipt (p : Uuid × SourceReceipt) : Json := .obj
  [(txt "receipt_id", .str p.1),
   (txt "batch_id", .str p.2.batchId),
   (txt "row_number", .num (.int p.2.rowNumber)),
   (txt "entity_type", jsonOption .str p.2.entityType),
   (txt "source_id", jsonOption .str p.2.sourceId),
   (txt "source_version", jsonOption (fun version => .num (.int version)) p.2.sourceVersion),
   (txt "payload_hash", .str p.2.payloadHash),
   (txt "disposition", .str p.2.disposition.value),
   (txt "reason_code", jsonOption .str p.2.reasonCode)]

def auditResolution (p : (Text × Text) × EntityResolution) : Json := .obj
  [(txt "entity_type", .str p.1.1),
   (txt "source_id", .str p.1.2),
   (txt "winning_version", .num (.int p.2.winningVersion)),
   (txt "resolution_state", .str p.2.resolutionState.value),
   (txt "selected_payload_hash", jsonOption .str p.2.selectedPayloadHash)]

namespace Database

variable (db : Database)

def auditBatches : List Json :=
  (sortedBy Prod.fst (db.batches.items.filter fun p =>
    p.2.ingestionStatus = .committed ∨ p.2.ingestionStatus = .failed)).map auditBatch

def auditResolutions : List Json :=
  (sortedBy (fun p => toLex p.1) db.resolutions.items).map auditResolution

/-- The document that `input_fingerprint` hashes. -/
def inputDocument (completeness : Json) : Json := .obj
  [(txt "batches", .arr db.auditBatches),
   (txt "receipts", .arr (db.finalizedReceipts.map auditReceipt)),
   (txt "resolutions", .arr db.auditResolutions),
   (txt "source_completeness", completeness)]

/-- `input_fingerprint`. -/
def inputFingerprint (sha256 : Bytes → Text) (document : Json) : Except RecoveryError Text := do
  let completeness ← (item document (txt "source_completeness")).mapError RecoveryError.arithmetic
  match documentFingerprint sha256 (db.inputDocument completeness) with
  | some fingerprint => .ok fingerprint
  | none => .error .unserializable

/-- The worker fingerprints the inputs that it has found. -/
def audited (platform : Platform) : DatabaseEvent → DatabaseEvent
  | .ingest call => .ingest call
  | .runNext call => .runNext { call with inputFingerprint := db.inputFingerprint platform.sha256 }
  | .recordFailure requestId error now done => .recordFailure requestId error now done
  | .requeueFailed requestId additionalAttempts now =>
    .requeueFailed requestId additionalAttempts now

def auditedStep (platform : Platform) (db : Database) (event : DatabaseEvent) : Database :=
  db.step platform (db.audited platform event)

/-- The database after events in which every call fingerprints its inputs. -/
def auditedAfter (platform : Platform) (events : List DatabaseEvent) : Database :=
  run (auditedStep platform) ∅ events

end Database

/-! ## What a fingerprint shows -/

section

variable {platform : Platform} {db db' : Database}

/-- The inputs of a rebuild are the same. -/
structure SameInputs (db db' : Database) : Prop where
  batches : db'.batches = db.batches
  receipts : db'.receipts = db.receipts
  resolutions : db'.resolutions = db.resolutions

theorem SameInputs.inputDocument (h : SameInputs db db') (completeness : Json) :
    db'.inputDocument completeness = db.inputDocument completeness := by
  have hfinalized : db'.finalized = db.finalized := by
    funext batchId
    rw [Database.finalized, Database.finalized, Database.batchStatus, Database.batchStatus, h.batches]
  rw [Database.inputDocument, Database.inputDocument, Database.auditBatches, Database.auditBatches,
    Database.auditResolutions, Database.auditResolutions, Database.finalizedReceipts,
    Database.finalizedReceipts, h.batches, h.receipts, h.resolutions, hfinalized]

theorem Settled.auditBatches_length (h : Settled platform db) :
    db.auditBatches.length = db.batches.items.length := by
  have hall : (db.batches.items.filter fun p =>
      p.2.ingestionStatus = .committed ∨ p.2.ingestionStatus = .failed) = db.batches.items :=
    List.filter_eq_self.mpr fun p hp => decide_eq_true (.inl (h.committed p hp))
  rw [Database.auditBatches, hall, List.length_map, sortedBy_length]

/-- Documents that agree up to the order of members list equally many batches. -/
theorem auditBatches_length_of_canon {completeness completeness' : Json}
    (h : canon (db.inputDocument completeness) = canon (db'.inputDocument completeness')) :
    db.auditBatches.length = db'.auditBatches.length := by
  have hkeys : [txt "batches", txt "receipts", txt "resolutions",
      txt "source_completeness"].Nodup := by
    decide +kernel
  have hmembers := canonMembers_eq_of_canon (by rfl) (by exact hkeys) h
  have hbatches := congrArg Prod.snd (List.cons.inj hmembers).1
  have hitems : canonItems db.auditBatches = canonItems db'.auditBatches := Json.arr.inj hbatches
  rw [canonItems_eq_map, canonItems_eq_map] at hitems
  simpa using congrArg List.length hitems

/-- A later state: the same inputs, or more batches. -/
structure Later (platform : Platform) (db db' : Database) : Prop where
  settled : Settled platform db'
  length : db.batches.items.length ≤ db'.batches.items.length
  same : db'.batches.items.length = db.batches.items.length → SameInputs db db'

theorem Later.refl (h : Settled platform db) : Later platform db db where
  settled := h
  length := le_rfl
  same _ := ⟨rfl, rfl, rfl⟩

/-- Only a committed ingestion changes the inputs, and it adds a batch. -/
theorem Later.step (h : Later platform db db') (event : DatabaseEvent) :
    Later platform db (db'.step platform event) := by
  have hpublication : ∀ publication : PublicationState,
      Later platform db { db' with publication := publication } := by
    intro publication
    refine ⟨h.settled.setPublication publication, h.length, fun hlength => ?_⟩
    obtain ⟨hbatches, hreceipts, hresolutions⟩ := h.same hlength
    exact ⟨hbatches, hreceipts, hresolutions⟩
  cases event with
  | ingest call =>
    obtain hsame | ⟨delivery, deliveryKey, stored, hingested, hsettled⟩ :=
      h.settled.ingest_cases call
    · rw [Database.step, hsame]
      exact h
    · -- The new batch makes the list longer than the one of the earlier state.
      have hmore : (db'.step platform (.ingest call)).batches.items.length =
          db'.batches.items.length + 1 := by
        rw [Database.step, hingested.batches, PyDict.items_set_of_get?_none hingested.freshBatch,
          List.length_append, List.length_singleton]
      have hlength := h.length
      refine ⟨hsettled, by omega, ?_⟩
      intro hequal
      omega
  | runNext call => exact hpublication _
  | recordFailure requestId error now done => exact hpublication _
  | requeueFailed requestId additionalAttempts now => exact hpublication _

/-- The fingerprint of a later state differs exactly when there are more batches. -/
theorem Later.fingerprint_eq_iff (h : Later platform db db') (hs : Settled platform db)
    {document : Json} {old current : Text}
    (hold : db.inputFingerprint platform.sha256 document = .ok old)
    (hcurrent : db'.inputFingerprint platform.sha256 document = .ok current)
    (hsha : ∀ completeness, item document (txt "source_completeness") = .ok completeness →
      Set.InjOn platform.sha256 {bytes | bytes ∈ documentBytes (db.inputDocument completeness) ∨
        bytes ∈ documentBytes (db'.inputDocument completeness)}) :
    current = old ↔ SameInputs db db' := by
  have hread : ∀ {state : Database} {fingerprint : Text},
      state.inputFingerprint platform.sha256 document = .ok fingerprint →
      ∃ completeness, item document (txt "source_completeness") = .ok completeness ∧
        documentFingerprint platform.sha256 (state.inputDocument completeness) =
          some fingerprint := by
    intro state fingerprint hstate
    obtain ⟨completeness, hitem, hhash⟩ := bind_eq_ok.mp hstate
    refine ⟨completeness, mapError_eq_ok.mp hitem, ?_⟩
    split at hhash
    next found hfound => rw [hfound, Except.ok.inj hhash]
    · cases hhash
  obtain ⟨completeness, hitem, hold⟩ := hread hold
  obtain ⟨completeness', hitem', hcurrent⟩ := hread hcurrent
  obtain rfl := Except.ok.inj (hitem.symm.trans hitem')
  rw [eq_comm, documentFingerprint_eq_iff (hsha completeness hitem) hold hcurrent]
  constructor
  · intro hcanon
    have hlength := auditBatches_length_of_canon hcanon
    rw [hs.auditBatches_length, h.settled.auditBatches_length] at hlength
    exact h.same hlength.symm
  · intro hsame
    rw [hsame.inputDocument]

/-! ## Published fingerprints -/

namespace Call

variable {berlinToUtc : Date → ℕ → UtcDateTime} {sha256 : Bytes → Text} {call : Call}
  {s s' : PublicationState} {id : Uuid} {stored : RecoveryResult}

theorem prepare_evidence {asOfUtc : UtcDateTime} {candidate : Candidate}
    (h : call.prepare sha256 asOfUtc = .ok candidate) :
    call.inputFingerprint candidate.document = .ok candidate.evidenceHash := by
  simp only [prepare, bind_eq_ok] at h
  obtain ⟨-, -, -, -, result, -, -, -, document, -, -, -, -, -, -, -, -, -, -, -, -, -, -, -, hash, -, -,
    -, evidence, hevidence, -, -, hpure⟩ := h
  obtain rfl := Except.ok.inj hpure
  exact hevidence

/-- The results after a publication: one more, with the fingerprint that the call has computed. -/
theorem results_publish {requestId : Uuid} {asOfUtc : UtcDateTime} {outcome : RecoveryOutcome}
    (h : call.publish berlinToUtc sha256 s requestId asOfUtc = .ok (s', outcome))
    (hstored : s'.results.get? id = some stored) :
    s.results.get? id = some stored ∨
      call.inputFingerprint stored.resultPayload = .ok stored.inputFingerprint := by
  simp only [publish, bind_eq_ok] at h
  obtain ⟨candidate, hprepare, s₁, hinsert, s₂, hcomplete, hpure⟩ := h
  obtain ⟨-, -, rows, -, rfl⟩ := insertCandidate_eq_ok hinsert
  obtain ⟨queue, -, rfl⟩ := completeRequest_eq_ok hcomplete
  obtain ⟨rfl, -⟩ := Prod.mk.inj (Except.ok.inj hpure)
  rw [PyDict.get?_set] at hstored
  split_ifs at hstored
  · obtain rfl := Option.some.inj hstored
    exact .inr (prepare_evidence hprepare)
  · exact .inl hstored

theorem results_handleFailure (call : Call) (s : PublicationState) (requestId : Uuid)
    (error : RecoveryError) : (call.handleFailure s requestId error).1.results = s.results := by
  unfold handleFailure
  split
  · rfl
  · split <;> rfl

theorem results_runNext (h : (call.runNext berlinToUtc sha256 s).1.results.get? id = some stored) :
    s.results.get? id = some stored ∨
      call.inputFingerprint stored.resultPayload = .ok stored.inputFingerprint := by
  unfold runNext at h
  split at h
  · exact .inl h
  · split at h
    · exact .inl h
    · split at h
      · rw [results_handleFailure] at h
        exact .inl h
      next published outcome hpublish =>
        split at h
        · rw [results_handleFailure] at h
          exact .inl h
        · rw [results_handleFailure] at h
          exact results_publish hpublish h
        · split at h <;> exact results_publish hpublish h

end Call

namespace Database

theorem auditedAfter_concat (platform : Platform) (events : List DatabaseEvent)
    (event : DatabaseEvent) : auditedAfter platform (events ++ [event]) =
      auditedStep platform (auditedAfter platform events) event := run_concat events event

theorem settled_auditedAfter (platform : Platform) (events : List DatabaseEvent) :
    Settled platform (auditedAfter platform events) := by
  have hstep : ∀ db event, Settled platform db → Settled platform (auditedStep platform db event) :=
    fun db event h => h.step (db.audited platform event)
  exact run_invariant hstep settled_empty events

theorem later_auditedAfter (platform : Platform) (events later : List DatabaseEvent) :
    Later platform (auditedAfter platform events) (auditedAfter platform (events ++ later)) := by
  have hrun : auditedAfter platform (events ++ later) =
      run (auditedStep platform) (auditedAfter platform events) later := run_append events later
  rw [hrun]
  have hstep : ∀ db event, Later platform (auditedAfter platform events) db →
      Later platform (auditedAfter platform events) (auditedStep platform db event) :=
    fun db event h => h.step (db.audited platform event)
  exact run_invariant hstep (.refl (settled_auditedAfter platform events)) later

/-- A stored fingerprint is that of the inputs which its run found. -/
theorem exists_fingerprinted (platform : Platform) (events : List DatabaseEvent) {runId : Uuid}
    {stored : RecoveryResult}
    (h : (auditedAfter platform events).publication.results.get? runId = some stored) :
    ∃ before later, events = before ++ later ∧
      (auditedAfter platform before).inputFingerprint platform.sha256 stored.resultPayload =
        .ok stored.inputFingerprint := by
  induction events using List.reverseRecOn with
  | nil => cases h
  | append_singleton events event ih =>
    rw [auditedAfter_concat] at h
    -- A result that was there before keeps the state that its run has found.
    have hold : (auditedAfter platform events).publication.results.get? runId = some stored →
        ∃ before later, events ++ [event] = before ++ later ∧
          (auditedAfter platform before).inputFingerprint platform.sha256 stored.resultPayload =
            .ok stored.inputFingerprint := by
      intro hstored
      obtain ⟨before, later, hsplit, hfingerprint⟩ := ih hstored
      exact ⟨before, later ++ [event], by rw [hsplit, List.append_assoc], hfingerprint⟩
    cases event with
    | ingest call =>
      obtain hsame | ⟨delivery, deliveryKey, rows, hingested, -⟩ :=
        (settled_auditedAfter platform events).ingest_cases call
      · simp only [auditedStep, audited, step, hsame] at h
        exact hold h
      · simp only [auditedStep, audited, step] at h
        rw [hingested.publication] at h
        exact hold h
    | runNext call =>
      obtain hstored | hfingerprint := Call.results_runNext h
      · exact hold hstored
      · exact ⟨events, _, rfl, hfingerprint⟩
    | recordFailure requestId error now done => exact hold h
    | requeueFailed requestId additionalAttempts now => exact hold h

end Database

end

end Threadline
