import Threadline.RecoveryBehavior

/-!
# Retained deliveries

What the first committed attempt on a delivery stores is there in every later
state: one batch, its evidence, a receipt for each row, and one request. Another
attempt on the same files finds them and adds nothing.
-/

open PyText PyJson PyCalendar PySorted PyExcept Runs

namespace Threadline

/-- What a committed ingestion leaves in every later state. -/
structure Retained (platform : Platform) (call : IngestionCall) (delivery : VerifiedDelivery)
    (deliveryKey : Text) (stored : List (Uuid × SourceReceipt)) (db : Database) : Prop where
  batch : db.batches.get? call.batchId = some
    { call.processingBatch platform delivery deliveryKey with ingestionStatus := .committed }
  onlyBatch : ∀ p ∈ db.batches.items, p.2.deliveryKey = deliveryKey → p.1 = call.batchId
  evidence : db.evidence.get? call.batchId =
    some ⟨delivery.file.dataBytes, delivery.file.manifestBytes⟩
  receipts : (db.receiptsOf call.batchId).map coreRow = stored.map coreRow
  request : ∃ r, db.publication.queue.requests.get? call.requestId = some r ∧
    r.triggerBatchId = some call.batchId
  onlyRequest : ∀ id r, db.publication.queue.requests.get? id = some r →
    r.triggerBatchId = some call.batchId → id = call.requestId

section

variable {platform : Platform} {call other : IngestionCall} {db db' : Database}
  {delivery otherDelivery : VerifiedDelivery} {deliveryKey otherKey : Text}
  {stored otherStored : List (Uuid × SourceReceipt)}

/-! ## One step -/

/-- The receipts of a batch, up to the dispositions that resolutions give. -/
theorem receiptsOf_core (db : Database) (batchId : Uuid) :
    (db.receiptsOf batchId).map coreRow =
      (db.receipts.items.map coreRow).filter fun p => p.2.batchId = batchId := by
  rw [List.filter_map, Database.receiptsOf]
  refine congrArg (List.map coreRow) (List.filter_congr fun p _ => ?_)
  rw [Function.comp_apply, coreRow_batchId]

/-- The columns of a stored row that no resolution changes. -/
theorem storedRow_columns {row : Payload × ℕ} {p : Uuid × SourceReceipt}
    (h : call.storedRow platform delivery row = some p) :
    p.2.batchId = call.batchId ∧ p.2.rowNumber = row.2 ∧
      (p.2.disposition = .quarantined ↔
        ¬ ∃ record, parseSourceRecord platform.iso row.1 (.member delivery.entityType) =
          .ok record) := by
  unfold IngestionCall.storedRow at h
  split at h
  next violation hparse =>
    obtain ⟨_, -, rfl⟩ := Option.map_eq_some_iff.mp h
    simp [IngestionCall.quarantinedReceipt, hparse]
  · cases h
  next record hparse =>
    obtain ⟨_, -, rfl⟩ := Option.map_eq_some_iff.mp h
    simp [IngestionCall.pendingReceipt, hparse]

theorem stored_rows {rows : List (Payload × ℕ)}
    (h : rows.mapM (call.storedRow platform delivery) = some stored) :
    (∀ p ∈ stored, p.2.batchId = call.batchId) ∧
      stored.map (fun p => p.2.rowNumber) = rows.map Prod.snd ∧
      ((∃ p ∈ stored, p.2.disposition = .quarantined) ↔ ∃ payload ∈ rows.map Prod.fst,
        ¬ ∃ record, parseSourceRecord platform.iso payload (.member delivery.entityType) =
          .ok record) := by
  have hrows := mapM_eq_some.mp h
  clear h
  induction hrows with
  | nil => simp
  | cons hp _ ih =>
    obtain ⟨hbatch, hnumber, hdisposition⟩ := storedRow_columns hp
    obtain ⟨hbatches, hnumbers, hdispositions⟩ := ih
    refine ⟨List.forall_mem_cons.mpr ⟨hbatch, hbatches⟩, ?_, ?_⟩
    · rw [List.map_cons, List.map_cons, hnumber, hnumbers]
    · rw [List.map_cons, List.exists_mem_cons_iff, List.exists_mem_cons_iff, hdisposition,
        hdispositions]

/-- The receipts of a batch after another ingestion. -/
theorem Ingested.receiptsOf_core_other
    (h : Ingested platform other db db' otherDelivery otherKey otherStored) {batchId : Uuid}
    (hne : batchId ≠ other.batchId) :
    (db'.receiptsOf batchId).map coreRow = (db.receiptsOf batchId).map coreRow := by
  have hnone : (otherStored.map coreRow).filter (fun p => p.2.batchId = batchId) = [] := by
    refine List.filter_eq_nil_iff.mpr fun p hp => ?_
    obtain ⟨q, hq, rfl⟩ := List.mem_map.mp hp
    rw [coreRow_batchId, (stored_rows h.rows).1 q hq]
    simpa using hne.symm
  rw [receiptsOf_core, receiptsOf_core, h.receipts, List.map_append, List.filter_append, hnone,
    List.append_nil]

/-- The requests after an ingestion: one more, triggered by its batch. -/
theorem Ingested.requests (h : Ingested platform call db db' delivery deliveryKey stored) :
    db.publication.queue.requests.get? call.requestId = none ∧
      ∃ row : RecoveryRequest, row.triggerBatchId = some call.batchId ∧
        ∀ id, db'.publication.queue.requests.get? id =
          if call.requestId = id then some row else db.publication.queue.requests.get? id := by
  obtain ⟨requestKey, hinsert⟩ := h.request
  obtain ⟨hfresh, -, hqueue⟩ := RecoveryQueue.insertRequest_eq_ok hinsert
  have hget := fun id => congrArg (fun q : RecoveryQueue => q.requests.get? id) hqueue
  simp only [PyDict.get?_set] at hget
  exact ⟨hfresh, _, by exact rfl, hget⟩

/-- A committed ingestion leaves what it has stored. -/
theorem Ingested.retained (h : Ingested platform call db db' delivery deliveryKey stored)
    (hs : Recovering platform db) : Retained platform call delivery deliveryKey stored db' := by
  obtain ⟨-, row, hrow, hrequests⟩ := h.requests
  obtain ⟨hbatchIds, -, -⟩ := stored_rows h.rows
  refine ⟨?_, fun p hp hkey => ?_, ?_, ?_, ?_, fun id r hget htrigger => ?_⟩
  · rw [h.batches, PyDict.get?_set, if_pos rfl]
  · rw [h.batches, PyDict.items_set_of_get?_none h.freshBatch] at hp
    rcases List.mem_append.mp hp with hp | hp
    · exact absurd hkey (h.freshKey p.2 (List.mem_map_of_mem hp))
    · rw [List.mem_singleton.mp hp]
  · rw [h.evidence, PyDict.get?_set, if_pos rfl]
  · -- No earlier receipt belongs to the new batch.
    have hold : (db.receipts.items.map coreRow).filter (fun p => p.2.batchId = call.batchId) = [] := by
      refine List.filter_eq_nil_iff.mpr fun p hp => ?_
      obtain ⟨q, hq, rfl⟩ := List.mem_map.mp hp
      have hcounted := hs.settled.ledger.counted q hq
      rw [coreRow_batchId, decide_eq_true_eq]
      intro hbatch
      simp [Database.Counted, Database.batchStatus, hbatch, h.freshBatch] at hcounted
    have hnew : (stored.map coreRow).filter (fun p => p.2.batchId = call.batchId) =
        stored.map coreRow := by
      refine List.filter_eq_self.mpr fun p hp => ?_
      obtain ⟨q, hq, rfl⟩ := List.mem_map.mp hp
      rw [coreRow_batchId, hbatchIds q hq, decide_eq_true rfl]
    rw [receiptsOf_core, h.receipts, List.map_append, List.filter_append, hold, hnew,
      List.nil_append]
  · exact ⟨row, by rw [hrequests, if_pos rfl], hrow⟩
  · rw [hrequests] at hget
    split_ifs at hget with hid
    · exact hid.symm
    · obtain ⟨batchId, batch, htriggered⟩ := hs.triggered id r hget
      obtain rfl := Option.some.inj (htrigger.symm.trans htriggered.triggerBatch)
      cases h.freshBatch.symm.trans htriggered.stored

/-- Another ingestion leaves a retained delivery alone. -/
theorem Retained.ingest (h : Retained platform call delivery deliveryKey stored db)
    (ho : Ingested platform other db db' otherDelivery otherKey otherStored) :
    Retained platform call delivery deliveryKey stored db' := by
  have hne : call.batchId ≠ other.batchId := by
    intro hid
    cases h.batch.symm.trans (hid ▸ ho.freshBatch)
  obtain ⟨hfresh, row, hrow, hrequests⟩ := ho.requests
  refine ⟨ho.batch h.batch, fun p hp hkey => ?_, ?_, ?_, ?_, fun id r hget htrigger => ?_⟩
  · rw [ho.batches, PyDict.items_set_of_get?_none ho.freshBatch] at hp
    rcases List.mem_append.mp hp with hp | hp
    · exact h.onlyBatch p hp hkey
    · -- The new batch has another key than the retained one.
      rw [List.mem_singleton.mp hp] at hkey
      have hold := ho.freshKey _ (PyDict.mem_values_iff.mpr ⟨_, h.batch⟩)
      exact absurd hkey.symm hold
  · rw [ho.evidence, PyDict.get?_set, if_neg hne.symm]
    exact h.evidence
  · rw [ho.receiptsOf_core_other hne, h.receipts]
  · obtain ⟨r, hget, htrigger⟩ := h.request
    refine ⟨r, ?_, htrigger⟩
    rw [hrequests, if_neg, hget]
    intro hid
    cases hfresh.symm.trans (hid ▸ hget)
  · rw [hrequests] at hget
    split_ifs at hget with hid
    · obtain rfl := Option.some.inj hget
      exact absurd (Option.some.inj (htrigger.symm.trans hrow)) hne
    · exact h.onlyRequest id r hget htrigger

/-- So does a call that keeps the triggers of the requests. -/
theorem Retained.setPublication (h : Retained platform call delivery deliveryKey stored db)
    {publication : PublicationState}
    (hkeeps : db.publication.queue.KeepsTriggers publication.queue) :
    Retained platform call delivery deliveryKey stored { db with publication := publication } := by
  refine ⟨h.batch, h.onlyBatch, h.evidence, h.receipts, ?_, fun id r' hget' htrigger => ?_⟩
  · obtain ⟨r, hget, htrigger⟩ := h.request
    have hmap := hkeeps call.requestId
    rw [hget, Option.map_some, Option.map_eq_some_iff] at hmap
    obtain ⟨r', hget', hsame⟩ := hmap
    exact ⟨r', hget', (Prod.mk.inj hsame).2.trans htrigger⟩
  · obtain ⟨r, hget, -, hbatch⟩ := hkeeps.before hget'
    exact h.onlyRequest id r hget (hbatch.symm.trans htrigger)

theorem Retained.step (h : Retained platform call delivery deliveryKey stored db)
    (hs : Recovering platform db) (event : DatabaseEvent) :
    Retained platform call delivery deliveryKey stored (db.step platform event) := by
  cases event with
  | ingest other =>
    obtain hsame | ⟨otherDelivery, otherKey, otherStored, hingested, -⟩ :=
      hs.settled.ingest_cases other
    · rw [Database.step, hsame]
      exact h
    · exact h.ingest hingested
  | runNext other => exact h.setPublication (keepsTriggers_runNext _ _ _ other)
  | recordFailure requestId error now done =>
    exact h.setPublication (RecoveryQueue.keepsTriggers_recordFailure requestId error now done)
  | requeueFailed requestId additionalAttempts now =>
    exact h.setPublication
      (RecoveryQueue.keepsTriggers_requeueFailed requestId additionalAttempts now)

theorem Retained.run (h : Retained platform call delivery deliveryKey stored db)
    (hs : Recovering platform db) (events : List DatabaseEvent) :
    Retained platform call delivery deliveryKey stored
      (Runs.run (Database.step platform) db events) := by
  have hstep : ∀ (db : Database) event, Retained platform call delivery deliveryKey stored db ∧
      Recovering platform db → Retained platform call delivery deliveryKey stored
        (db.step platform event) ∧ Recovering platform (db.step platform event) :=
    fun _ event h => ⟨h.1.step h.2 event, h.2.step event⟩
  exact (run_invariant hstep ⟨h, hs⟩ events).1

/-! ## Accepted files -/

/-- What an accepted manifest says. -/
structure Declares (platform : Platform) (file : SourceFile) (delivery : VerifiedDelivery)
    (manifest : Payload) : Prop where
  filename : manifest.get? (txt "filename") = some (.str file.name)
  schemaVersion : manifest.get? (txt "schema_version") = some (.str (txt "1"))
  rowCount : manifest.get? (txt "row_count") = some (.num (.int delivery.records.length))
  checksum : manifest.get? (txt "checksum_sha256") = some (.str (platform.sha256 file.dataBytes))
  reportType : ∃ label, manifest.get? (txt "report_type") = some (.str label) ∧
    reportTypeOf label = some delivery.reportType
  entityType : ∃ label, manifest.get? (txt "entity_type") = some (.str label) ∧
    entityTypeOf label = some delivery.entityType
  sourceSystem : ∃ label, manifest.get? (txt "source_system") = some (.str label) ∧
    sourceSystemOf label = some delivery.sourceSystem
  reportDate : manifest.get? (txt "report_date") = some (.str delivery.reportDate.isoformat)

theorem get?_of_field {manifest : Payload} {key : Text} {value : Json} (hvalue : value ≠ .null)
    (h : manifest.field key = value) : manifest.get? key = some value := by
  unfold Payload.field PyDict.getD at h
  cases hget : manifest.get? key with
  | none =>
    rw [hget] at h
    exact absurd h.symm hvalue
  | some found =>
    rw [hget] at h
    rw [← h, Option.getD_some]

theorem get?_of_memberOf {α : Type} {of : Text → Option α} {manifest : Payload} {key : Text} {a : α}
    (h : memberOf of (manifest.field key) = some a) :
    ∃ label, manifest.get? key = some (.str label) ∧ of label = some a := by
  unfold memberOf at h
  split at h
  next label hlabel => exact ⟨label, get?_of_field (by simp) hlabel, h⟩
  · cases h

/-- An accepted delivery is made of its two files. -/
theorem verifyDelivery_eq_ok {file : SourceFile}
    (h : verifyDelivery platform file = .ok delivery) :
    delivery.file = file ∧ ∃ data members, platform.strictJson file.dataBytes = some data ∧
      platform.strictJson file.manifestBytes = some (.obj members) ∧
      objectRows data = some delivery.records ∧
      Declares platform file delivery (PyDict.ofPairs members) := by
  simp only [verifyDelivery, bind_eq_ok, orRaise_eq_ok, require_eq_ok] at h
  obtain ⟨data, hdata, manifestJson, hmanifest, manifest, hobject, -, -, -, hfilename, -, hversion,
    records, hrecords, -, hcount, -, hchecksum, reportType, htype, entityType, hentity,
    sourceSystem, hsource, h⟩ := h
  split_ifs at h with hentityEq hsourceEq
  simp only [bind_eq_ok, orRaise_eq_ok, require_eq_ok] at h
  obtain ⟨reportDate, -, -, hdate, h⟩ := h
  obtain rfl := Except.ok.inj h
  cases manifestJson with
  | obj members =>
    obtain rfl := Option.some.inj hobject
    refine ⟨rfl, data, members, hdata, hmanifest, hrecords, ?_⟩
    exact {
      filename := get?_of_field (by simp) hfilename
      schemaVersion := get?_of_field (by simp) hversion
      rowCount := get?_of_field (by simp) hcount
      checksum := get?_of_field (by simp) hchecksum
      reportType := get?_of_memberOf htype
      entityType := get?_of_memberOf hentity
      sourceSystem := get?_of_memberOf hsource
      reportDate := get?_of_field (by simp) hdate
    }
  | _ => cases hobject

end

/-! ## Attempts -/

/-- What the transaction of a call returns, if it commits. -/
def IngestionCall.committed? (platform : Platform) (call : IngestionCall) (db : Database) :
    Option IngestionOutcome :=
  match call.transaction platform db, call.raises .commit with
  | .ok (_, outcome), none => some outcome
  | _, _ => none

section

variable {platform : Platform} {call : IngestionCall} {db : Database} {outcome : IngestionOutcome}

theorem committed?_eq_some : call.committed? platform db = some outcome ↔
    call.raises .commit = none ∧ ∃ db', call.transaction platform db = .ok (db', outcome) := by
  unfold IngestionCall.committed?
  constructor
  · intro h
    split at h
    next db' _ htransaction hcommit =>
      obtain rfl := Option.some.inj h
      exact ⟨hcommit, db', htransaction⟩
    · cases h
  · rintro ⟨hcommit, db', htransaction⟩
    rw [htransaction, hcommit]

/-- A call that does not commit raises, and leaves the database as it was. -/
theorem ingestSourceFile_of_not_committed (h : call.committed? platform db = none) :
    ∃ error, call.ingestSourceFile platform db = (db, .error error) := by
  unfold IngestionCall.committed? at h
  unfold IngestionCall.ingestSourceFile
  split at h
  · cases h
  next hother =>
    cases htransaction : call.transaction platform db with
    | error error => exact ⟨error, rfl⟩
    | ok result =>
      obtain ⟨db', outcome⟩ := result
      cases hcommit : call.raises .commit with
      | none => exact absurd hcommit (hother db' outcome htransaction)
      | some error => exact ⟨error, rfl⟩

/-- A call that commits finds the delivery, or stores it. -/
theorem Settled.commit (hs : Settled platform db)
    (h : call.committed? platform db = some outcome) :
    (outcome.reusedExistingBatch = true ∧ call.ingestSourceFile platform db = (db, .ok outcome)) ∨
      outcome = ⟨call.batchId, call.requestId, false⟩ ∧
        ∃ delivery deliveryKey stored, Ingested platform call db
          (call.ingestSourceFile platform db).1 delivery deliveryKey stored ∧
        (call.ingestSourceFile platform db).2 = match call.raises .afterCommit with
          | some error => .error error
          | none => .ok outcome := by
  obtain ⟨hcommit, db', htransaction⟩ := committed?_eq_some.mp h
  unfold IngestionCall.ingestSourceFile
  simp only [htransaction, hcommit]
  obtain ⟨rfl, hreused⟩ | ⟨delivery, deliveryKey, stored, hingested, -, rfl⟩ :=
    hs.transaction htransaction
  · rw [if_pos hreused]
    exact .inl ⟨hreused, rfl⟩
  · refine .inr ⟨rfl, delivery, deliveryKey, stored, ?_, ?_⟩
    · rw [if_neg Bool.false_ne_true]
      cases call.raises .afterCommit <;> exact hingested
    · rw [if_neg Bool.false_ne_true]
      cases call.raises .afterCommit <;> rfl

/-- Every batch was stored by a call that committed. -/
theorem exists_ingested {events : List DatabaseEvent} {p : Uuid × IngestionBatch}
    (hp : p ∈ (Database.after platform events).batches.items) :
    ∃ before call later, events = before ++ .ingest call :: later ∧ p.1 = call.batchId ∧
      (call.committed? platform (Database.after platform before)).isSome ∧
      ∃ delivery deliveryKey stored, Ingested platform call (Database.after platform before)
        (call.ingestSourceFile platform (Database.after platform before)).1
        delivery deliveryKey stored := by
  have hafter : ((Database.after platform events).batches.get? p.1).isSome := by
    rw [PyDict.mem_items_iff.mp hp]
    rfl
  have hempty : ¬ ((∅ : Database).batches.get? p.1).isSome := Bool.false_ne_true
  obtain ⟨before, event, later, rfl, hbefore, hstored⟩ := exists_step_of_run
    (fun db : Database => (db.batches.get? p.1).isSome) hempty hafter
  rw [run_concat] at hstored
  change ¬ ((Database.after platform before).batches.get? p.1).isSome at hbefore
  change (((Database.after platform before).step platform event).batches.get? p.1).isSome at hstored
  have hs : Settled platform (Database.after platform before) := settled_after before
  -- Only an ingestion that commits a new batch adds one.
  cases event with
  | ingest call =>
    refine ⟨before, call, later, rfl, ?_⟩
    have hnew : (call.ingestSourceFile platform (Database.after platform before)).1 ≠
        Database.after platform before := by
      intro hsame
      rw [Database.step, hsame] at hstored
      exact hbefore hstored
    cases hcommitted : call.committed? platform (Database.after platform before) with
    | none =>
      obtain ⟨error, hsame⟩ := ingestSourceFile_of_not_committed hcommitted
      exact absurd (congrArg Prod.fst hsame) hnew
    | some outcome =>
      obtain ⟨-, hsame⟩ | ⟨-, delivery, deliveryKey, stored, hingested, -⟩ := hs.commit hcommitted
      · exact absurd (congrArg Prod.fst hsame) hnew
      · refine ⟨?_, rfl, delivery, deliveryKey, stored, hingested⟩
        by_contra hne
        rw [Database.step, hingested.batches, PyDict.get?_set, if_neg (Ne.symm hne)] at hstored
        exact hbefore hstored
  | runNext call => exact absurd hstored hbefore
  | recordFailure requestId error now done => exact absurd hstored hbefore
  | requeueFailed requestId additionalAttempts now => exact absurd hstored hbefore

/-- What a committed ingestion has stored is there after all later calls. -/
theorem Ingested.retained_after {before : List DatabaseEvent} {delivery : VerifiedDelivery}
    {deliveryKey : Text} {stored : List (Uuid × SourceReceipt)}
    (h : Ingested platform call (Database.after platform before)
      (call.ingestSourceFile platform (Database.after platform before)).1
      delivery deliveryKey stored) (later : List DatabaseEvent) :
    Retained platform call delivery deliveryKey stored
      (Database.after platform (before ++ .ingest call :: later)) := by
  have hbefore : Recovering platform (Database.after platform before) := recovering_after before
  unfold Database.after
  rw [run_append, run_cons]
  exact (h.retained hbefore).run (hbefore.step (.ingest call)) later

end

end Threadline
