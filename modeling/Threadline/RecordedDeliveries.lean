import Threadline.IngestionLedger
import Threadline.IngestedRows

/-!
# Recorded deliveries

What a call of `record_delivery` does to the tables: nothing where the delivery
is known, and otherwise one batch with a receipt for each of its rows.
-/

open PyText PyJson PyCalendar PyExcept

namespace Threadline

/-! ## Rows -/

section

variable {platform : LedgerPlatform} {call : LedgerCall} {batchId : Uuid} {issues : List Text}

/-- What a prepared row holds. -/
structure PreparedRow (platform : LedgerPlatform) (call : LedgerCall) (batchId : Uuid)
    (issues : List Text) (row : Payload × ℕ) (p : Uuid × SourceReceipt) : Prop where
  id : p.1 = receiptIdOf platform batchId row.2 p.2.payloadHash
  batchId : p.2.batchId = batchId
  rowNumber : p.2.rowNumber = row.2
  entityType : p.2.entityType = some call.delivery.entityType.value
  payload : p.2.rawPayload = .obj row.1.items
  hash : documentFingerprint platform.sha256 (.obj row.1.items) = some p.2.payloadHash
  unresolved : p.2.recordVersion = none
  pending : p.2.disposition = .pending ↔ issues = [] ∧ ∃ record,
    parseSourceRecord platform.iso row.1 (.member call.delivery.entityType) = .ok record
  quarantined : p.2.disposition = .quarantined ↔ p.2.disposition ≠ .pending
  reason : p.2.disposition = .quarantined → ∃ code, p.2.reasonCode = some code ∧ strip code ≠ []

theorem prepareReceipt_eq_ok {row : Payload × ℕ} {p : Uuid × SourceReceipt}
    (h : call.prepareReceipt platform batchId issues row = .ok p) :
    PreparedRow platform call batchId issues row p := by
  simp only [LedgerCall.prepareReceipt, bind_eq_ok, orRaise_eq_ok] at h
  obtain ⟨payloadHash, hhash, h⟩ := h
  cases hparse : parseSourceRecord platform.iso row.1 (.member call.delivery.entityType) with
  | error err =>
    cases err with
    | contract violation =>
      simp only [hparse] at h
      obtain rfl := Except.ok.inj h
      exact ⟨rfl, rfl, rfl, rfl, rfl, hhash, rfl, by simp [hparse], by simp, fun _ =>
        ⟨violation.code, rfl, coded_parseSourceRecord _ _ hparse⟩⟩
    | overflow =>
      simp only [hparse] at h
      cases h
  | ok record =>
    simp only [hparse] at h
    obtain rfl := Except.ok.inj h
    by_cases hissues : issues = []
    · exact ⟨rfl, rfl, rfl, rfl, rfl, hhash, rfl, by simp [hparse, hissues], by simp [hissues],
        by simp [hissues]⟩
    · exact ⟨rfl, rfl, rfl, rfl, rfl, hhash, rfl, by simp [hissues], by simp [hissues], fun _ =>
        ⟨_, if_neg hissues, by decide⟩⟩

theorem prepareReceipts_eq_ok {rows : List (Uuid × SourceReceipt)}
    (h : call.prepareReceipts platform batchId issues = .ok rows) :
    List.Forall₂ (PreparedRow platform call batchId issues) (call.delivery.records.zipIdx 1) rows :=
  (mapM_eq_ok.mp h).imp fun _ _ => prepareReceipt_eq_ok

end

/-! ## Statements -/

section

variable {tables tables' : IngestionTables} {batchId : Uuid}

theorem createBatch_eq_ok {batch : IngestionBatch} {schemaVersion : Text} {inserted : Bool}
    (h : tables.createBatch batchId batch schemaVersion = .ok (tables', inserted)) :
    (inserted = false ∧ tables' = tables ∧
        ∃ other ∈ tables.db.batches.values, other.deliveryKey = batch.deliveryKey) ∨
      (inserted = true ∧ (∀ other ∈ tables.db.batches.values, other.deliveryKey ≠ batch.deliveryKey) ∧
        tables.db.batches.get? batchId = none ∧ tables' = {
          db := { tables.db with batches := tables.db.batches.set batchId batch }
          details := tables.details.set batchId ⟨schemaVersion, none⟩ }) := by
  simp only [IngestionTables.createBatch, bind_eq_ok, require_eq_ok] at h
  obtain ⟨-, -, -, -, -, -, h⟩ := h
  split at h
  next hknown =>
    obtain ⟨rfl, rfl⟩ := Prod.mk.inj (Except.ok.inj h)
    obtain ⟨other, hother, hkey⟩ := List.any_eq_true.mp hknown
    exact .inl ⟨rfl, rfl, other, hother, of_decide_eq_true hkey⟩
  next hnew =>
    obtain ⟨⟨⟩, hfresh, h⟩ := bind_eq_ok.mp h
    obtain ⟨rfl, rfl⟩ := Prod.mk.inj (Except.ok.inj h)
    refine .inr ⟨rfl, fun other hother hkey => hnew ?_, require_eq_ok.mp hfresh, rfl⟩
    exact List.any_eq_true.mpr ⟨other, hother, decide_eq_true hkey⟩

/-- Rows with numbers that the batch does not have yet are all inserted. -/
theorem insertReceipts_eq_ok {rows : List (Uuid × SourceReceipt)}
    (hbatch : ∀ p ∈ rows, p.2.batchId = batchId)
    (hnumbers : (rows.map fun p => p.2.rowNumber).Nodup)
    (hnew : ∀ r ∈ tables.db.receipts.values, r.batchId = batchId →
      ∀ p ∈ rows, p.2.rowNumber ≠ r.rowNumber)
    (h : tables.insertReceipts rows = .ok tables') :
    ∃ receipts, receipts.items = tables.db.receipts.items ++ rows ∧
      tables' = { tables with
        db := { tables.db with receipts := receipts } } := by
  induction rows generalizing tables with
  | nil =>
    obtain rfl := Except.ok.inj h
    exact ⟨_, (List.append_nil _).symm, rfl⟩
  | cons p rows ih =>
    rw [IngestionTables.insertReceipts, List.foldlM_cons, bind_eq_ok] at h
    obtain ⟨next, hinsert, h⟩ := h
    obtain ⟨hp, hrows⟩ := List.forall_mem_cons.mp hbatch
    obtain ⟨hnumber, hnumbers⟩ := List.nodup_cons.mp hnumbers
    simp only [IngestionTables.insertReceipt, bind_eq_ok, require_eq_ok] at hinsert
    obtain ⟨-, -, -, -, -, -, hinsert⟩ := hinsert
    have hclash : ¬ tables.db.receipts.values.any fun other =>
        other.batchId = p.2.batchId ∧ other.rowNumber = p.2.rowNumber := by
      rw [List.any_eq_true]
      rintro ⟨r, hr, hsame⟩
      obtain ⟨hid, hrow⟩ := of_decide_eq_true hsame
      exact hnew r hr (hid.trans hp) p List.mem_cons_self hrow.symm
    rw [if_neg hclash] at hinsert
    obtain ⟨⟨⟩, hfresh, hinsert⟩ := bind_eq_ok.mp hinsert
    obtain rfl := Except.ok.inj hinsert
    have hitems := PyDict.items_set_of_get?_none (v := p.2) (require_eq_ok.mp hfresh)
    have hnext : ∀ r ∈ (tables.db.receipts.set p.1 p.2).values, r.batchId = batchId →
        ∀ q ∈ rows, q.2.rowNumber ≠ r.rowNumber := by
      intro r hr hid q hq
      rw [PyDict.values, hitems, List.map_append, List.mem_append] at hr
      rcases hr with hr | hr
      · exact hnew r hr hid q (List.mem_cons_of_mem _ hq)
      · obtain rfl := List.mem_singleton.mp hr
        intro hsame
        exact hnumber (List.mem_map.mpr ⟨q, hq, hsame⟩)
    obtain ⟨receipts, hreceipts, rfl⟩ := ih hrows hnumbers hnext h
    refine ⟨receipts, ?_, rfl⟩
    rw [hreceipts, hitems, List.append_assoc]
    rfl

theorem setBatchStatus_eq_ok {status : IngestionStatus} {errorMessage : Option Text}
    {batch : IngestionBatch} (hbatch : tables.db.batches.get? batchId = some batch)
    (h : tables.setBatchStatus batchId status errorMessage = .ok tables') : tables' = {
      db := { tables.db with
        batches := tables.db.batches.set batchId { batch with ingestionStatus := status } }
      details := tables.details.modify batchId ⟨[], none⟩ fun row =>
        { row with errorMessage := errorMessage } } := by
  simp only [IngestionTables.setBatchStatus, bind_eq_ok, hbatch] at h
  obtain ⟨-, -, -, -, h⟩ := h
  exact (Except.ok.inj h).symm

/-- The batch of a key is found where its ID is the only one that has it. -/
theorem find?_deliveryKey (batches : PyDict Uuid IngestionBatch) (batch : IngestionBatch)
    {deliveryKey : Text} (hget : batches.get? batchId = some batch)
    (hkey : batch.deliveryKey = deliveryKey)
    (honly : ∀ p ∈ batches.items, p.2.deliveryKey = deliveryKey → p.1 = batchId) :
    batches.items.find? (fun p => p.2.deliveryKey = deliveryKey) = some (batchId, batch) := by
  cases hfind : batches.items.find? (fun p => p.2.deliveryKey = deliveryKey) with
  | none =>
    have := List.find?_eq_none.mp hfind (batchId, batch) (PyDict.mem_items_iff.mpr hget)
    simp [hkey] at this
  | some p =>
    have hp := List.mem_of_find?_eq_some hfind
    have hid := honly p hp (by simpa using List.find?_some hfind)
    have hsame := PyDict.mem_items_iff.mp hp
    rw [hid, hget] at hsame
    exact congrArg some (Prod.ext hid (Option.some.inj hsame).symm)

end

/-! ## The transaction -/

/-- The batch of a call, as its transaction leaves it. -/
def LedgerCall.recordedBatch (platform : LedgerPlatform) (call : LedgerCall)
    (deliveryKey filename : Text) : IngestionBatch :=
  { call.receivedBatch platform deliveryKey filename with
    ingestionStatus := call.batchStatus platform }

/-- What a call that has recorded a new batch has done. -/
structure Recorded (platform : LedgerPlatform) (call : LedgerCall)
    (tables tables' : IngestionTables) (deliveryKey filename : Text)
    (rows : List (Uuid × SourceReceipt)) : Prop where
  normalized : normalizeFilename call.delivery.originalFilename = .ok filename
  key : calculateDeliveryKey platform call.delivery = .ok deliveryKey
  freshKey : ∀ batch ∈ tables.db.batches.values, batch.deliveryKey ≠ deliveryKey
  freshBatch : tables.db.batches.get? call.batchId = none
  prepared : call.prepareReceipts platform call.batchId (batchIssues platform call.delivery) =
    .ok rows
  batches : tables'.db.batches = tables.db.batches.set call.batchId
    (call.recordedBatch platform deliveryKey filename)
  receipts : tables'.db.receipts.items = tables.db.receipts.items ++ rows
  others : tables'.db = { tables.db with
    batches := tables'.db.batches
    receipts := tables'.db.receipts }
  details : tables'.details = tables.details.set call.batchId
    ⟨call.delivery.schemaVersion, call.batchError platform⟩

section

variable {platform : LedgerPlatform} {call : LedgerCall} {tables tables' : IngestionTables}

/-- The rows of a delivery are numbered from one. -/
theorem prepareReceipts_rowNumbers {batchId : Uuid} {issues : List Text}
    {rows : List (Uuid × SourceReceipt)}
    (h : call.prepareReceipts platform batchId issues = .ok rows) :
    rows.map (fun p => p.2.rowNumber) = List.range' 1 call.delivery.records.length := by
  have hrows := prepareReceipts_eq_ok h
  rw [← List.zipIdx_map_snd 1]
  have hmap : List.Forall₂ (fun a b => a = b) ((call.delivery.records.zipIdx 1).map Prod.snd)
      (rows.map fun p => p.2.rowNumber) := by
    rw [List.forall₂_map_left_iff, List.forall₂_map_right_iff]
    exact hrows.imp fun _ _ hrow => hrow.rowNumber.symm
  exact (List.forall₂_eq_eq_eq ▸ hmap).symm

theorem prepareReceipts_batchId {batchId : Uuid} {issues : List Text}
    {rows : List (Uuid × SourceReceipt)}
    (h : call.prepareReceipts platform batchId issues = .ok rows) :
    ∀ p ∈ rows, p.2.batchId = batchId := by
  intro p hp
  obtain ⟨row, -, hrow⟩ := (mem_of_mapM_eq_ok h).mp hp
  exact (prepareReceipt_eq_ok hrow).batchId

/-- A batch that is inserted under a fresh key is the only one that has it. -/
theorem onlyBatch_of_fresh {batches : PyDict Uuid IngestionBatch} {batchId : Uuid}
    {deliveryKey : Text} (hfresh : batches.get? batchId = none)
    (hkey : ∀ other ∈ batches.values, other.deliveryKey ≠ deliveryKey) (batch : IngestionBatch) :
    ∀ p ∈ (batches.set batchId batch).items, p.2.deliveryKey = deliveryKey → p.1 = batchId := by
  intro p hp hsame
  rw [PyDict.items_set_of_get?_none hfresh, List.mem_append] at hp
  rcases hp with hp | hp
  · exact absurd hsame (hkey p.2 (List.mem_map_of_mem hp))
  · rw [List.mem_singleton.mp hp]

/-- Every receipt has a batch: the foreign key of `source_receipt`. -/
def Database.Referenced (db : Database) : Prop :=
  ∀ r ∈ db.receipts.values, (db.batches.get? r.batchId).isSome

theorem Database.Referenced.ne_of_fresh {db : Database} (h : db.Referenced) {id : Uuid}
    (hfresh : db.batches.get? id = none) {p : Uuid × SourceReceipt} (hp : p ∈ db.receipts.items) :
    p.2.batchId ≠ id := by
  intro hid
  have hsome := h p.2 (List.mem_map_of_mem hp)
  rw [hid, hfresh] at hsome
  cases hsome

/-- The rows of a batch that was inserted are stored, and its status is set. -/
theorem fillBatch_eq_ok (hreferenced : tables.db.Referenced) {deliveryKey filename : Text}
    (hfresh : tables.db.batches.get? call.batchId = none)
    (hkey : ∀ other ∈ tables.db.batches.values, other.deliveryKey ≠ deliveryKey)
    {created : IngestionTables} (hcreated : created = {
      db := { tables.db with
        batches := tables.db.batches.set call.batchId
          (call.receivedBatch platform deliveryKey filename) }
      details := tables.details.set call.batchId ⟨call.delivery.schemaVersion, none⟩ })
    {stored : Uuid × IngestionBatch}
    (h : call.fillBatch platform created deliveryKey
      (call.batchId, call.receivedBatch platform deliveryKey filename) true = .ok (tables', stored)) :
    stored = (call.batchId, call.recordedBatch platform deliveryKey filename) ∧
    ∃ rows, call.prepareReceipts platform call.batchId (batchIssues platform call.delivery) =
        .ok rows ∧
      tables'.db.batches = tables.db.batches.set call.batchId
        (call.recordedBatch platform deliveryKey filename) ∧
      tables'.db.receipts.items = tables.db.receipts.items ++ rows ∧
      tables'.db = { tables.db with
        batches := tables'.db.batches
        receipts := tables'.db.receipts } ∧
      tables'.details = tables.details.set call.batchId
        ⟨call.delivery.schemaVersion, call.batchError platform⟩ := by
  subst hcreated
  simp only [LedgerCall.fillBatch, if_true, bind_eq_ok] at h
  obtain ⟨rows, hrows, -, -, inserted, hinsert, -, -, updated, hupdate, found, hfound, h⟩ := h
  obtain ⟨rfl, rfl⟩ := Prod.mk.inj (Except.ok.inj h)
  have hbatch := prepareReceipts_batchId hrows
  have hnumbers := prepareReceipts_rowNumbers hrows
  obtain ⟨receipts, hreceipts, rfl⟩ := insertReceipts_eq_ok hbatch
    (hnumbers ▸ List.nodup_range' ..) (fun r hr hid => by
      obtain ⟨p, hp, rfl⟩ := List.mem_map.mp hr
      exact absurd hid (hreferenced.ne_of_fresh hfresh hp)) hinsert
  have hget : (tables.db.batches.set call.batchId
      (call.receivedBatch platform deliveryKey filename)).get? call.batchId =
        some (call.receivedBatch platform deliveryKey filename) := by
    rw [PyDict.get?_set, if_pos rfl]
  obtain rfl := setBatchStatus_eq_ok hget hupdate
  have hbatches : (tables.db.batches.set call.batchId
      (call.receivedBatch platform deliveryKey filename)).set call.batchId
        (call.recordedBatch platform deliveryKey filename) =
      tables.db.batches.set call.batchId (call.recordedBatch platform deliveryKey filename) :=
    PyDict.set_set ..
  have hdetails : (tables.details.set call.batchId ⟨call.delivery.schemaVersion, none⟩).modify
      call.batchId ⟨[], none⟩ (fun row => { row with errorMessage := call.batchError platform }) =
      tables.details.set call.batchId
        ⟨call.delivery.schemaVersion, call.batchError platform⟩ := by
    simp [PyDict.modify, PyDict.getD]
  refine ⟨?_, rows, hrows, hbatches, hreceipts, rfl, hdetails⟩
  have honly := onlyBatch_of_fresh hfresh hkey (call.recordedBatch platform deliveryKey filename)
  have hfind := find?_deliveryKey (tables.db.batches.set call.batchId
    (call.recordedBatch platform deliveryKey filename)) _ (by rw [PyDict.get?_set, if_pos rfl]) rfl
    honly
  rw [IngestionTables.getBatchByDeliveryKey, orRaise_eq_ok] at hfound
  change ((tables.db.batches.set call.batchId _).set call.batchId _).items.find? _ = _ at hfound
  rw [PyDict.set_set] at hfound
  exact Option.some.inj (hfound.symm.trans hfind)

/-- A transaction that commits finds the delivery recorded, or records it, and reports what is
stored. -/
theorem LedgerCall.transaction_cases (hreferenced : tables.db.Referenced)
    {result : IngestionLedgerResult} (h : call.transaction platform tables = .ok (tables', result)) :
    ∃ deliveryKey stored, calculateDeliveryKey platform call.delivery = .ok deliveryKey ∧
      tables'.db.batches.items.find? (fun p => p.2.deliveryKey = deliveryKey) = some stored ∧
      ((tables' = tables ∧ result = call.resultOf platform tables' deliveryKey stored false) ∨
        ∃ filename rows, Recorded platform call tables tables' deliveryKey filename rows ∧
          result = call.resultOf platform tables' deliveryKey stored true) := by
  simp only [LedgerCall.transaction, bind_eq_ok] at h
  obtain ⟨deliveryKey, hkey, -, -, filename, hfilename, -, -, ⟨created, inserted⟩, hcreate, -, -, stored,
    hstored, ⟨filled, refetched⟩, hfill, -, -, -, -, h⟩ := h
  obtain ⟨rfl, rfl⟩ := Prod.mk.inj (Except.ok.inj h)
  rw [IngestionTables.getBatchByDeliveryKey, orRaise_eq_ok] at hstored
  obtain ⟨rfl, rfl, -⟩ | ⟨rfl, hfreshKey, hfresh, hcreated⟩ := createBatch_eq_ok hcreate
  · obtain ⟨rfl, rfl⟩ := Prod.mk.inj (Except.ok.inj hfill)
    exact ⟨deliveryKey, stored, hkey, hstored, .inl ⟨rfl, rfl⟩⟩
  · have honly := onlyBatch_of_fresh hfresh hfreshKey
    have hfound := find?_deliveryKey created.db.batches
      (call.receivedBatch platform deliveryKey filename)
      (by rw [hcreated, PyDict.get?_set, if_pos rfl]) rfl (by rw [hcreated]; exact honly _)
    obtain rfl := Option.some.inj (hstored.symm.trans hfound)
    obtain ⟨rfl, rows, hrows, hbatches, hreceipts, hothers, hdetails⟩ :=
      fillBatch_eq_ok hreferenced hfresh hfreshKey hcreated hfill
    refine ⟨deliveryKey, _, hkey, ?_, .inr ⟨filename, rows, ⟨hfilename, hkey, hfreshKey, hfresh, hrows,
      hbatches, hreceipts, hothers, hdetails⟩, rfl⟩⟩
    rw [hbatches]
    exact find?_deliveryKey _ _ (by rw [PyDict.get?_set, if_pos rfl]) rfl (honly _)

/-- `record_delivery` leaves the tables of its transaction, or those it found. -/
theorem LedgerCall.recordDelivery_cases (platform : LedgerPlatform) (call : LedgerCall)
    (tables : IngestionTables) :
    (call.recordDelivery platform tables).1 = tables ∨ ∃ tables' result,
      call.transaction platform tables = .ok (tables', result) ∧
        (call.recordDelivery platform tables).1 = tables' := by
  unfold LedgerCall.recordDelivery
  split
  · exact .inl rfl
  next tables' result htransaction =>
    split
    · exact .inl rfl
    · refine .inr ⟨tables', result, htransaction, ?_⟩
      split <;> rfl

/-! ## Counts -/

/-- Whether a row of the delivery satisfies its contract. -/
def LedgerCall.parses (platform : LedgerPlatform) (call : LedgerCall) (payload : Payload) : Bool :=
  (parseSourceRecord platform.iso payload (.member call.delivery.entityType)).toOption.isSome

/-- The rows of a recorded delivery are counted once each: those that satisfy their contract can be
processed, unless the batch has failed. -/
theorem counts_of_rows {rows : List (Uuid × SourceReceipt)}
    (hrows : call.prepareReceipts platform call.batchId (batchIssues platform call.delivery) =
      .ok rows)
    (hreceipts : tables.db.receiptsOf call.batchId = rows) :
    (tables.receiptCounts call.batchId).total = call.delivery.records.length ∧
      (tables.receiptCounts call.batchId).processable =
        (if batchIssues platform call.delivery = [] then
          call.delivery.records.countP (call.parses platform)
        else 0) ∧
      (tables.receiptCounts call.batchId).processable +
        (tables.receiptCounts call.batchId).quarantined = call.delivery.records.length := by
  have hlength : rows.length = call.delivery.records.length := by
    rw [← (mapM_eq_ok.mp hrows).length_eq, List.length_zipIdx]
  have hpending : rows.countP (fun p => p.2.disposition = .pending) =
      (call.delivery.records.zipIdx 1).countP fun row =>
        decide (batchIssues platform call.delivery = []) && call.parses platform row.1 := by
    refine countP_of_mapM_eq_ok hrows fun row p hp => ?_
    rw [Bool.eq_iff_iff, decide_eq_true_eq, (prepareReceipt_eq_ok hp).pending, Bool.and_eq_true,
      decide_eq_true_eq, LedgerCall.parses, Option.isSome_iff_exists]
    simp only [toOption_eq_some]
  have hquarantined : rows.countP (fun p => p.2.disposition = .quarantined) =
      rows.countP fun p => !decide (p.2.disposition = .pending) := by
    refine List.countP_congr fun p hp => ?_
    obtain ⟨row, -, hrow⟩ := (mem_of_mapM_eq_ok hrows).mp hp
    simpa using (prepareReceipt_eq_ok hrow).quarantined
  unfold IngestionTables.receiptCounts
  simp only [hreceipts]
  refine ⟨hlength, ?_, ?_⟩
  · rw [hpending]
    split_ifs with hissues
    · rw [← List.zipIdx_map_fst 1 call.delivery.records, List.countP_map]
      simp [hissues, Function.comp_def]
    · simp [hissues]
  · rw [hquarantined, ← hlength]
    have hsplit := List.length_eq_countP_add_countP
      (fun p : Uuid × SourceReceipt => decide (p.2.disposition = .pending)) (l := rows)
    simpa using hsplit.symm

/-- The receipts of a new batch are its rows. -/
theorem receiptsOf_recorded {db db' : Database} {batchId : Uuid} {rows : List (Uuid × SourceReceipt)}
    (hreferenced : db.Referenced) (hfresh : db.batches.get? batchId = none)
    (hbatch : ∀ p ∈ rows, p.2.batchId = batchId)
    (hitems : db'.receipts.items = db.receipts.items ++ rows) : db'.receiptsOf batchId = rows := by
  have hold : db.receipts.items.filter (fun p => p.2.batchId = batchId) = [] := by
    refine List.filter_eq_nil_iff.mpr fun p hp hid => ?_
    exact hreferenced.ne_of_fresh hfresh hp (of_decide_eq_true hid)
  have hnew : rows.filter (fun p => p.2.batchId = batchId) = rows :=
    List.filter_eq_self.mpr fun p hp => decide_eq_true (hbatch p hp)
  rw [Database.receiptsOf, hitems, List.filter_append, hold, hnew, List.nil_append]

/-! ## Exceptions -/

/-- The tables are not blamed: no row is missing, and none is lost. -/
def LedgerError.Expected : LedgerError → Prop
  | .lookup _ | .runtime _ => False
  | _ => True

theorem raises_reach (call : LedgerCall) (point : LedgerPoint) :
    Raises LedgerError.Expected (call.reach point) := by
  unfold LedgerCall.reach
  split
  · exact raises_error trivial
  · exact raises_ok ()

theorem raises_require {check : Prop} [Decidable check] {error : LedgerError}
    (h : error.Expected) : Raises LedgerError.Expected (require check error) := by
  unfold require
  split_ifs
  · exact raises_ok ()
  · exact raises_error h

theorem raises_require_of {check : Prop} [Decidable check] {error : LedgerError} (h : check) :
    Raises LedgerError.Expected (require check error) := by
  rw [require, if_pos h]
  exact raises_ok ()

theorem raises_orRaise {α : Type} {value : Option α} {error : LedgerError} (h : error.Expected) :
    Raises LedgerError.Expected (orRaise value error) := by
  cases value with
  | none => exact raises_error h
  | some a => exact raises_ok a

theorem raises_normalizeFilename (filename : Text) :
    Raises LedgerError.Expected (normalizeFilename filename) := by
  unfold normalizeFilename
  dsimp only
  split
  · exact raises_error trivial
  · exact raises_ok _

theorem raises_prepareReceipt {batchId : Uuid} {issues : List Text} (row : Payload × ℕ) :
    Raises LedgerError.Expected (call.prepareReceipt platform batchId issues row) := by
  unfold LedgerCall.prepareReceipt
  refine (raises_orRaise (by trivial)).bind fun payloadHash _ => ?_
  dsimp only
  split
  · exact raises_ok _
  · exact raises_error trivial
  · exact raises_ok _

theorem raises_createBatch {batchId : Uuid} {batch : IngestionBatch} {schemaVersion : Text} :
    Raises LedgerError.Expected (tables.createBatch batchId batch schemaVersion) := by
  unfold IngestionTables.createBatch
  refine (raises_require (by trivial)).bind fun _ _ => ?_
  refine (raises_require (by trivial)).bind fun _ _ => ?_
  refine (raises_require (by trivial)).bind fun _ _ => ?_
  split
  · exact raises_ok _
  · exact (raises_require (by trivial)).bind fun _ _ => raises_ok _

theorem raises_insertReceipts (rows : List (Uuid × SourceReceipt)) :
    Raises LedgerError.Expected (tables.insertReceipts rows) := by
  refine raises_foldlM fun tables p _ => ?_
  unfold IngestionTables.insertReceipt
  refine (raises_require (by trivial)).bind fun _ _ => ?_
  refine (raises_require (by trivial)).bind fun _ _ => ?_
  refine (raises_require (by trivial)).bind fun _ _ => ?_
  split
  · exact raises_ok _
  · exact (raises_require (by trivial)).bind fun _ _ => raises_ok _

/-- The status of a batch that exists can be set. -/
theorem raises_setBatchStatus {batchId : Uuid} {batch : IngestionBatch} {errorMessage : Option Text}
    (hget : tables.db.batches.get? batchId = some batch) (status : IngestionStatus) :
    Raises LedgerError.Expected (tables.setBatchStatus batchId status errorMessage) := by
  unfold IngestionTables.setBatchStatus
  refine (raises_require (by trivial)).bind fun _ _ => ?_
  refine (raises_require (by trivial)).bind fun _ _ => ?_
  rw [hget]
  exact raises_ok _

theorem raises_getBatchByDeliveryKey {deliveryKey : Text} {stored : Uuid × IngestionBatch}
    (h : tables.db.batches.items.find? (fun p => p.2.deliveryKey = deliveryKey) = some stored) :
    Raises LedgerError.Expected (tables.getBatchByDeliveryKey deliveryKey) := by
  rw [IngestionTables.getBatchByDeliveryKey, h]
  exact raises_ok stored

theorem raises_fillBatch (hreferenced : tables.db.Referenced) {deliveryKey filename : Text}
    (hfresh : tables.db.batches.get? call.batchId = none)
    (hkey : ∀ other ∈ tables.db.batches.values, other.deliveryKey ≠ deliveryKey)
    {created : IngestionTables} (hcreated : created = {
      db := { tables.db with
        batches := tables.db.batches.set call.batchId
          (call.receivedBatch platform deliveryKey filename) }
      details := tables.details.set call.batchId ⟨call.delivery.schemaVersion, none⟩ }) :
    Raises LedgerError.Expected (call.fillBatch platform created deliveryKey
      (call.batchId, call.receivedBatch platform deliveryKey filename) true) := by
  have hget : created.db.batches.get? call.batchId =
      some (call.receivedBatch platform deliveryKey filename) := by
    rw [hcreated, PyDict.get?_set, if_pos rfl]
  unfold LedgerCall.fillBatch
  rw [if_pos rfl]
  refine (raises_mapM fun row _ => raises_prepareReceipt row).bind fun rows hrows => ?_
  refine (raises_reach call .insertReceipts).bind fun _ _ => ?_
  refine (raises_insertReceipts rows).bind fun inserted hinsert => ?_
  obtain ⟨receipts, -, rfl⟩ := insertReceipts_eq_ok (prepareReceipts_batchId hrows)
    (prepareReceipts_rowNumbers hrows ▸ List.nodup_range' ..) (fun r hr hid => by
      rw [hcreated] at hr
      obtain ⟨p, hp, rfl⟩ := List.mem_map.mp hr
      exact absurd hid (hreferenced.ne_of_fresh hfresh hp)) hinsert
  refine (raises_reach call .setStatus).bind fun _ _ => ?_
  have hgetInserted : ({ created with
      db := { created.db with receipts := receipts } } : IngestionTables).db.batches.get?
        call.batchId = some (call.receivedBatch platform deliveryKey filename) := hget
  refine (raises_setBatchStatus hgetInserted _).bind fun updated hupdate => ?_
  obtain rfl := setBatchStatus_eq_ok hgetInserted hupdate
  have hfound := find?_deliveryKey (created.db.batches.set call.batchId
    (call.recordedBatch platform deliveryKey filename)) _ (by rw [PyDict.get?_set, if_pos rfl]) rfl (by
      rw [hcreated, PyDict.set_set]
      exact onlyBatch_of_fresh hfresh hkey _)
  exact (raises_getBatchByDeliveryKey hfound).bind fun stored _ => raises_ok _

/-- A call blames the tables only if a batch in them has lost a receipt. -/
theorem transaction_expected (hreferenced : tables.db.Referenced)
    (hconserved : ∀ p ∈ tables.db.batches.items,
      ((tables.receiptCounts p.1).total : ℤ) = p.2.observedRowCount) :
    Raises LedgerError.Expected (call.transaction platform tables) := by
  have hkeyRaises : Raises LedgerError.Expected (calculateDeliveryKey platform call.delivery) :=
    (raises_normalizeFilename _).bind fun _ _ => raises_orRaise trivial
  refine hkeyRaises.bind fun deliveryKey hkey => ?_
  refine (raises_reach call .connect).bind fun _ _ => ?_
  refine (raises_normalizeFilename _).bind fun filename hfilename => ?_
  refine (raises_reach call .createBatch).bind fun _ _ => ?_
  refine raises_createBatch.bind fun ⟨created, inserted⟩ hcreate => ?_
  refine (raises_reach call .findBatch).bind fun _ _ => ?_
  obtain ⟨rfl, rfl, other, hother, hsame⟩ | ⟨rfl, hfreshKey, hfresh, hcreated⟩ :=
    createBatch_eq_ok hcreate
  · -- A batch with the key is found, and it has its receipts.
    obtain ⟨p, hp, rfl⟩ := List.mem_map.mp hother
    obtain ⟨stored, hfound⟩ : ∃ stored, created.db.batches.items.find?
        (fun p => p.2.deliveryKey = deliveryKey) = some stored := by
      refine Option.isSome_iff_exists.mp (List.find?_isSome.mpr ⟨p, hp, ?_⟩)
      exact decide_eq_true hsame
    refine (raises_getBatchByDeliveryKey hfound).bind fun found hget => ?_
    rw [IngestionTables.getBatchByDeliveryKey, hfound] at hget
    obtain rfl := Except.ok.inj hget
    refine (raises_reach call .countReceipts).bind fun _ _ => ?_
    have htotal := hconserved stored (List.mem_of_find?_eq_some hfound)
    exact (raises_require_of htotal).bind fun _ _ => raises_ok _
  · have hfound := find?_deliveryKey created.db.batches
      (call.receivedBatch platform deliveryKey filename)
      (by rw [hcreated, PyDict.get?_set, if_pos rfl]) rfl
      (by rw [hcreated]; exact onlyBatch_of_fresh hfresh hfreshKey _)
    refine (raises_getBatchByDeliveryKey hfound).bind fun found hget => ?_
    rw [IngestionTables.getBatchByDeliveryKey, hfound] at hget
    obtain rfl := Except.ok.inj hget
    refine (raises_fillBatch hreferenced hfresh hfreshKey hcreated).bind fun filled hfill => ?_
    obtain ⟨tables', stored⟩ := filled
    obtain ⟨rfl, rows, hrows, -, hreceipts, -, -⟩ :=
      fillBatch_eq_ok hreferenced hfresh hfreshKey hcreated hfill
    refine (raises_reach call .countReceipts).bind fun _ _ => ?_
    obtain ⟨htotal, -, -⟩ := counts_of_rows hrows (receiptsOf_recorded hreferenced hfresh
      (prepareReceipts_batchId hrows) hreceipts)
    exact (raises_require_of (congrArg Nat.cast htotal)).bind fun _ _ => raises_ok _

end

end Threadline
