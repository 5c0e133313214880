import Threadline.ResolutionRefinement
import Threadline.RetainedDeliveries

/-!
# Delivered records

The records of the rows that committed ingestions have stored. A rebuild reads
these records and no others, and finds the variant of each.
-/

open PyText PyJson PyCalendar PySorted PyExcept Runs

namespace Threadline

/-! ## Records of rows -/

section

variable (platform : Platform)

/-- The records that the rows of a delivery hold. -/
def VerifiedDelivery.rowRecords (delivery : VerifiedDelivery) : List FinancialRecord :=
  delivery.records.filterMap fun payload =>
    (parseSourceRecord platform.iso payload (.member delivery.entityType)).toOption

/-- `deliver`: the records that an event adds to the inputs of the oracle. A delivery that was
ingested before adds none. -/
def Database.delivers (db : Database) : DatabaseEvent → List FinancialRecord
  | .ingest call =>
    match call.committed? platform db, verifyDelivery platform call.file with
    | some outcome, .ok delivery =>
      if outcome.reusedExistingBatch then [] else delivery.rowRecords platform
    | _, _ => []
  | .runNext .. => []
  | .recordFailure .. => []
  | .requeueFailed .. => []

/-- The inputs of the oracle after some events. -/
def oracleInputs (events : List DatabaseEvent) : List FinancialRecord :=
  observed (Database.step platform) (Database.delivers platform) ∅ events

end

section

variable {platform : Platform} {db db' : Database} {call : IngestionCall}
  {delivery : VerifiedDelivery} {deliveryKey : Text} {stored : List (Uuid × SourceReceipt)}
  {r : FinancialRecord}

theorem holds_coreRow {p : Uuid × SourceReceipt} :
    Holds platform (coreRow p).1 (coreRow p).2 r ↔ Holds platform p.1 p.2 r := by
  unfold coreRow
  dsimp only
  split_ifs
  · exact Iff.rfl
  · exact ⟨fun h => ⟨h.entityType, h.sourceId, h.sourceVersion, h.payloadHash, h.recordVersion,
      h.payload, h.idNonempty, h.idStripped⟩,
      fun h => ⟨h.entityType, h.sourceId, h.sourceVersion, h.payloadHash, h.recordVersion,
      h.payload, h.idNonempty, h.idStripped⟩⟩

/-- The receipt of a row holds the record that the row parses to. -/
theorem storedRow_holds {row : Payload × ℕ} {p : Uuid × SourceReceipt}
    (h : call.storedRow platform delivery row = some p) :
    Holds platform p.1 p.2 r ↔
      parseSourceRecord platform.iso row.1 (.member delivery.entityType) = .ok r := by
  obtain ⟨-, -, hkind, -⟩ := storedRow_spec h
  unfold IngestionCall.storedRow at h
  split at h
  next violation hparse =>
    obtain ⟨payloadHash, -, rfl⟩ := Option.map_eq_some_iff.mp h
    refine iff_of_false (fun hholds => ?_) (by rw [hparse]; exact fun h => nomatch h)
    cases hholds.recordVersion
  · cases h
  next record hparse =>
    obtain ⟨envelope, -, rfl⟩ := Option.map_eq_some_iff.mp h
    have hholds : Holds platform (call.receiptId row.2) (call.pendingReceipt delivery row.2 row.1 record
        envelope.payloadHash) record := by
      obtain hrejected | ⟨-, record', hholds⟩ := hkind
      · cases hrejected.disposition
      · obtain ⟨payload, hpayload, hparse'⟩ := hholds.payload
        obtain rfl : row.1 = payload := PyDict.items_injective (Json.obj.inj hpayload)
        have htype : delivery.entityType = record'.entityType :=
          EntityType.value_injective (Option.some.inj hholds.entityType)
        rw [← htype, hparse] at hparse'
        obtain rfl := Except.ok.inj hparse'
        exact hholds
    rw [hparse]
    constructor
    · intro h
      rw [hholds.unique h]
    · intro h
      exact Except.ok.inj h ▸ hholds

theorem mem_rowRecords : r ∈ delivery.rowRecords platform ↔ ∃ payload ∈ delivery.records,
    parseSourceRecord platform.iso payload (.member delivery.entityType) = .ok r := by
  simp only [VerifiedDelivery.rowRecords, List.mem_filterMap, toOption_eq_some]

/-- The stored rows of a delivery hold its records. -/
theorem stored_holds
    (h : (delivery.records.zipIdx 1).mapM (call.storedRow platform delivery) = some stored) :
    (∃ p ∈ stored, Holds platform p.1 p.2 r) ↔ r ∈ delivery.rowRecords platform := by
  rw [mem_rowRecords, ← List.zipIdx_map_fst 1 delivery.records]
  constructor
  · rintro ⟨p, hp, hholds⟩
    obtain ⟨row, hrow, hstored⟩ := (mem_of_mapM_eq_some h).mp hp
    exact ⟨row.1, List.mem_map_of_mem hrow, (storedRow_holds hstored).mp hholds⟩
  · rintro ⟨payload, hpayload, hparse⟩
    obtain ⟨row, hrow, rfl⟩ := List.mem_map.mp hpayload
    obtain ⟨p, hp, hstored⟩ := exists_of_mapM_eq_some h hrow
    exact ⟨p, hp, (storedRow_holds hstored).mpr hparse⟩

/-- The records of a delivery come from its source system. -/
theorem VerifiedDelivery.sourceSystem_of_record (delivery : VerifiedDelivery)
    (h : r.entityType = delivery.entityType) : r.sourceSystem = delivery.sourceSystem := by
  rw [r.sourceSystem_eq, h, delivery.entityType_eq, delivery.sourceSystem_eq]
  cases delivery.reportType <;> rfl

/-! ## Runs -/

/-- The receipts hold the records, and their batches name the systems that the records come
from. -/
structure Delivering (platform : Platform) (db : Database) (records : List FinancialRecord) :
    Prop where
  settled : Settled platform db
  records : ∀ r, r ∈ records ↔ ∃ p ∈ db.receipts.items, Holds platform p.1 p.2 r
  sources : ∀ p ∈ db.receipts.items, ∀ r, Holds platform p.1 p.2 r →
    ∃ batch, db.batches.get? p.2.batchId = some batch ∧ batch.sourceSystem = r.sourceSystem.value

variable {records : List FinancialRecord}

theorem delivering_empty : Delivering platform ∅ [] where
  settled := settled_empty
  records _ := iff_of_false List.not_mem_nil fun ⟨_, h, _⟩ => nomatch h
  sources _ h := nomatch h

/-- The receipts after an ingestion are those of before and those of its rows. -/
theorem Ingested.exists_receipt (h : Ingested platform call db db' delivery deliveryKey stored)
    {P : Uuid × SourceReceipt → Prop} (hP : ∀ p, P (coreRow p) ↔ P p) :
    (∃ p ∈ db'.receipts.items, P p) ↔ (∃ p ∈ db.receipts.items, P p) ∨ ∃ p ∈ stored, P p := by
  have hcore : ∀ receipts : List (Uuid × SourceReceipt),
      (∃ p ∈ receipts, P p) ↔ ∃ p ∈ receipts.map coreRow, P p := by
    intro receipts
    constructor
    · rintro ⟨p, hp, h⟩
      exact ⟨coreRow p, List.mem_map_of_mem hp, (hP p).mpr h⟩
    · rintro ⟨_, hp, h⟩
      obtain ⟨p, hmem, rfl⟩ := List.mem_map.mp hp
      exact ⟨p, hmem, (hP p).mp h⟩
  rw [hcore, h.receipts, ← hcore]
  simp only [List.mem_append, or_and_right, exists_or]

/-- An ingestion adds the records of its delivery. -/
theorem Delivering.ingested (h : Delivering platform db records)
    (hingested : Ingested platform call db db' delivery deliveryKey stored)
    (hsettled : Settled platform db') :
    Delivering platform db' (records ++ delivery.rowRecords platform) where
  settled := hsettled
  records r := by
    rw [List.mem_append, h.records, ← stored_holds hingested.rows]
    exact (hingested.exists_receipt fun p => holds_coreRow).symm
  sources p hp r hr := by
    let Like : Uuid × SourceReceipt → Prop := fun q =>
      Holds platform q.1 q.2 r ∧ q.2.batchId = p.2.batchId
    have hlike : ∀ q, Like (coreRow q) ↔ Like q := fun q => by
      simp only [Like, holds_coreRow, coreRow_batchId]
    -- The receipt was there before, or belongs to the new batch.
    obtain ⟨q, hq, hholds, hid⟩ | ⟨q, hq, hholds, hid⟩ :=
      (hingested.exists_receipt hlike).mp ⟨p, hp, hr, rfl⟩
    · obtain ⟨batch, hget, hsystem⟩ := h.sources q hq r hholds
      refine ⟨batch, ?_, hsystem⟩
      rw [hingested.batches, ← hid, PyDict.get?_set, if_neg, hget]
      intro hnew
      rw [← hnew, hingested.freshBatch] at hget
      cases hget
    · obtain ⟨row, -, hstored⟩ := (mem_of_mapM_eq_some hingested.rows).mp hq
      obtain ⟨-, hbatch, -, -⟩ := storedRow_spec hstored
      refine ⟨{ call.processingBatch platform delivery deliveryKey with
        ingestionStatus := .committed }, ?_, ?_⟩
      · rw [hingested.batches, PyDict.get?_set, if_pos (hbatch.symm.trans hid)]
      · have htype := entityType_of_recordParser ((storedRow_holds hstored).mp hholds)
        rw [delivery.sourceSystem_of_record htype]
        rfl

theorem Delivering.setPublication (h : Delivering platform db records)
    (publication : PublicationState) :
    Delivering platform { db with publication := publication } records :=
  ⟨h.settled.setPublication publication, h.records, h.sources⟩

theorem Delivering.step (h : Delivering platform db records) (event : DatabaseEvent) :
    Delivering platform (db.step platform event) (records ++ db.delivers platform event) := by
  cases event with
  | ingest call =>
    have hsettled := h.settled.step (.ingest call)
    unfold Database.delivers
    dsimp only
    cases hcommitted : call.committed? platform db with
    | none =>
      obtain ⟨error, hsame⟩ := ingestSourceFile_of_not_committed hcommitted
      rw [Database.step, hsame, List.append_nil]
      exact h
    | some outcome =>
      obtain ⟨hreused, hsame⟩ | ⟨rfl, delivery, deliveryKey, stored, hingested, -⟩ :=
        h.settled.commit hcommitted
      · rw [Database.step, hsame]
        cases verifyDelivery platform call.file <;> simpa [hreused] using h
      · rw [hingested.verified]
        exact h.ingested hingested hsettled
  | runNext call =>
    rw [Database.delivers, List.append_nil]
    exact h.setPublication _
  | recordFailure requestId error now done =>
    rw [Database.delivers, List.append_nil]
    exact h.setPublication _
  | requeueFailed requestId additionalAttempts now =>
    rw [Database.delivers, List.append_nil]
    exact h.setPublication _

/-- After any events the receipts hold the inputs of the oracle. -/
theorem delivering_after (events : List DatabaseEvent) :
    Delivering platform (Database.after platform events) (oracleInputs platform events) :=
  observed_invariant (fun _ _ event h => h.step event) delivering_empty events

/-! ## Rebuilds -/

variable {quarantine : List QuarantinedRecord} {envelopes : List (RecordEnvelope platform.sha256)}

/-- The envelopes of a rebuild hold the delivered records. -/
theorem Delivering.exists_envelope (h : Delivering platform db records)
    (hrebuilt : db.rebuildReceipts platform = .ok (quarantine, envelopes)) :
    (∃ e ∈ envelopes, e.record = r) ↔ r ∈ records := by
  rw [h.records]
  constructor
  · rintro ⟨e, he, rfl⟩
    obtain ⟨p, hp, -, henvelops⟩ := (h.settled.mem_envelopes hrebuilt).mp he
    exact ⟨p, hp, henvelops.holds⟩
  · rintro ⟨p, hp, hholds⟩
    have hdisposition : p.2.disposition ≠ .quarantined := by
      obtain hrejected | ⟨hdisposition, -⟩ := h.settled.ledger.receipts p hp
      · have hversion := hholds.recordVersion
        rw [hrejected.recordVersion] at hversion
        cases hversion
      · exact hdisposition
    obtain ⟨e, -, henvelops⟩ := hholds.rebuilds
    exact ⟨e, (h.settled.mem_envelopes hrebuilt).mpr ⟨p, hp, hdisposition, henvelops⟩,
      henvelops.holds.unique hholds⟩

/-- The stored variant of a receipt is that of its envelope. -/
theorem Delivering.storedVariant (h : Delivering platform db records) {p : Uuid × SourceReceipt}
    (hp : p ∈ db.receipts.items) {e : RecordEnvelope platform.sha256} (he : Envelops p e) :
    db.storedVariant p = .ok (sourceVariant e) := by
  obtain ⟨batch, hbatch, hsystem⟩ := h.sources p hp e.record he.holds
  have htype : p.2.entityType.bind entityTypeOf = some e.record.entityType := by
    rw [he.holds.entityType, Option.bind_some]
    exact entityTypeOf_eq_some.mpr rfl
  unfold Database.storedVariant
  rw [hbatch, Option.map_some]
  simp only [hsystem, sourceSystemOf_value, htype, he.holds.sourceId, he.holds.sourceVersion,
    sourceVariant, he.receiptId, he.payloadHash]
  rfl

end

end Threadline
