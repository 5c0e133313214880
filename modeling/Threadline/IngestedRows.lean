import Threadline.ResolvedEntities

/-!
# Ingested rows

The rows of a delivery as they are stored: each adds one receipt, in quarantine
or with its record version, and afterwards every entity is resolved again.
-/

open PyText PyJson PyCalendar PySorted PyExcept

namespace Threadline

namespace IngestionCall

variable (platform : Platform) (call : IngestionCall) (delivery : VerifiedDelivery)

/-- The receipt of a row, where none of its values raises. -/
def storedRow (row : Payload × ℕ) : Option (Uuid × SourceReceipt) :=
  match parseSourceRecord platform.iso row.1 (.member delivery.entityType) with
  | .error (.contract violation) =>
    (documentFingerprint platform.sha256 (.obj row.1.items)).map fun payloadHash =>
      (call.receiptId row.2, call.quarantinedReceipt delivery row.2 row.1
        (quarantineFromViolation (.member delivery.entityType) row.1 violation) payloadHash)
  | .error .overflow => none
  | .ok record =>
    (RecordEnvelope.make? platform.sha256 (call.receiptId row.2) record).toOption.map fun envelope =>
      (call.receiptId row.2,
        call.pendingReceipt delivery row.2 row.1 record envelope.payloadHash)

/-- The ID of the entity that a stored row touches. -/
def touchedBy (p : Uuid × SourceReceipt) : List Text :=
  (p.2.recordVersion.map VersionKey.sourceId).toList

end IngestionCall

section

variable {platform : Platform} {call : IngestionCall} {delivery : VerifiedDelivery}

/-- The server takes the columns of a receipt. -/
structure Insertable (receipt : SourceReceipt) : Prop where
  length : ∀ id ∈ receipt.sourceId, id.length ≤ sourceIdLength
  sourceId : ∀ id ∈ receipt.sourceId, storableText id
  rawPayload : storableJson receipt.rawPayload
  sourceVersion : ∀ version ∈ receipt.sourceVersion, version ≤ (integerMax : ℤ)

theorem insertReceipt_eq_ok {db db' : Database} {receiptId : Uuid} {receipt : SourceReceipt} :
    db.insertReceipt receiptId receipt = .ok db' ↔
      db.receipts.get? receiptId = none ∧
      (∀ r ∈ db.receipts.values, ¬ (r.batchId = receipt.batchId ∧ r.rowNumber = receipt.rowNumber)) ∧
      Insertable receipt ∧ db' = { db with receipts := db.receipts.set receiptId receipt } := by
  have hall : ∀ {α : Type} {o : Option α} {p : α → Bool}, o.all p = true ↔ ∀ a ∈ o, p a := by
    intro α o p
    cases o <;> simp
  simp only [Database.insertReceipt, bind_eq_ok, require_eq_ok, hall, decide_eq_true_eq]
  constructor
  · rintro ⟨-, ⟨hfresh, hclash⟩, -, hlength, -, ⟨hid, hpayload⟩, -, hversion, h⟩
    exact ⟨hfresh, hclash, ⟨hlength, hid, hpayload, hversion⟩, (Except.ok.inj h).symm⟩
  · rintro ⟨hfresh, hclash, ⟨hlength, hid, hpayload, hversion⟩, rfl⟩
    exact ⟨⟨⟩, ⟨hfresh, hclash⟩, ⟨⟩, hlength, ⟨⟩, ⟨hid, hpayload⟩, ⟨⟩, hversion, rfl⟩

theorem insertVersion_eq (db : Database) (key : VersionKey) (version : SourceRecordVersion) :
    ∃ versions, db.insertVersion key version = { db with versions := versions } ∧
      ∀ k, (versions.get? k).isSome ↔ (db.versions.get? k).isSome ∨ key = k := by
  unfold Database.insertVersion
  split
  next v hv =>
    refine ⟨db.versions, rfl, fun k => ⟨.inl, ?_⟩⟩
    rintro (h | rfl)
    · exact h
    · rw [hv]
      rfl
  next hv =>
    refine ⟨_, rfl, fun k => ?_⟩
    rw [PyDict.get?_set]
    split_ifs with hk <;> simp [hk]

/-- What a turn of the loop over the rows stores. -/
theorem receiveRow_eq_ok {db : Database} {touched : List Text} {row : Payload × ℕ}
    {state' : Database × List Text}
    (h : call.receiveRow platform delivery (db, touched) row = .ok state') :
    ∃ p versions, call.storedRow platform delivery row = some p ∧
      db.receipts.get? p.1 = none ∧ Insertable p.2 ∧
      (∀ key, (versions.get? key).isSome ↔
        (db.versions.get? key).isSome ∨ p.2.recordVersion = some key) ∧
      state' = ({ db with receipts := db.receipts.set p.1 p.2, versions := versions },
        touched ++ IngestionCall.touchedBy p) := by
  unfold IngestionCall.receiveRow at h
  obtain ⟨-, -, h⟩ := bind_eq_ok.mp h
  unfold IngestionCall.storedRow
  split at h
  next violation hparse =>
    simp only [bind_eq_ok, orRaise_eq_ok, insertReceipt_eq_ok] at h
    obtain ⟨payloadHash, hhash, db₁, ⟨hfresh, -, hinsertable, rfl⟩, h⟩ := h
    obtain rfl := Except.ok.inj h
    refine ⟨(call.receiptId row.2, call.quarantinedReceipt delivery row.2 row.1
        (quarantineFromViolation (.member delivery.entityType) row.1 violation) payloadHash),
      db.versions, ?_, hfresh, hinsertable, ?_, ?_⟩
    · simp only [hparse, hhash, Option.map_some]
    · intro key
      simp [IngestionCall.quarantinedReceipt]
    · simp [IngestionCall.touchedBy, IngestionCall.quarantinedReceipt]
  · cases h
  next record hparse =>
    simp only [bind_eq_ok, mapError_eq_ok, insertReceipt_eq_ok] at h
    obtain ⟨envelope, henvelope, db₁, ⟨hfresh, -, hinsertable, rfl⟩, h⟩ := h
    obtain rfl := Except.ok.inj h
    obtain ⟨versions, hdb, hversions⟩ := insertVersion_eq
      { db with
        receipts := db.receipts.set (call.receiptId row.2)
          (call.pendingReceipt delivery row.2 row.1 record envelope.payloadHash) }
      ⟨delivery.entityType.value, record.recordId, record.sourceVersion, envelope.payloadHash⟩
      ⟨call.batchId, call.receiptId row.2⟩
    refine ⟨(call.receiptId row.2, call.pendingReceipt delivery row.2 row.1 record
        envelope.payloadHash), versions, ?_, hfresh, hinsertable, ?_, ?_⟩
    · simp only [hparse, henvelope, Except.toOption, Option.map_some]
    · intro key
      simp only [hversions key, IngestionCall.pendingReceipt, Option.some.injEq]
    · rw [hdb]
      simp [IngestionCall.touchedBy, IngestionCall.pendingReceipt]

theorem make?_eq_ok {sha256 : Bytes → Text} {receiptId : Text} {record : FinancialRecord}
    {envelope : RecordEnvelope sha256}
    (h : RecordEnvelope.make? sha256 receiptId record = .ok envelope) :
    envelope.receiptId = receiptId ∧ envelope.record = record := by
  unfold RecordEnvelope.make? at h
  split at h
  · split at h
    · obtain rfl := Except.ok.inj h
      exact ⟨rfl, rfl⟩
    · cases h
  · cases h

/-- A stored row is in quarantine, or holds a record. -/
theorem storedRow_spec {row : Payload × ℕ} {p : Uuid × SourceReceipt}
    (h : call.storedRow platform delivery row = some p) :
    p.1 = call.receiptId row.2 ∧ p.2.batchId = call.batchId ∧
      (Rejected p.2 ∨ p.2.disposition ≠ .quarantined ∧ ∃ record, Holds platform p.1 p.2 record) ∧
      ∀ key ∈ p.2.recordVersion, key.entityType = delivery.entityType.value := by
  unfold IngestionCall.storedRow at h
  split at h
  next violation hparse =>
    obtain ⟨payloadHash, hhash, rfl⟩ := Option.map_eq_some_iff.mp h
    refine ⟨rfl, rfl, .inl ⟨rfl, rfl, ?_⟩, by simp [IngestionCall.quarantinedReceipt]⟩
    obtain ⟨bytes, hbytes, -⟩ := Option.map_eq_some_iff.mp hhash
    obtain ⟨text, htext, -⟩ := Option.bind_eq_some_iff.mp hbytes
    have htype : entityTypeOf delivery.entityType.value = some delivery.entityType :=
      entityTypeOf_eq_some.mpr rfl
    have hcode := coded_parseSourceRecord _ violation hparse
    simp only [makeQuarantine, IngestionCall.quarantinedReceipt, quarantineFromViolation, if_neg hcode,
      Option.bind_some, htype, htext, Except.ok.injEq, exists_eq']
  · cases h
  next record hparse =>
    obtain ⟨envelope, henvelope, rfl⟩ := Option.map_eq_some_iff.mp h
    obtain ⟨hid, hrecord⟩ := make?_eq_ok (toOption_eq_some.mp henvelope)
    have htype := entityType_of_recordParser hparse
    refine ⟨rfl, rfl, .inr ⟨by simp [IngestionCall.pendingReceipt], record, ?_⟩, ?_⟩
    · refine ⟨by simp [IngestionCall.pendingReceipt, htype], rfl, rfl, ?_, ?_, ⟨row.1, rfl, ?_⟩, ?_, ?_⟩
      · exact hrecord ▸ envelope.payloadHash_eq
      · simp [IngestionCall.pendingReceipt, htype]
      · rw [htype]
        exact hparse
      · exact hid ▸ envelope.receiptId_ne_nil
      · exact hid ▸ envelope.receiptId_strip
    · rintro key hkey
      obtain rfl := Option.some.inj hkey
      rfl

/-! ## The loop over the rows -/

/-- What the loop has done when it has stored some rows. -/
structure Receives (platform : Platform) (call : IngestionCall) (delivery : VerifiedDelivery)
    (db : Database) (rows : List (Uuid × SourceReceipt)) (state : Database × List Text) : Prop where
  ledger : Ledger platform state.1
  receipts : state.1.receipts.items = db.receipts.items ++ rows
  touched : state.2 = rows.flatMap IngestionCall.touchedBy
  fits : ∀ p ∈ rows, ∀ key ∈ p.2.recordVersion, key.entityType = delivery.entityType.value
  others : ∃ receipts versions,
    state.1 = { db with receipts := receipts, versions := versions }

/-- A row that fits the batch keeps the invariant. -/
theorem Ledger.receive {db : Database} (h : Ledger platform db) {p : Uuid × SourceReceipt}
    {versions : PyDict VersionKey SourceRecordVersion} (hfresh : db.receipts.get? p.1 = none)
    (hcounted : db.Counted p.2.batchId)
    (hrow : Rejected p.2 ∨
      p.2.disposition ≠ .quarantined ∧ ∃ record, Holds platform p.1 p.2 record)
    (hversions : ∀ key, (versions.get? key).isSome ↔
      (db.versions.get? key).isSome ∨ p.2.recordVersion = some key) :
    Ledger platform { db with receipts := db.receipts.set p.1 p.2, versions := versions } := by
  have hitems : ∀ q, q ∈ (db.receipts.set p.1 p.2).items ↔ q ∈ db.receipts.items ∨ q = p := by
    intro q
    rw [PyDict.items_set_of_get?_none hfresh, List.mem_append, List.mem_singleton]
  refine ⟨fun q hq => ?_, fun q hq => ?_, fun key => ?_⟩
  · rcases (hitems q).mp hq with hq | rfl
    · exact h.counted q hq
    · exact hcounted
  · rcases (hitems q).mp hq with hq | rfl
    · exact h.receipts q hq
    · exact hrow
  · simp only [hversions, h.versions, hitems, or_and_right, exists_or, exists_eq_left]

/-- The loop over the rows stores each row once, with what it touches. -/
theorem Ledger.receiveRows {db : Database} (h : Ledger platform db)
    (hcounted : db.Counted call.batchId) {rows : List (Payload × ℕ)} {state : Database × List Text}
    (hrows : rows.foldlM (call.receiveRow platform delivery) (db, []) = .ok state) :
    ∃ stored, rows.mapM (call.storedRow platform delivery) = some stored ∧
      Receives platform call delivery db stored state := by
  induction rows using List.reverseRecOn generalizing state with
  | nil =>
    obtain rfl := Except.ok.inj hrows
    exact ⟨[], rfl, h, by simp, rfl, by simp, db.receipts, db.versions, rfl⟩
  | append_singleton rows row ih =>
    obtain ⟨⟨before, touched⟩, hbefore, hrow⟩ := foldlM_concat_eq_ok.mp hrows
    obtain ⟨stored, hstored, hreceives⟩ := ih hbefore
    obtain ⟨p, versions, hp, hfresh, -, hversions, rfl⟩ := receiveRow_eq_ok hrow
    obtain ⟨receipts, versions', hother⟩ := hreceives.others
    obtain ⟨-, hbatch, hkind, hfits⟩ := storedRow_spec hp
    have hcounted' : before.Counted p.2.batchId := by
      rw [hbatch]
      simp only at hother
      rw [hother]
      exact hcounted
    refine ⟨stored ++ [p], ?_, hreceives.ledger.receive hfresh hcounted' hkind hversions, ?_, ?_, ?_,
      before.receipts.set p.1 p.2, versions, ?_⟩
    · rw [List.mapM_append, hstored]
      simp [hp]
    · simp only [PyDict.items_set_of_get?_none hfresh]
      rw [hreceives.receipts, List.append_assoc]
    · simp only [List.flatMap_append, List.flatMap_singleton]
      rw [← hreceives.touched]
    · intro q hq
      rcases List.mem_append.mp hq with hq | hq
      · exact hreceives.fits q hq
      · obtain rfl := List.mem_singleton.mp hq
        exact hfits
    · simp only at hother
      rw [hother]

/-- The rows leave the receipts of the entities they do not touch alone. -/
theorem Receives.entityReceipts_eq {db : Database} {rows : List (Uuid × SourceReceipt)}
    {state : Database × List Text} (h : Receives platform call delivery db rows state) {a b : Text}
    (hn : ¬ (a = delivery.entityType.value ∧ b ∈ state.2)) :
    state.1.entityReceipts a b = db.entityReceipts a b := by
  have hnone : (rows.filter fun p => decide (p.2.recordVersion.isSome ∧ p.2.entityType = some a ∧
      p.2.sourceId = some b)) = [] := by
    refine List.filter_eq_nil_iff.mpr fun p hp hmatch => hn ?_
    have hmem : p ∈ state.1.entityReceipts a b :=
      mem_entityReceipts.mpr ⟨h.receipts ▸ List.mem_append_right _ hp, of_decide_eq_true hmatch⟩
    obtain ⟨-, record, hholds, rfl, rfl⟩ := h.ledger.holds hmem
    refine ⟨h.fits p hp _ hholds.recordVersion, ?_⟩
    rw [h.touched]
    refine List.mem_flatMap.mpr ⟨p, hp, ?_⟩
    simp [IngestionCall.touchedBy, hholds.recordVersion]
  unfold Database.entityReceipts
  rw [h.receipts, List.filter_append, hnone, List.append_nil]

/-- Storing the rows of a delivery and resolving what they touch. -/
theorem Ledger.receiveRows_ok {db db' : Database} (h : Ledger platform db) (hresolved : Resolved db)
    (hcounted : db.Counted call.batchId)
    (hrows : call.receiveRows platform delivery db = .ok db') :
    ∃ stored, (delivery.records.zipIdx 1).mapM (call.storedRow platform delivery) = some stored ∧
      Ledger platform db' ∧ Resolved db' ∧
      db'.receipts.items.map coreRow = (db.receipts.items ++ stored).map coreRow ∧
      ∃ receipts versions resolutions,
        db' = { db with receipts := receipts, versions := versions, resolutions := resolutions } := by
  obtain ⟨⟨before, touched⟩, hloop, hrows⟩ := bind_eq_ok.mp hrows
  obtain ⟨-, -, hresolve⟩ := bind_eq_ok.mp hrows
  obtain ⟨stored, hstored, hreceives⟩ := h.receiveRows hcounted hloop
  obtain ⟨hledger, htouched, hothers, hcore, resolutions, receipts', rfl⟩ :=
    hreceives.ledger.resolveEntities hresolve
  obtain ⟨receipts, versions, hbefore⟩ := hreceives.others
  obtain rfl : before = { db with receipts := receipts, versions := versions } := hbefore
  refine ⟨stored, hstored, hledger, fun a b => ?_, ?_, receipts', versions, resolutions, rfl⟩
  · by_cases hmem : a = delivery.entityType.value ∧ b ∈ touched
    · obtain ⟨rfl, hb⟩ := hmem
      exact htouched b (mem_sortedSet.mpr hb)
    · -- The entity was resolved before, and neither its receipts nor its row have changed.
      obtain ⟨hreceipts, hrow⟩ := hothers a b (by simpa only [mem_sortedSet] using hmem)
      rw [hreceipts, hrow, hreceives.entityReceipts_eq hmem]
      exact hresolved a b
  · rw [hcore, hreceives.receipts]

end

end Threadline
