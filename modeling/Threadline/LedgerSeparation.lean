import Threadline.IngestionLedger
import Threadline.ResolutionRefinement

/-!
# The ledger apart from the durable path

The batches that `IngestionLedgerService` records have no record versions and are
never committed. An ingestion does the same with them as without, and leaves them
as they are.
-/

open PyText PyJson PyCalendar PySorted PyExcept Runs

namespace Threadline

namespace Database

variable (db : Database) (ids : List Uuid)

/-- The database without some batches and their receipts. -/
def without : Database :=
  { db with
    batches := db.batches.filter fun id _ => decide (id ∉ ids)
    receipts := db.receipts.filter fun _ receipt => decide (receipt.batchId ∉ ids) }

/-- The receipts of some batches. -/
def receiptsIn : PyDict Uuid SourceReceipt :=
  db.receipts.filter fun _ receipt => decide (receipt.batchId ∈ ids)

/-- The batches play no part in a resolution. -/
structure Inert : Prop where
  listed : ∀ id ∈ ids, ∃ batch, db.batches.get? id = some batch ∧ batch.ingestionStatus ≠ .committed
  unresolved : ∀ p ∈ (db.receiptsIn ids).items, p.2.recordVersion = none

end Database

/-- The batches and their receipts are the same. -/
structure Undisturbed (ids : List Uuid) (db db' : Database) : Prop where
  batches : ∀ id ∈ ids, db'.batches.get? id = db.batches.get? id
  receipts : db'.receiptsIn ids = db.receiptsIn ids

section

variable {platform : Platform} {call : IngestionCall} {delivery : VerifiedDelivery}
  {db db' db'' : Database} {ids : List Uuid}

theorem Undisturbed.refl (ids : List Uuid) (db : Database) : Undisturbed ids db db :=
  ⟨fun _ _ => rfl, rfl⟩

theorem Undisturbed.trans (h : Undisturbed ids db db') (h' : Undisturbed ids db' db'') :
    Undisturbed ids db db'' :=
  ⟨fun id hid => (h'.batches id hid).trans (h.batches id hid), h'.receipts.trans h.receipts⟩

theorem Undisturbed.inert (h : Undisturbed ids db db') (hinert : db.Inert ids) : db'.Inert ids where
  listed id hid := by
    rw [h.batches id hid]
    exact hinert.listed id hid
  unresolved := by
    rw [h.receipts]
    exact hinert.unresolved

theorem get?_without_batches (db : Database) {id : Uuid} (hid : id ∉ ids) :
    (db.without ids).batches.get? id = db.batches.get? id := by
  change (db.batches.filter _).get? id = _
  rw [PyDict.get?_filter]
  cases db.batches.get? id <;> simp [hid]

theorem mem_without_batches {p : Uuid × IngestionBatch} :
    p ∈ (db.without ids).batches.items ↔ p ∈ db.batches.items ∧ p.1 ∉ ids := by
  simp [Database.without, PyDict.filter]

theorem mem_without_receipts {p : Uuid × SourceReceipt} :
    p ∈ (db.without ids).receipts.items ↔ p ∈ db.receipts.items ∧ p.2.batchId ∉ ids := by
  simp [Database.without, PyDict.filter]

theorem get?_without_receipts_eq_none {id : Uuid} (h : db.receipts.get? id = none) :
    (db.without ids).receipts.get? id = none := by
  change (db.receipts.filter _).get? id = none
  rw [PyDict.get?_filter, h, Option.filter_none]

theorem batchStatus_without (db : Database) {id : Uuid} (hid : id ∉ ids) :
    (db.without ids).batchStatus id = db.batchStatus id :=
  congrArg (Option.map _) (get?_without_batches db hid)

/-- A fresh batch ID is none of those. -/
theorem Database.Inert.not_mem_of_fresh (h : db.Inert ids) {id : Uuid}
    (hfresh : db.batches.get? id = none) : id ∉ ids := by
  intro hid
  obtain ⟨batch, hbatch, -⟩ := h.listed id hid
  rw [hfresh] at hbatch
  cases hbatch

/-! ## Statements -/

theorem openBatch_without (hinert : db.Inert ids) {deliveryKey : Text}
    (h : call.openBatch platform delivery db deliveryKey = .ok db') :
    call.openBatch platform delivery (db.without ids) deliveryKey = .ok (db'.without ids) ∧
      Undisturbed ids db db' ∧ call.batchId ∉ ids := by
  simp only [IngestionCall.openBatch, bind_eq_ok, require_eq_ok] at h ⊢
  obtain ⟨⟨⟩, hreach, -, ⟨hfresh, hkey⟩, -, hstorable, -, hcount, -, hevidence, h⟩ := h
  obtain rfl := Except.ok.inj h
  have hid := hinert.not_mem_of_fresh hfresh
  refine ⟨⟨⟨⟩, hreach, ⟨⟩, ⟨?_, ?_⟩, ⟨⟩, hstorable, ⟨⟩, hcount, ⟨⟩, hevidence, ?_⟩, ⟨?_, rfl⟩, hid⟩
  · rw [get?_without_batches db hid, hfresh]
  · intro batch hbatch
    obtain ⟨p, hp, rfl⟩ := List.mem_map.mp hbatch
    exact hkey p.2 (List.mem_map_of_mem (mem_without_batches.mp hp).1)
  · simp [Database.without, PyDict.filter_set, hid]
  · intro id hmem
    change (db.batches.set _ _).get? id = _
    rw [PyDict.get?_set, if_neg]
    rintro rfl
    exact hid hmem

theorem insertReceipt_without {receiptId : Uuid} {receipt : SourceReceipt}
    (hid : receipt.batchId ∉ ids) (h : db.insertReceipt receiptId receipt = .ok db') :
    (db.without ids).insertReceipt receiptId receipt = .ok (db'.without ids) ∧
      Undisturbed ids db db' := by
  rw [insertReceipt_eq_ok] at h ⊢
  obtain ⟨hfresh, hclash, hinsertable, rfl⟩ := h
  refine ⟨⟨get?_without_receipts_eq_none hfresh, ?_, hinsertable, ?_⟩, ⟨fun _ _ => rfl, ?_⟩⟩
  · intro r hr
    obtain ⟨p, hp, rfl⟩ := List.mem_map.mp hr
    exact hclash p.2 (List.mem_map_of_mem (mem_without_receipts.mp hp).1)
  · simp [Database.without, PyDict.filter_set_of_get?_none hfresh, hid]
  · change (db.receipts.set _ _).filter _ = _
    rw [PyDict.filter_set_of_get?_none hfresh, if_neg (by simpa using hid)]
    rfl

theorem insertVersion_without (db : Database) (ids : List Uuid) (key : VersionKey)
    (version : SourceRecordVersion) :
    (db.without ids).insertVersion key version = (db.insertVersion key version).without ids := by
  have hversions : (db.without ids).versions = db.versions := rfl
  unfold Database.insertVersion
  rw [hversions]
  cases db.versions.get? key <;> rfl

theorem untouched_insertVersion (ids : List Uuid) (db : Database) (key : VersionKey)
    (version : SourceRecordVersion) : Undisturbed ids db (db.insertVersion key version) := by
  unfold Database.insertVersion
  split
  · exact Undisturbed.refl ids db
  · exact ⟨fun _ _ => rfl, rfl⟩

theorem receiveRow_without (hid : call.batchId ∉ ids) {touched touched' : List Text}
    {row : Payload × ℕ}
    (h : call.receiveRow platform delivery (db, touched) row = .ok (db', touched')) :
    call.receiveRow platform delivery (db.without ids, touched) row =
      .ok (db'.without ids, touched') ∧ Undisturbed ids db db' := by
  unfold IngestionCall.receiveRow at h ⊢
  obtain ⟨_, hreach, h⟩ := bind_eq_ok.mp h
  have hpass : ∀ f : Unit → Except IngestionError (Database × List Text),
      Except.ok () >>= f = f () := fun _ => rfl
  rw [hreach, hpass]
  cases hparse : parseSourceRecord platform.iso row.1 (.member delivery.entityType) with
  | error err =>
    rw [hparse] at h
    cases err with
    | contract violation =>
      simp only [bind_eq_ok, orRaise_eq_ok] at h ⊢
      obtain ⟨payloadHash, hhash, db₁, hinsert, h⟩ := h
      obtain ⟨rfl, rfl⟩ := Prod.mk.inj (Except.ok.inj h)
      obtain ⟨hinsert', hundisturbed⟩ := insertReceipt_without (by exact hid) hinsert
      exact ⟨⟨payloadHash, hhash, _, hinsert', rfl⟩, hundisturbed⟩
    | overflow => cases h
  | ok record =>
    rw [hparse] at h
    simp only [bind_eq_ok, mapError_eq_ok] at h ⊢
    obtain ⟨envelope, henvelope, db₁, hinsert, h⟩ := h
    obtain ⟨rfl, rfl⟩ := Prod.mk.inj (Except.ok.inj h)
    obtain ⟨hinsert', hundisturbed⟩ := insertReceipt_without (by exact hid) hinsert
    refine ⟨⟨envelope, henvelope, _, hinsert', ?_⟩,
      hundisturbed.trans (untouched_insertVersion ids db₁ _ _)⟩
    rw [insertVersion_without]

/-! ## Resolution -/

/-- The receipts that a resolution ranks are all elsewhere. -/
theorem rankedReceipts_without (hinert : db.Inert ids) (entityType sourceId : Text) :
    (db.without ids).rankedReceipts entityType sourceId = db.rankedReceipts entityType sourceId := by
  unfold Database.rankedReceipts
  change ((db.receipts.items.filter _).filter _) = _
  rw [List.filter_filter]
  refine List.filter_congr fun p hp => ?_
  by_cases hid : p.2.batchId ∈ ids
  · have hversion : p.2.recordVersion = none := by
      refine hinert.unresolved p ?_
      simpa [Database.receiptsIn, PyDict.filter] using ⟨hp, hid⟩
    simp [hversion]
  · simp [batchStatus_without db hid, hid]

theorem classify_without (hinert : db.Inert ids) (entityType sourceId : Text) (winningVersion : ℤ)
    (conflicted : Bool) (p : Uuid × SourceReceipt) :
    (db.without ids).classify entityType sourceId winningVersion conflicted p =
      db.classify entityType sourceId winningVersion conflicted p := by
  have hoccurrence : (db.without ids).occurrence entityType sourceId p =
      db.occurrence entityType sourceId p := by
    unfold Database.occurrence
    rw [rankedReceipts_without hinert]
    rfl
  unfold Database.classify
  rw [hoccurrence]

theorem reclassify_without (hinert : db.Inert ids) (entityType sourceId : Text)
    (winningVersion : ℤ) (conflicted : Bool) :
    (db.without ids).reclassify entityType sourceId winningVersion conflicted =
      (db.reclassify entityType sourceId winningVersion conflicted).filter
        fun _ receipt => decide (receipt.batchId ∉ ids) := by
  unfold Database.reclassify
  rw [PyDict.filter_mapItems, rankedReceipts_without hinert]
  · exact PyDict.mapItems_congr fun p _ => by rw [classify_without hinert]
  · intro receiptId receipt
    split_ifs <;> rfl

theorem receiptsIn_reclassify (hinert : db.Inert ids) (entityType sourceId : Text)
    (winningVersion : ℤ) (conflicted : Bool) :
    (db.reclassify entityType sourceId winningVersion conflicted).filter
      (fun _ receipt => decide (receipt.batchId ∈ ids)) = db.receiptsIn ids := by
  unfold Database.reclassify
  rw [PyDict.filter_mapItems]
  · apply PyDict.items_injective
    refine (List.map_congr_left fun p hp => ?_).trans (List.map_id _)
    -- A receipt without a record version is not ranked.
    have hnot : p.1 ∉ (db.rankedReceipts entityType sourceId).map Prod.fst := by
      intro hmem
      obtain ⟨q, hq, hid⟩ := List.mem_map.mp hmem
      obtain ⟨hq, hranked⟩ := List.mem_filter.mp hq
      have hsame : q = p :=
        List.inj_on_of_nodup_map db.receipts.nodup_keys hq (List.mem_filter.mp hp).1 hid
      subst hsame
      simp [hinert.unresolved q hp] at hranked
    exact congrArg (Prod.mk p.1) (if_neg hnot)
  · intro receiptId receipt
    split_ifs <;> rfl

theorem resolveEntity_without (hinert : db.Inert ids) {entityType sourceId : Text}
    (h : db.resolveEntity entityType sourceId = .ok db') :
    (db.without ids).resolveEntity entityType sourceId = .ok (db'.without ids) ∧
      Undisturbed ids db db' := by
  have hsame : (db.without ids).versionsOf entityType sourceId =
      db.versionsOf entityType sourceId := rfl
  unfold Database.resolveEntity at h ⊢
  rw [hsame]
  cases hversions : db.versionsOf entityType sourceId with
  | nil => simp [hversions] at h
  | cons winner others =>
    simp only [hversions, Except.ok.injEq] at h ⊢
    subst h
    refine ⟨?_, fun _ _ => rfl, receiptsIn_reclassify hinert _ _ _ _⟩
    rw [reclassify_without hinert]
    rfl

/-! ## The transaction -/

theorem receiveRows_without (hinert : db.Inert ids) (hid : call.batchId ∉ ids)
    (h : call.receiveRows platform delivery db = .ok db') :
    call.receiveRows platform delivery (db.without ids) = .ok (db'.without ids) ∧
      Undisturbed ids db db' := by
  simp only [IngestionCall.receiveRows, bind_eq_ok] at h ⊢
  obtain ⟨⟨received, touched⟩, hrows, ⟨⟩, hreach, hresolve⟩ := h
  obtain ⟨state, hrows', rfl, hundisturbed⟩ := foldlM_simulation
    (R := fun state state' : Database × List Text =>
      state' = (state.1.without ids, state.2) ∧ Undisturbed ids db state.1)
    (fun state state' row next hR hnext => by
      obtain ⟨rfl, hundisturbed⟩ := hR
      obtain ⟨hrow, hundisturbed'⟩ := receiveRow_without hid hnext
      exact ⟨_, hrow, rfl, hundisturbed.trans hundisturbed'⟩)
    ⟨rfl, Undisturbed.refl ids db⟩ hrows
  obtain ⟨resolved, hresolve', rfl, hundisturbed'⟩ := foldlM_simulation
    (g := fun db id => db.resolveEntity delivery.entityType.value id)
    (R := fun state state' : Database => state' = state.without ids ∧ Undisturbed ids db state)
    (fun state state' id next hR hnext => by
      obtain ⟨rfl, hundisturbed⟩ := hR
      obtain ⟨hid, hundisturbed'⟩ := resolveEntity_without (hundisturbed.inert hinert) hnext
      exact ⟨_, hid, rfl, hundisturbed.trans hundisturbed'⟩)
    ⟨rfl, hundisturbed⟩ hresolve
  exact ⟨⟨_, hrows', ⟨⟩, hreach, hresolve'⟩, hundisturbed'⟩

theorem closeBatch_without (hid : call.batchId ∉ ids) {deliveryKey : Text}
    (h : call.closeBatch platform delivery db deliveryKey = .ok db') :
    call.closeBatch platform delivery (db.without ids) deliveryKey = .ok (db'.without ids) ∧
      Undisturbed ids db db' := by
  simp only [IngestionCall.closeBatch, bind_eq_ok, orRaise_eq_ok, mapError_eq_ok] at h ⊢
  obtain ⟨⟨⟩, hafter, ⟨⟩, hinsert, requestKey, hkey, queue, hqueue, ⟨⟩, hbefore, h⟩ := h
  obtain rfl := Except.ok.inj h
  refine ⟨⟨⟨⟩, hafter, ⟨⟩, hinsert, requestKey, hkey, queue, hqueue, ⟨⟩, hbefore, ?_⟩,
    fun id hmem => ?_, rfl⟩
  · have hget : (db.without ids).batches.getD call.batchId
        (call.processingBatch platform delivery deliveryKey) =
        db.batches.getD call.batchId (call.processingBatch platform delivery deliveryKey) := by
      rw [PyDict.getD, PyDict.getD, get?_without_batches db hid]
    refine congrArg Except.ok ?_
    simp only [Database.without, PyDict.modify, PyDict.filter_set, hid, not_false_eq_true,
      decide_true, if_true]
    rw [← hget]
    rfl
  · change (db.batches.set _ _).get? id = _
    rw [PyDict.get?_set, if_neg]
    rintro rfl
    exact hid hmem

/-- The batch that is found under a key is committed, so it is none of those. -/
theorem reuseBatch_without (hinert : db.Inert ids) {deliveryKey : Text}
    {existing : Uuid × IngestionBatch}
    (hfind : db.batches.items.find? (fun p => p.2.deliveryKey = deliveryKey) = some existing)
    {outcome : IngestionOutcome} (h : call.reuseBatch db existing = .ok outcome) :
    (db.without ids).batches.items.find? (fun p => p.2.deliveryKey = deliveryKey) = some existing ∧
      call.reuseBatch (db.without ids) existing = .ok outcome := by
  refine ⟨?_, h⟩
  have hcommitted : existing.2.ingestionStatus = .committed := by
    simp only [IngestionCall.reuseBatch, bind_eq_ok, require_eq_ok] at h
    exact h.choose_spec.1
  have hid : existing.1 ∉ ids := by
    intro hmem
    obtain ⟨batch, hbatch, hstatus⟩ := hinert.listed existing.1 hmem
    have hexisting := PyDict.mem_items_iff.mp (List.mem_of_find?_eq_some hfind)
    rw [hbatch] at hexisting
    exact hstatus (Option.some.inj hexisting ▸ hcommitted)
  obtain ⟨hkey, earlier, later, hitems, hearlier⟩ := List.find?_eq_some_iff_append.mp hfind
  refine (List.find?_filter ..).trans (List.find?_eq_some_iff_append.mpr
    ⟨by simpa [hid] using hkey, earlier, later, hitems, fun p hp => ?_⟩)
  simp [hearlier p hp]

theorem transaction_without (hinert : db.Inert ids) {outcome : IngestionOutcome}
    (h : call.transaction platform db = .ok (db', outcome)) :
    call.transaction platform (db.without ids) = .ok (db'.without ids, outcome) ∧
      Undisturbed ids db db' := by
  simp only [IngestionCall.transaction, bind_eq_ok, mapError_eq_ok, orRaise_eq_ok] at h ⊢
  obtain ⟨delivery, hverified, keys, hkeys, deliveryKey, hkey, ⟨⟩, hlocks, ⟨⟩, hencodable, ⟨⟩, hfind,
    h⟩ := h
  suffices hsuffices : _ ∧ _ from
    ⟨⟨delivery, hverified, keys, hkeys, deliveryKey, hkey, ⟨⟩, hlocks, ⟨⟩, hencodable, ⟨⟩, hfind,
      hsuffices.1⟩, hsuffices.2⟩
  cases hexisting : db.batches.items.find? fun p => p.2.deliveryKey = deliveryKey with
  | some existing =>
    simp only [hexisting, bind_eq_ok] at h
    obtain ⟨reused, hreuse, h⟩ := h
    obtain ⟨rfl, rfl⟩ := Prod.mk.inj (Except.ok.inj h)
    obtain ⟨hfound, hreuse'⟩ := reuseBatch_without hinert hexisting hreuse
    refine ⟨?_, Undisturbed.refl ids db⟩
    simp only [hfound, bind_eq_ok]
    exact ⟨reused, hreuse', rfl⟩
  | none =>
    simp only [hexisting, bind_eq_ok] at h
    obtain ⟨opened, hopen, received, hreceive, closed, hclose, h⟩ := h
    obtain ⟨rfl, rfl⟩ := Prod.mk.inj (Except.ok.inj h)
    have hfound : (db.without ids).batches.items.find? (fun p => p.2.deliveryKey = deliveryKey) =
        none := by
      refine List.find?_eq_none.mpr fun p hp => ?_
      exact List.find?_eq_none.mp hexisting p (mem_without_batches.mp hp).1
    obtain ⟨hopen', hundisturbed, hid⟩ := openBatch_without hinert hopen
    obtain ⟨hreceive', hundisturbed'⟩ := receiveRows_without (hundisturbed.inert hinert) hid hreceive
    obtain ⟨hclose', hundisturbed''⟩ := closeBatch_without hid hclose
    refine ⟨?_, (hundisturbed.trans hundisturbed').trans hundisturbed''⟩
    simp only [hfound, bind_eq_ok]
    exact ⟨_, hopen', _, hreceive', _, hclose', rfl⟩

/-- A transaction that raises is matched by one that raises the same. -/
theorem transaction_without_error (ids : List Uuid) {error : IngestionError}
    (h : call.transaction platform db = .error error) : ∃ raises,
      ({ call with raises := raises } : IngestionCall).transaction platform (db.without ids) =
        .error error := by
  refine ⟨fun point => match point with
    | .locks => some error
    | _ => none, ?_⟩
  unfold IngestionCall.transaction at h ⊢
  -- What comes before the locks does not read the database.
  obtain h | ⟨delivery, hverified, h⟩ := bind_eq_error.mp h
  · exact bind_eq_error.mpr (.inl h)
  refine bind_eq_error.mpr (.inr ⟨delivery, hverified, ?_⟩)
  obtain h | ⟨keys, hkeys, h⟩ := bind_eq_error.mp h
  · exact bind_eq_error.mpr (.inl h)
  refine bind_eq_error.mpr (.inr ⟨keys, hkeys, ?_⟩)
  obtain h | ⟨deliveryKey, hkey, -⟩ := bind_eq_error.mp h
  · exact bind_eq_error.mpr (.inl h)
  exact bind_eq_error.mpr (.inr ⟨deliveryKey, hkey, rfl⟩)

/-- An ingestion does to the rest of the database what it does to all of it. -/
theorem ingestSourceFile_without (platform : Platform) (hinert : db.Inert ids)
    (call : IngestionCall) :
    ∃ raises, ({ call with raises := raises } : IngestionCall).ingestSourceFile platform
        (db.without ids) =
          ((call.ingestSourceFile platform db).1.without ids,
            (call.ingestSourceFile platform db).2) ∧
      Undisturbed ids db (call.ingestSourceFile platform db).1 := by
  cases htransaction : call.transaction platform db with
  | error error =>
    obtain ⟨raises, hraises⟩ := transaction_without_error ids htransaction
    refine ⟨raises, ?_, ?_⟩ <;> simp only [IngestionCall.ingestSourceFile, hraises, htransaction]
    exact Undisturbed.refl ids db
  | ok result =>
    obtain ⟨committed, outcome⟩ := result
    obtain ⟨htransaction', hundisturbed⟩ := transaction_without hinert htransaction
    refine ⟨call.raises, ?_⟩
    simp only [IngestionCall.ingestSourceFile, htransaction, htransaction']
    cases call.raises .commit with
    | some error => exact ⟨rfl, Undisturbed.refl ids db⟩
    | none =>
      cases outcome.reusedExistingBatch with
      | true => exact ⟨rfl, hundisturbed⟩
      | false => cases call.raises .afterCommit <;> exact ⟨rfl, hundisturbed⟩

end

end Threadline
