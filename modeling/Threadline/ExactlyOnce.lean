import Threadline.LogicalForm
import Threadline.RetainedDeliveries

/-!
# Exactly-once ingestion

Whatever calls run in between, and wherever they raise, the first committed
attempt on a delivery stores it, and all later attempts find it stored.
-/

open PyText PyJson PyCalendar PySorted PyExcept Runs

namespace Threadline

/-- The bytes that are hashed for the delivery key of a file. -/
def keyBytes (platform : Platform) (file : SourceFile) : Set Bytes :=
  {bytes | bytes = file.dataBytes ∨ bytes = file.manifestBytes ∨
    ∃ delivery, verifyDelivery platform file = .ok delivery ∧
      documentBytes (IngestionCall.keyDocument platform delivery) = some bytes}

/-- What is stored of a delivery once it has been ingested, and what another attempt does. -/
structure StoredOnce (platform : Platform) (call : IngestionCall) (delivery : VerifiedDelivery)
    (deliveryKey : Text) (db : Database) : Prop where
  batch : ∃ batch, (db.batches.items.filter fun p => p.2.deliveryKey = deliveryKey) =
    [(call.batchId, batch)]
  evidence : (db.evidence.items.filter fun p => p.1 = call.batchId) =
    [(call.batchId, ⟨call.file.dataBytes, call.file.manifestBytes⟩)]
  request : ∃ request, (db.publication.queue.requests.items.filter fun p =>
    p.2.triggerBatchId = some call.batchId) = [(call.requestId, request)]
  receipts : (db.receiptsOf call.batchId).map (fun p => p.2.rowNumber) =
    List.range' 1 delivery.records.length
  /-- Another attempt changes nothing, and returns only these IDs. -/
  attempt : ∀ attempt : IngestionCall, attempt.file = call.file →
    (attempt.ingestSourceFile platform db).1 = db ∧
      ∀ outcome, (attempt.ingestSourceFile platform db).2 = .ok outcome →
        outcome = ⟨call.batchId, call.requestId, true⟩
  /-- Unless it is made to raise, it returns them. -/
  reused : ∀ attempt : IngestionCall, attempt.file = call.file →
    (∀ point, attempt.raises point = none) →
    attempt.ingestSourceFile platform db = (db, .ok ⟨call.batchId, call.requestId, true⟩)

section

variable {platform : Platform} {call attempt : IngestionCall} {db : Database}
  {delivery delivery' : VerifiedDelivery} {deliveryKey : Text}
  {stored : List (Uuid × SourceReceipt)}

/-! ## Delivery keys -/

/-- Only the same files have the same key. -/
theorem file_eq_of_deliveryKey {file file' : SourceFile}
    (hinj : Set.InjOn platform.sha256 (keyBytes platform file ∪ keyBytes platform file'))
    (hverified : verifyDelivery platform file = .ok delivery)
    (hverified' : verifyDelivery platform file' = .ok delivery')
    (hkey : IngestionCall.deliveryKey platform delivery = some deliveryKey)
    (hkey' : IngestionCall.deliveryKey platform delivery' = some deliveryKey) : file = file' := by
  obtain ⟨rfl, data, members, -, hmanifest, -, hdeclares⟩ := verifyDelivery_eq_ok hverified
  obtain ⟨rfl, data', members', -, hmanifest', -, hdeclares'⟩ := verifyDelivery_eq_ok hverified'
  have hcanon : canon (IngestionCall.keyDocument platform delivery) =
      canon (IngestionCall.keyDocument platform delivery') := by
    refine (documentFingerprint_eq_iff (hinj.mono ?_) hkey hkey').mp rfl
    rintro bytes (hbytes | hbytes)
    · exact .inl (.inr (.inr ⟨delivery, hverified, hbytes⟩))
    · exact .inr (.inr (.inr ⟨delivery', hverified', hbytes⟩))
  have hkeys : ([txt "source_system", txt "report_type", txt "report_date",
      txt "source_relative_path", txt "file_checksum", txt "manifest_checksum"] : List Text).Nodup := by
    decide +kernel
  unfold IngestionCall.keyDocument at hcanon
  have hmembers := (fun hsame hnodup => canonMembers_eq_of_canon hsame hnodup hcanon) rfl hkeys
  simp only [canonMembers, canon, List.cons.injEq, Prod.mk.injEq, Json.str.injEq, true_and,
    and_true] at hmembers
  obtain ⟨-, -, -, hpath, hdata, hmanifestBytes⟩ := hmembers
  have hdata := hinj (.inl (.inl rfl)) (.inr (.inl rfl)) hdata
  have hmanifestBytes := hinj (.inl (.inr (.inl rfl))) (.inr (.inr (.inl rfl))) hmanifestBytes
  -- The manifest names the file.
  have hname : delivery.file.name = delivery'.file.name := by
    rw [hmanifestBytes, hmanifest'] at hmanifest
    obtain rfl := Json.obj.inj (Option.some.inj hmanifest)
    exact Json.str.inj (Option.some.inj (hdeclares.filename.symm.trans hdeclares'.filename))
  generalize delivery.file = file at *
  generalize delivery'.file = file' at *
  cases file
  cases file'
  simp only at hname hpath hdata hmanifestBytes
  rw [hname, hpath, hdata, hmanifestBytes]

/-! ## Attempts on a retained delivery -/

/-- What is checked of a file before the database is read. -/
structure Admitted (platform : Platform) (file : SourceFile) (delivery : VerifiedDelivery)
    (deliveryKey : Text) : Prop where
  verified : verifyDelivery platform file = .ok delivery
  key : IngestionCall.deliveryKey platform delivery = some deliveryKey
  identities : ∃ ids, IngestionCall.identityKeys platform delivery = .ok ids ∧
    ∀ id ∈ ids, (encodeUtf8 id).isSome

theorem transaction_admitted {db' : Database} {outcome : IngestionOutcome}
    (h : call.transaction platform db = .ok (db', outcome)) :
    ∃ delivery deliveryKey, Admitted platform call.file delivery deliveryKey := by
  simp only [IngestionCall.transaction, bind_eq_ok, mapError_eq_ok, orRaise_eq_ok,
    require_eq_ok] at h
  obtain ⟨delivery, hverified, ids, hids, deliveryKey, hkey, -, -, -, hencode, -⟩ := h
  exact ⟨delivery, deliveryKey, hverified, hkey, ids, hids, hencode⟩

/-- An attempt that reuses a batch has found its key. -/
theorem exists_batch_of_reused {db' : Database} {outcome : IngestionOutcome}
    (hadmitted : Admitted platform call.file delivery deliveryKey)
    (h : call.transaction platform db = .ok (db', outcome))
    (hreused : outcome.reusedExistingBatch = true) :
    ∃ p ∈ db.batches.items, p.2.deliveryKey = deliveryKey := by
  simp only [IngestionCall.transaction, bind_eq_ok, mapError_eq_ok, orRaise_eq_ok] at h
  obtain ⟨delivery', hverified, -, -, deliveryKey', hkey, -, -, -, -, -, -, h⟩ := h
  obtain rfl := Except.ok.inj (hadmitted.verified.symm.trans hverified)
  obtain rfl := Option.some.inj (hadmitted.key.symm.trans hkey)
  split at h
  next existing hexisting =>
    have hfound := List.find?_some hexisting
    exact ⟨existing, List.mem_of_find?_eq_some hexisting, of_decide_eq_true hfound⟩
  · simp only [bind_eq_ok] at h
    obtain ⟨_, -, _, -, _, -, h⟩ := h
    obtain ⟨-, rfl⟩ := Prod.mk.inj (Except.ok.inj h)
    cases hreused

theorem Retained.batches (h : Retained platform call delivery deliveryKey stored db) :
    ∃ batch : IngestionBatch, batch.ingestionStatus = .committed ∧
      (db.batches.items.filter fun p => p.2.deliveryKey = deliveryKey) =
        [(call.batchId, batch)] := by
  refine ⟨_, ?_, PyDict.filter_items_eq_singleton h.batch fun p hp => ⟨h.onlyBatch p hp, ?_⟩⟩
  · rfl
  · intro hid
    have hget := PyDict.mem_items_iff.mp hp
    rw [hid, h.batch] at hget
    rw [← Option.some.inj hget]
    rfl

theorem Retained.requests (h : Retained platform call delivery deliveryKey stored db) :
    ∃ request, (db.publication.queue.requests.items.filter fun p =>
      p.2.triggerBatchId = some call.batchId) = [(call.requestId, request)] := by
  obtain ⟨request, hget, htrigger⟩ := h.request
  refine ⟨request, PyDict.filter_items_eq_singleton hget fun p hp => ⟨?_, ?_⟩⟩
  · exact h.onlyRequest p.1 p.2 (PyDict.mem_items_iff.mp hp)
  · intro hid
    have hget' := PyDict.mem_items_iff.mp hp
    rw [hid, hget] at hget'
    rw [← Option.some.inj hget', htrigger]

/-- An attempt on a retained delivery passes the same checks and finds the batch. -/
theorem Retained.transaction (h : Retained platform call delivery deliveryKey stored db)
    (hadmitted : Admitted platform attempt.file delivery deliveryKey) :
    attempt.transaction platform db = (do
      attempt.reach .locks
      attempt.reach .findBatch
      attempt.reach .findRequest
      .ok (db, ⟨call.batchId, call.requestId, true⟩)) := by
  obtain ⟨ids, hids, hencode⟩ := hadmitted.identities
  obtain ⟨batch, hcommitted, hbatches⟩ := h.batches
  obtain ⟨request, hrequests⟩ := h.requests
  have hbatch : (db.batches.items.find? fun p => p.2.deliveryKey = deliveryKey) =
      some (call.batchId, batch) := by
    rw [← List.head?_filter, hbatches, List.head?_cons]
  have hrequest : (db.publication.queue.requests.items.find? fun p =>
      p.2.triggerBatchId = some call.batchId) = some (call.requestId, request) := by
    rw [← List.head?_filter, hrequests, List.head?_cons]
  unfold IngestionCall.transaction
  simp only [hadmitted.verified, hids, hadmitted.key, Except.mapError, orRaise, bind, Except.bind,
    hbatch, IngestionCall.reuseBatch, hcommitted, hrequest, require, if_true]
  cases attempt.reach .locks with
  | error error => rfl
  | ok _ =>
    rw [if_pos hencode]
    simp only
    cases attempt.reach .findBatch <;> cases attempt.reach .findRequest <;> rfl

theorem reach_eq_ok {point : IngestionPoint} (h : call.raises point = none) :
    call.reach point = .ok () := by
  rw [IngestionCall.reach, h]

theorem coreRow_rowNumber (p : Uuid × SourceReceipt) : (coreRow p).2.rowNumber = p.2.rowNumber := by
  unfold coreRow
  dsimp only
  split_ifs <;> rfl

/-- The rows of a retained delivery, in order. -/
theorem Retained.rowNumbers (h : Retained platform call delivery deliveryKey stored db)
    (hrows : (delivery.records.zipIdx 1).mapM (call.storedRow platform delivery) = some stored) :
    (db.receiptsOf call.batchId).map (fun p => p.2.rowNumber) =
      List.range' 1 delivery.records.length := by
  have hcore : ∀ rows : List (Uuid × SourceReceipt),
      rows.map (fun p => p.2.rowNumber) = (rows.map coreRow).map fun p => p.2.rowNumber := by
    intro rows
    rw [List.map_map]
    exact List.map_congr_left fun p _ => (coreRow_rowNumber p).symm
  obtain ⟨-, hnumbers, -⟩ := stored_rows hrows
  rw [hcore, h.receipts, ← hcore, hnumbers, List.zipIdx_map_snd]

/-- A retained delivery is stored once, and another attempt finds it. -/
theorem Retained.storedOnce (h : Retained platform call delivery deliveryKey stored db)
    (hadmitted : Admitted platform call.file delivery deliveryKey)
    (hrows : (delivery.records.zipIdx 1).mapM (call.storedRow platform delivery) = some stored) :
    StoredOnce platform call delivery deliveryKey db := by
  obtain ⟨hfile, -⟩ := verifyDelivery_eq_ok hadmitted.verified
  obtain ⟨batch, -, hbatches⟩ := h.batches
  refine ⟨⟨batch, hbatches⟩, ?_, h.requests, h.rowNumbers hrows, fun attempt hsame => ?_,
    fun attempt hsame hraises => ?_⟩
  · rw [← hfile]
    exact PyDict.filter_items_eq_singleton h.evidence fun _ _ => Iff.rfl
  · have hattempt : Admitted platform attempt.file delivery deliveryKey := hsame ▸ hadmitted
    have htransaction := h.transaction hattempt
    unfold IngestionCall.ingestSourceFile
    cases hresult : attempt.transaction platform db with
    | error error => exact ⟨rfl, fun outcome houtcome => nomatch houtcome⟩
    | ok result =>
      rw [htransaction] at hresult
      simp only [bind_eq_ok] at hresult
      obtain ⟨-, -, -, -, -, -, hresult⟩ := hresult
      obtain rfl := Except.ok.inj hresult
      cases attempt.raises .commit with
      | some error => exact ⟨rfl, fun outcome houtcome => nomatch houtcome⟩
      | none => exact ⟨rfl, fun outcome houtcome => (Except.ok.inj houtcome).symm⟩
  · have hattempt : Admitted platform attempt.file delivery deliveryKey := hsame ▸ hadmitted
    have htransaction := h.transaction hattempt
    simp only [reach_eq_ok (hraises _), bind, Except.bind] at htransaction
    unfold IngestionCall.ingestSourceFile
    simp only [htransaction, hraises, if_true]

end

/-! ## Exactly once -/

/-- Exactly-once ingestion. An attempt that does not commit leaves the database as it was. The first
attempt on a file to commit stores its delivery, whether or not it returns; after all later calls
there is one batch for it with its evidence, its rows and its request, and another attempt returns
their IDs and changes nothing. -/
theorem ingestion_exactly_once (platform : Platform) (events : List DatabaseEvent)
    (call : IngestionCall)
    (hinj : Set.InjOn platform.sha256 {bytes | ∃ attempt,
      DatabaseEvent.ingest attempt ∈ events ++ [.ingest call] ∧
        bytes ∈ keyBytes platform attempt.file}) :
    (call.committed? platform (Database.after platform events) = none →
      ∃ error, call.ingestSourceFile platform (Database.after platform events) =
        (Database.after platform events, .error error)) ∧
    ((call.committed? platform (Database.after platform events)).isSome →
      (∀ before attempt between, events = before ++ .ingest attempt :: between →
        attempt.file = call.file →
          attempt.committed? platform (Database.after platform before) = none) →
      (call.ingestSourceFile platform (Database.after platform events)).2 =
        (match call.raises .afterCommit with
          | some error => .error error
          | none => .ok ⟨call.batchId, call.requestId, false⟩) ∧
      ∃ delivery deliveryKey, verifyDelivery platform call.file = .ok delivery ∧
        IngestionCall.deliveryKey platform delivery = some deliveryKey ∧
        ∀ later, StoredOnce platform call delivery deliveryKey
          (Database.after platform (events ++ .ingest call :: later))) := by
  refine ⟨ingestSourceFile_of_not_committed, fun hcommitted hfirst => ?_⟩
  obtain ⟨outcome, hcommitted⟩ := Option.isSome_iff_exists.mp hcommitted
  have hs : Settled platform (Database.after platform events) := settled_after events
  obtain ⟨-, db', htransaction⟩ := committed?_eq_some.mp hcommitted
  obtain ⟨delivery, deliveryKey, hadmitted⟩ := transaction_admitted htransaction
  obtain ⟨hreused, -⟩ | ⟨rfl, delivery', deliveryKey', stored, hingested, hresult⟩ :=
    hs.commit hcommitted
  · -- The batch of the key would come from an earlier attempt on the same file.
    obtain ⟨p, hp, hkey⟩ := exists_batch_of_reused hadmitted htransaction hreused
    obtain ⟨before, attempt, between, rfl, hid, hearlier, delivery', deliveryKey', stored,
      hingested⟩ := exists_ingested hp
    have hretained := hingested.retained_after between
    have hbatch := hretained.batch
    rw [← hid, PyDict.mem_items_iff.mp hp] at hbatch
    have hkey' : deliveryKey' = deliveryKey := by
      rw [← hkey, Option.some.inj hbatch]
      rfl
    subst hkey'
    have hsame : attempt.file = call.file := by
      refine file_eq_of_deliveryKey (hinj.mono ?_) hingested.verified hadmitted.verified
        hingested.key hadmitted.key
      rintro bytes (hbytes | hbytes)
      · exact ⟨attempt, by simp, hbytes⟩
      · exact ⟨call, by simp, hbytes⟩
    rw [hfirst before attempt between rfl hsame] at hearlier
    cases hearlier
  · obtain rfl := Except.ok.inj (hadmitted.verified.symm.trans hingested.verified)
    obtain rfl := Option.some.inj (hadmitted.key.symm.trans hingested.key)
    exact ⟨hresult, delivery, deliveryKey, hadmitted.verified, hadmitted.key, fun later =>
      (hingested.retained_after later).storedOnce hadmitted hingested.rows⟩

/-! ## A lost acknowledgement -/

namespace CancelledDay

open PaidDay (september atTen valid15)

/-- An ingestion of the orders whose acknowledgement is lost. -/
def unacknowledged : IngestionCall :=
  { orders.ingestion (atTen (september 15 valid15)) orders.name with
    raises := fun point => match point with
      | .afterCommit => some (.raised (txt "connection lost"))
      | _ => none }

/-- The three texts that are hashed have three digests. -/
theorem unacknowledged_injOn : Set.InjOn inbox.platform.sha256 {bytes | ∃ attempt,
    DatabaseEvent.ingest attempt ∈ [] ++ [DatabaseEvent.ingest unacknowledged] ∧
      bytes ∈ keyBytes inbox.platform attempt.file} := by
  have hkey : (verifyDelivery inbox.platform unacknowledged.file).toOption.all (fun delivery =>
      (documentBytes (IngestionCall.keyDocument inbox.platform delivery)).all fun bytes =>
        inbox.platform.sha256 bytes ≠ inbox.platform.sha256 unacknowledged.file.dataBytes ∧
          inbox.platform.sha256 bytes ≠
            inbox.platform.sha256 unacknowledged.file.manifestBytes) = true := by decide +kernel
  have hdocument : ∀ delivery bytes,
      verifyDelivery inbox.platform unacknowledged.file = .ok delivery →
      documentBytes (IngestionCall.keyDocument inbox.platform delivery) = some bytes →
      inbox.platform.sha256 bytes ≠ inbox.platform.sha256 unacknowledged.file.dataBytes ∧
        inbox.platform.sha256 bytes ≠
          inbox.platform.sha256 unacknowledged.file.manifestBytes := by
    intro delivery bytes hverified hbytes
    rw [hverified] at hkey
    simp only [Except.toOption, Option.all_some, hbytes] at hkey
    exact of_decide_eq_true hkey
  have hfiles : inbox.platform.sha256 unacknowledged.file.dataBytes ≠
      inbox.platform.sha256 unacknowledged.file.manifestBytes := by decide +kernel
  rintro bytes ⟨attempt, hattempt, hbytes⟩ bytes' ⟨attempt', hattempt', hbytes'⟩ hdigest
  obtain rfl : attempt = unacknowledged := by simpa using hattempt
  obtain rfl : attempt' = unacknowledged := by simpa using hattempt'
  obtain rfl | rfl | ⟨delivery, hverified, hbytes⟩ := hbytes <;>
    obtain rfl | rfl | ⟨delivery', hverified', hbytes'⟩ := hbytes'
  · rfl
  · exact absurd hdigest hfiles
  · exact absurd hdigest.symm (hdocument delivery' bytes' hverified' hbytes').1
  · exact absurd hdigest.symm hfiles
  · rfl
  · exact absurd hdigest.symm (hdocument delivery' bytes' hverified' hbytes').2
  · exact absurd hdigest (hdocument delivery bytes hverified hbytes).1
  · exact absurd hdigest (hdocument delivery bytes hverified hbytes).2
  · obtain rfl := Except.ok.inj (hverified.symm.trans hverified')
    exact Option.some.inj (hbytes.symm.trans hbytes')

/-- The orders are stored once although the first attempt raises. -/
theorem ingestion_exactly_once_unacknowledged :
    (unacknowledged.ingestSourceFile inbox.platform ∅).2 =
        .error (.raised (txt "connection lost")) ∧
      ∃ delivery deliveryKey, StoredOnce inbox.platform unacknowledged delivery deliveryKey
        (Database.after inbox.platform [.ingest unacknowledged]) := by
  have hcommitted : (unacknowledged.committed? inbox.platform
      (Database.after inbox.platform [])).isSome := by decide +kernel
  obtain ⟨hresult, delivery, deliveryKey, -, -, honce⟩ :=
    (ingestion_exactly_once inbox.platform [] unacknowledged unacknowledged_injOn).2 hcommitted
      fun before attempt between hnil => by simp at hnil
  exact ⟨hresult, delivery, deliveryKey, honce []⟩

end CancelledDay

end Threadline
