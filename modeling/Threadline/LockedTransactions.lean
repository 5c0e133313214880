import Threadline.DatabaseRuns
import Threadline.EntityLocks

/-!
# Transactions under locks

An ingestion locks the financial state and then the entities of its rows, and the
worker locks the financial state. However their sessions are interleaved, the
database is one that a serial run leaves, and what a transaction changes of an
entity it has locked.
-/

open PyText PyJson PyCalendar PySorted PyExcept LockTable Runs

namespace Threadline

/-! ## What an ingestion locks -/

section Frame

variable {platform : Platform} {digest : Bytes → Bytes} {call : IngestionCall}
  {delivery : VerifiedDelivery} {ids : List Text} {db db' db'' : Database}

/-- The keys that an ingestion gives to `acquire_entity_locks`. -/
def lockKeys (delivery : VerifiedDelivery) (ids : List Text) : List (EntityName × Text) :=
  ids.map fun id => (.name delivery.entityType.value, id)

theorem mem_identityKeys (h : IngestionCall.identityKeys platform delivery = .ok ids) {id : Text} :
    id ∈ ids ↔ ∃ payload ∈ delivery.records, ∃ record,
      parseSourceRecord platform.iso payload (.member delivery.entityType) = .ok record ∧
        record.recordId = id := by
  unfold IngestionCall.identityKeys at h
  obtain ⟨parsed, hparsed, h⟩ := bind_eq_ok.mp h
  obtain rfl := Except.ok.inj h
  rw [mem_sortedSet, List.mem_filterMap]
  simp only [id_eq, exists_eq_right, mem_of_mapM_eq_ok hparsed]
  refine exists_congr fun payload => and_congr_right fun _ => ?_
  constructor
  · intro hok
    split at hok
    next record hrecord =>
      exact ⟨record, hrecord, Option.some.inj (Except.ok.inj hok)⟩
    · cases hok
    · cases hok
  · rintro ⟨record, hrecord, rfl⟩
    rw [hrecord]

/-- The identifier of a parsed row is a text of its payload that has been checked. -/
theorem trimmed_recordId {payload : Payload} {entityType : EntityType} {record : FinancialRecord}
    (h : recordParser platform.iso payload entityType = .ok record) : Trimmed record.recordId := by
  have hfollows : Follows platform.iso payload (rowRules entityType)
      (recordParser platform.iso payload entityType) := follows_recordParser entityType
  have hrule : Rule.text (idField entityType) ∈ rowRules entityType := by
    cases entityType <;> decide
  obtain ⟨s, hs, htrimmed⟩ := hfollows.ok.mp ⟨record, h⟩ _ hrule
  have hid : payload.field (idField entityType) = .str record.recordId := by
    obtain ⟨hfields, -⟩ := recordIds_of_recordParser h
    have hentity := entityType_of_recordParser h
    cases record <;> (subst hentity; exact (List.cons.inj hfields).1)
  rw [Json.str.inj (hid.symm.trans hs)]
  exact htrimmed

/-- What the database holds about an entity: its resolution, its versions, and its receipts. -/
structure KeepsEntity (entityType sourceId : Text) (db db' : Database) : Prop where
  resolution : db'.resolutions.get? (entityType, sourceId) = db.resolutions.get? (entityType, sourceId)
  versions : ∀ key : VersionKey, key.entityType = entityType → key.sourceId = sourceId →
    db'.versions.get? key = db.versions.get? key
  receipts : ∀ receiptId receipt, db.receipts.get? receiptId = some receipt →
    receipt.entityType = some entityType → receipt.sourceId = some sourceId →
    db'.receipts.get? receiptId = some receipt

namespace KeepsEntity

variable {entityType sourceId : Text}

theorem refl (entityType sourceId : Text) (db : Database) : KeepsEntity entityType sourceId db db :=
  ⟨rfl, fun _ _ _ => rfl, fun _ _ h _ _ => h⟩

theorem trans (h : KeepsEntity entityType sourceId db db')
    (h' : KeepsEntity entityType sourceId db' db'') : KeepsEntity entityType sourceId db db'' where
  resolution := h'.resolution.trans h.resolution
  versions key htype hid := (h'.versions key htype hid).trans (h.versions key htype hid)
  receipts receiptId receipt hget htype hid :=
    h'.receipts receiptId receipt (h.receipts receiptId receipt hget htype hid) htype hid

/-- A new receipt takes the place of no other one. -/
theorem insertReceipt {receiptId : Uuid} {receipt : SourceReceipt}
    (h : db.insertReceipt receiptId receipt = .ok db') : KeepsEntity entityType sourceId db db' := by
  obtain ⟨hfresh, -, -, rfl⟩ := insertReceipt_eq_ok.mp h
  refine ⟨rfl, fun _ _ _ => rfl, fun id old hold _ _ => ?_⟩
  rw [PyDict.get?_set, if_neg]
  · exact hold
  · rintro rfl
    rw [hfresh] at hold
    cases hold

theorem insertVersion {key : VersionKey} (version : SourceRecordVersion)
    (hother : ¬ (key.entityType = entityType ∧ key.sourceId = sourceId)) :
    KeepsEntity entityType sourceId db (db.insertVersion key version) := by
  unfold Database.insertVersion
  split
  · exact refl entityType sourceId db
  · refine ⟨rfl, fun key' htype hid => ?_, fun _ _ hget _ _ => hget⟩
    rw [PyDict.get?_set, if_neg]
    rintro rfl
    exact hother ⟨htype, hid⟩

/-- The receipts that `_resolve_entity` reclassifies are those of its entity. -/
theorem resolveEntity {entityType' sourceId' : Text}
    (h : db.resolveEntity entityType' sourceId' = .ok db')
    (hother : ¬ (entityType' = entityType ∧ sourceId' = sourceId)) :
    KeepsEntity entityType sourceId db db' := by
  obtain ⟨winner, others, -, rfl⟩ := resolveEntity_eq_ok h
  refine ⟨?_, fun _ _ _ => rfl, fun receiptId receipt hget htype hid => ?_⟩
  · rw [PyDict.get?_set, if_neg]
    rintro hkey
    exact hother (Prod.mk.inj hkey)
  · rw [Database.reclassify, PyDict.get?_mapItems, hget, Option.map_some]
    refine congrArg some (if_neg fun hranked => hother ?_)
    obtain ⟨p, hp, hpid⟩ := List.mem_map.mp hranked
    obtain ⟨hmem, hp⟩ := List.mem_filter.mp hp
    simp only [decide_eq_true_eq] at hp
    have hreceipt : p = (receiptId, receipt) :=
      List.inj_on_of_nodup_map db.receipts.nodup_keys hmem (PyDict.mem_items_iff.mpr hget) hpid
    subst hreceipt
    exact ⟨Option.some.inj (hp.1.symm.trans htype), Option.some.inj (hp.2.1.symm.trans hid)⟩

/-- A turn of the loop over the rows touches the entity of its row. -/
theorem receiveRow {state state' : Database × List Text} {row : Payload × ℕ}
    (h : call.receiveRow platform delivery state row = .ok state')
    (hother : ∀ record, parseSourceRecord platform.iso row.1 (.member delivery.entityType) =
      .ok record → ¬ (delivery.entityType.value = entityType ∧ record.recordId = sourceId)) :
    KeepsEntity entityType sourceId state.1 state'.1 ∧ ∀ id ∈ state'.2, id ∈ state.2 ∨ ∃ record,
      parseSourceRecord platform.iso row.1 (.member delivery.entityType) = .ok record ∧
        record.recordId = id := by
  unfold IngestionCall.receiveRow at h
  obtain ⟨-, -, h⟩ := bind_eq_ok.mp h
  split at h
  next violation hparse =>
    simp only [bind_eq_ok] at h
    obtain ⟨payloadHash, -, db₁, hinsert, h⟩ := h
    obtain rfl := Except.ok.inj h
    exact ⟨insertReceipt hinsert, fun id hid => .inl hid⟩
  · cases h
  next record hparse =>
    simp only [bind_eq_ok] at h
    obtain ⟨envelope, -, db₁, hinsert, h⟩ := h
    obtain rfl := Except.ok.inj h
    refine ⟨(insertReceipt hinsert).trans (insertVersion _ (hother record hparse)), fun id hid => ?_⟩
    rcases List.mem_append.mp hid with hid | hid
    · exact .inl hid
    · exact .inr ⟨record, hparse, (List.mem_singleton.mp hid).symm⟩

end KeepsEntity

/-- The transaction of an ingestion keeps what the database holds about every entity that none of
its rows describes. -/
theorem keepsEntity_transaction {outcome : IngestionOutcome} {entityType sourceId : Text}
    (h : call.transaction platform db = .ok (db', outcome))
    (hverified : verifyDelivery platform call.file = .ok delivery)
    (hids : IngestionCall.identityKeys platform delivery = .ok ids)
    (hother : ¬ (delivery.entityType.value = entityType ∧ sourceId ∈ ids)) :
    KeepsEntity entityType sourceId db db' := by
  simp only [IngestionCall.transaction, bind_eq_ok, mapError_eq_ok] at h
  obtain ⟨delivery', hverified', -, -, deliveryKey, -, -, -, -, -, -, -, h⟩ := h
  obtain rfl := Except.ok.inj (hverified'.symm.trans hverified)
  split at h
  next existing hexisting =>
    obtain ⟨reused, -, hresult⟩ := bind_eq_ok.mp h
    obtain ⟨rfl, rfl⟩ := Prod.mk.inj (Except.ok.inj hresult)
    exact .refl entityType sourceId db
  next hexisting =>
    simp only [bind_eq_ok] at h
    obtain ⟨opened, hopen, received, hreceive, closed, hclose, hresult⟩ := h
    obtain ⟨rfl, rfl⟩ := Prod.mk.inj (Except.ok.inj hresult)
    obtain ⟨-, -, rfl⟩ := openBatch_eq_ok hopen
    obtain ⟨requestKey, queue, -, rfl⟩ := closeBatch_eq_ok hclose
    simp only [IngestionCall.receiveRows, bind_eq_ok] at hreceive
    obtain ⟨⟨stored, touched⟩, hstored, -, -, hresolve⟩ := hreceive
    -- The loops keep the entity, and the second one resolves entities of the rows only.
    have hrecord : ∀ row ∈ delivery'.records.zipIdx 1, ∀ record,
        parseSourceRecord platform.iso row.1 (.member delivery'.entityType) = .ok record →
          record.recordId ∈ ids := fun row hrow record hparse =>
      (mem_identityKeys hids).mpr ⟨row.1,
        List.mem_of_getElem? (List.mem_zipIdx_iff_le_and_getElem?_sub.mp hrow).2, record, hparse, rfl⟩
    let Good (state : Database × List Text) : Prop :=
      KeepsEntity entityType sourceId db state.1 ∧ ∀ id ∈ state.2, id ∈ ids
    have hgood : Good (stored, touched) := by
      refine foldlM_invariant (fun state row state' hrow hstate hstep => ?_) ?_ hstored
      · have hrow' : ∀ record, parseSourceRecord platform.iso row.1 (.member delivery'.entityType) =
            .ok record → ¬ (delivery'.entityType.value = entityType ∧ record.recordId = sourceId) := by
          rintro record hparse ⟨htype, rfl⟩
          exact hother ⟨htype, hrecord row hrow record hparse⟩
        obtain ⟨hkeeps, htouched⟩ := KeepsEntity.receiveRow hstep hrow'
        refine ⟨hstate.1.trans hkeeps, fun id hid => ?_⟩
        rcases htouched id hid with hid | ⟨record, hparse, rfl⟩
        · exact hstate.2 id hid
        · exact hrecord row hrow record hparse
      · exact ⟨⟨rfl, fun _ _ _ => rfl, fun _ _ hget _ _ => hget⟩,
          fun _ hid => absurd hid List.not_mem_nil⟩
    have hkept : KeepsEntity entityType sourceId db received := by
      refine foldlM_invariant (fun state id state' hid hstate hstep => ?_) hgood.1 hresolve
      refine hstate.trans (KeepsEntity.resolveEntity hstep fun hentity => hother ⟨hentity.1, ?_⟩)
      exact hentity.2 ▸ hgood.2 id ((mem_sortedSet).mp hid)
    exact ⟨hkept.resolution, hkept.versions, hkept.receipts⟩

/-- Every identifier of a parsed row makes a key. -/
theorem orderedEntityKeys_lockKeys (hids : IngestionCall.identityKeys platform delivery = .ok ids) :
    ∃ ordered, orderedEntityKeys (lockKeys delivery ids) = .ok ordered ∧
      ∀ id ∈ ids, ∃ key ∈ ordered, key.entityType = delivery.entityType ∧ key.sourceId = id := by
  have hkey : ∀ id ∈ ids, ∃ key : EntityKey,
      normalizeEntityKey (.name delivery.entityType.value, id) = .ok key ∧
        key.entityType = delivery.entityType ∧ key.sourceId = id := by
    intro id hid
    obtain ⟨payload, -, record, hparse, rfl⟩ := (mem_identityKeys hids).mp hid
    have htrimmed : Trimmed record.recordId := trimmed_recordId hparse
    have hmember : (EntityType.all.find? fun member => member.value = delivery.entityType.value) =
        some delivery.entityType := by
      cases delivery.entityType <;> rfl
    exact ⟨⟨delivery.entityType, record.recordId, htrimmed⟩,
      by simp [normalizeEntityKey, normalizedType, hmember, htrimmed, bind_eq_ok], rfl, rfl⟩
  have hall : ∀ raw ∈ lockKeys delivery ids, ∃ key, normalizeEntityKey raw = .ok key := by
    intro raw hraw
    obtain ⟨id, hid, rfl⟩ := List.mem_map.mp hraw
    exact (hkey id hid).imp fun _ h => h.1
  obtain ⟨normalized, hnormalized⟩ := exists_mapM_eq_ok hall
  have hordered : orderedEntityKeys (lockKeys delivery ids) =
      .ok (sortedBy EntityKey.sortKey normalized.dedup) := by
    rw [orderedEntityKeys, hnormalized]
    rfl
  refine ⟨_, hordered, fun id hid => ?_⟩
  obtain ⟨key, hok, hentity⟩ := hkey id hid
  obtain ⟨key', hkey', hok'⟩ := (orderedEntityKeys_eq_ok.mp hordered).2.1 _
    (List.mem_map_of_mem hid)
  obtain rfl := Except.ok.inj (hok'.symm.trans hok)
  exact ⟨key', hkey', hentity⟩

theorem entityLock?_isSome (digest : Bytes → Bytes) (key : EntityKey) :
    (entityLock? digest key).isSome ↔ (encodeUtf8 key.sourceId).isSome := by
  simp [entityLock?, entityLockNumber, encodeUtf8_isSome, encodableText_render, encodable,
    encodableItems, encodableText_entityType]

/-- Where every key can be encoded, every lock is taken. -/
theorem mem_entityLocks_of_mem {keys : List EntityKey} {key : EntityKey}
    (hall : ∀ key ∈ keys, (entityLock? digest key).isSome) (hkey : key ∈ keys) :
    ∃ lock ∈ entityLocks digest keys, entityLock? digest key = some lock := by
  induction keys with
  | nil => cases hkey
  | cons first keys ih =>
    obtain ⟨hfirst, hkeys⟩ := List.forall_mem_cons.mp hall
    obtain ⟨lock, hlock⟩ := Option.isSome_iff_exists.mp hfirst
    simp only [entityLocks, hlock]
    rcases List.mem_cons.mp hkey with rfl | hkey
    · exact ⟨lock, List.mem_cons_self, hlock⟩
    · obtain ⟨lock', hmem, hlock'⟩ := ih hkeys hkey
      exact ⟨lock', List.mem_cons_of_mem lock hmem, hlock'⟩

/-- The transaction of an ingestion has locked an entity that it changes anything of. -/
theorem locked_of_changed (digest : Bytes → Bytes) {outcome : IngestionOutcome}
    {entityType sourceId : Text} (h : call.transaction platform db = .ok (db', outcome))
    (hverified : verifyDelivery platform call.file = .ok delivery)
    (hids : IngestionCall.identityKeys platform delivery = .ok ids)
    (hchanged : ¬ KeepsEntity entityType sourceId db db') :
    ∃ key : EntityKey, key.entityType.value = entityType ∧ key.sourceId = sourceId ∧
      ∃ lock ∈ acquiredLocks digest (lockKeys delivery ids), entityLock? digest key = some lock := by
  have hentity : delivery.entityType.value = entityType ∧ sourceId ∈ ids := by
    by_contra hother
    exact hchanged (keepsEntity_transaction h hverified hids hother)
  obtain ⟨rfl, hid⟩ := hentity
  simp only [IngestionCall.transaction, bind_eq_ok, mapError_eq_ok, require_eq_ok] at h
  obtain ⟨delivery', hverified', ids', hids', -, -, -, -, -, hencoded, -⟩ := h
  obtain rfl := Except.ok.inj (hverified'.symm.trans hverified)
  obtain rfl := Except.ok.inj (hids'.symm.trans hids)
  obtain ⟨ordered, hordered, hkeys⟩ := orderedEntityKeys_lockKeys hids
  obtain ⟨key, hkey, htype, rfl⟩ := hkeys sourceId hid
  have hall : ∀ key ∈ ordered, (entityLock? digest key).isSome := by
    intro key hkey
    obtain ⟨raw, hraw, hok⟩ := (orderedEntityKeys_eq_ok.mp hordered).2.2 key hkey
    obtain ⟨id, hid, rfl⟩ := List.mem_map.mp hraw
    rw [entityLock?_isSome, sourceId_of_normalizeEntityKey hok]
    exact hencoded id hid
  rw [acquiredLocks, hordered]
  exact ⟨key, congrArg EntityType.value htype, rfl, mem_entityLocks_of_mem hall hkey⟩

end Frame

/-! ## Sessions -/

/-- A call that begins by locking the financial state. An ingestion does so once its delivery has
been verified and its rows have been parsed. -/
inductive FinancialCall (platform : Platform)
  | ingest (call : IngestionCall) (delivery : VerifiedDelivery) (ids : List Text)
      (verified : verifyDelivery platform call.file = .ok delivery)
      (identified : IngestionCall.identityKeys platform delivery = .ok ids)
  | runNext (call : Call)

namespace FinancialCall

variable {platform : Platform}

/-- The locks that a call takes, in order. -/
def locks (digest : Bytes → Bytes) : FinancialCall platform → List AdvisoryLock
  | .ingest _ delivery ids _ _ => financialStateLock :: acquiredLocks digest (lockKeys delivery ids)
  | .runNext _ => [financialStateLock]

def event : FinancialCall platform → DatabaseEvent
  | .ingest call _ _ _ _ => .ingest call
  | .runNext call => .runNext call

end FinancialCall

/-- Whatever a call does to the database, it holds the lock of every entity whose resolution,
versions or receipts it changes. -/
theorem changed_entities_locked {platform : Platform} (digest : Bytes → Bytes)
    (call : FinancialCall platform) (db : Database) (entityType sourceId : Text) :
    KeepsEntity entityType sourceId db (db.step platform call.event) ∨
      ∃ key : EntityKey, key.entityType.value = entityType ∧ key.sourceId = sourceId ∧
        ∃ lock ∈ call.locks digest, entityLock? digest key = some lock := by
  cases call with
  | ingest call delivery ids hverified hids =>
    refine or_iff_not_imp_left.mpr fun hchanged => ?_
    rw [FinancialCall.event, Database.step] at hchanged
    obtain hsame | ⟨db', outcome, htransaction, hdb'⟩ := ingestSourceFile_cases platform call db
    · rw [hsame] at hchanged
      exact absurd (.refl entityType sourceId db) hchanged
    · rw [hdb'] at hchanged
      obtain ⟨key, htype, hid, lock, hmem, hlock⟩ :=
        locked_of_changed digest htransaction hverified hids hchanged
      exact ⟨key, htype, hid, lock, List.mem_cons_of_mem financialStateLock hmem, hlock⟩
  | runNext call => exact .inl ⟨rfl, fun _ _ _ => rfl, fun _ _ hget _ _ => hget⟩

/-- A call in a session of its own. Its statements read what others have committed. -/
structure FinancialSession (platform : Platform) where
  call : FinancialCall platform
  transaction : Transaction Database
  alone : ∀ db, transaction.alone db = db.step platform call.event

section Sessions

variable {platform : Platform} {S : Type} [DecidableEq S]

/-- The table of the sessions' locks after some events on an empty database. -/
def sessionsAfter (digest : Bytes → Bytes) (sessions : S → FinancialSession platform)
    (events : List (Event S)) : Table S AdvisoryLock Database :=
  run Table.step (start (fun s => (sessions s).call.locks digest) (fun s => (sessions s).transaction)
    ∅) events

/-- The sessions that have committed, in order. -/
def sessionsCommitted (digest : Bytes → Bytes) (sessions : S → FinancialSession platform)
    (events : List (Event S)) : List S :=
  committed (fun s => (sessions s).call.locks digest) (fun s => (sessions s).transaction) ∅ events

/-- What holds of sessions however they are interleaved. -/
structure Serialized (sessions : S → FinancialSession platform)
    (t : Table S AdvisoryLock Database) (done : List S) : Prop where
  /-- Each session has committed once at most, and the database is that of a serial run. -/
  once : done.Nodup
  serial : t.state = Database.after platform (done.map fun s => (sessions s).call.event)
  /-- One session at a time holds locks, and the financial lock is the only one waited for. -/
  exclusive : ∀ s s' l l', t.owner l = some s → t.owner l' = some s' → s = s'
  waits : ∀ s s', t.WaitsFor s s' → (t.todo s).head? = some financialStateLock
  /-- The sessions that have not ended do not all wait. -/
  running : ∀ s, (t.work s).isSome → ∃ s', (t.work s').isSome ∧ ∀ s'', ¬ t.WaitsFor s' s''
  noDeadlock : ∀ waiting : Finset S, ¬ t.Deadlocked waiting

end Sessions

end Threadline
