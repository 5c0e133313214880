import Threadline.LedgerSeparation
import Threadline.RecordedDeliveries
import Threadline.RetainedDeliveries

/-!
# Runs of the ledger

Deliveries are recorded between the calls of the durable path. Neither sees what
the other has stored, except that a rebuild reads the rows of failed deliveries.
-/

open PyText PyJson PyCalendar PySorted PyExcept Runs

namespace Threadline

/-! ## Events -/

/-- What a call of the durable path returns or raises. -/
inductive DatabaseAnswer
  | ingested (answer : Except IngestionError IngestionOutcome)
  | ran (answer : Except RecoveryError (Option RecoveryOutcome))
  | updated (answer : Except QueueError Unit)

def Database.answer (platform : Platform) (db : Database) : DatabaseEvent → DatabaseAnswer
  | .ingest call => .ingested (call.ingestSourceFile platform db).2
  | .runNext call =>
    .ran (call.runNext platform.berlinToUtc platform.sha256 db.publication).2
  | .recordFailure requestId error now done =>
    .updated ((db.publication.queue.perform (.recordFailure requestId error now done)).map
      fun _ => ())
  | .requeueFailed requestId additionalAttempts now =>
    .updated ((db.publication.queue.perform (.requeueFailed requestId additionalAttempts now)).map
      fun _ => ())

/-- The same request, in surroundings that may raise something else. -/
inductive DatabaseEvent.SameRequest : DatabaseEvent → DatabaseEvent → Prop
  | ingest (call : IngestionCall) (raises : IngestionPoint → Option IngestionError) :
    SameRequest (.ingest call) (.ingest { call with raises := raises })
  | refl (event : DatabaseEvent) : SameRequest event event

/-- A call on the shared tables: of the service, or of the durable path. -/
inductive LedgerEvent
  | record (call : LedgerCall)
  | durable (event : DatabaseEvent)

/-- The calls of the durable path that an event stands for. -/
inductive LedgerEvent.Matches : LedgerEvent → List DatabaseEvent → Prop
  | record (call : LedgerCall) : Matches (.record call) []
  | durable {event event' : DatabaseEvent} (h : event.SameRequest event') :
    Matches (.durable event) [event']

namespace IngestionTables

variable (platform : LedgerPlatform) (tables : IngestionTables)

/-- The database without the batches that the service has recorded. -/
def durable : Database := tables.db.without tables.details.keys

def step (tables : IngestionTables) : LedgerEvent → IngestionTables
  | .record call => (call.recordDelivery platform tables).1
  | .durable event => { tables with db := tables.db.step platform.toPlatform event }

/-- The tables after a sequence of events on empty ones. -/
def after (events : List LedgerEvent) : IngestionTables := run (step platform) ∅ events

def answers (tables : IngestionTables) : LedgerEvent → List DatabaseAnswer
  | .record _ => []
  | .durable event => [tables.db.answer platform.toPlatform event]

end IngestionTables

/-! ## The two writers -/

/-- What the service has recorded is apart from what the durable path has stored. -/
structure Separate (platform : LedgerPlatform) (tables : IngestionTables) (db : Database) :
    Prop where
  durable : tables.durable = db
  inert : tables.db.Inert tables.details.keys
  settled : Settled platform.toPlatform db

section

variable {platform : LedgerPlatform} {call : LedgerCall} {tables tables' : IngestionTables}
  {db : Database} {deliveryKey filename : Text} {rows : List (Uuid × SourceReceipt)}

theorem separate_empty : Separate platform ∅ ∅ where
  durable := rfl
  inert := ⟨fun _ h => absurd h List.not_mem_nil, fun _ h => absurd h List.not_mem_nil⟩
  settled := settled_empty

theorem Separate.referenced (h : Separate platform tables db) : tables.db.Referenced := by
  intro r hr
  obtain ⟨p, hp, rfl⟩ := List.mem_map.mp hr
  by_cases hid : p.2.batchId ∈ tables.details.keys
  · obtain ⟨batch, hbatch, -⟩ := h.inert.listed _ hid
    rw [hbatch]
    rfl
  · have hstatus := h.settled.batchStatus (p := p) (h.durable ▸ mem_without_receipts.mpr ⟨hp, hid⟩)
    rw [← h.durable, IngestionTables.durable, batchStatus_without _ hid] at hstatus
    obtain ⟨batch, hbatch, -⟩ := Option.map_eq_some_iff.mp hstatus
    rw [hbatch]
    rfl

theorem Recorded.mem_keys (h : Recorded platform call tables tables' deliveryKey filename rows)
    {id : Uuid} : id ∈ tables'.details.keys ↔ id = call.batchId ∨ id ∈ tables.details.keys := by
  rw [h.details]
  exact PyDict.mem_keys_setItems

/-- Recording a delivery leaves the rest of the database as it is. -/
theorem Recorded.durable (h : Recorded platform call tables tables' deliveryKey filename rows)
    (hreferenced : tables.db.Referenced) : tables'.durable = tables.durable := by
  have hbatches : tables'.db.batches.filter (fun id _ => decide (id ∉ tables'.details.keys)) =
      tables.db.batches.filter fun id _ => decide (id ∉ tables.details.keys) := by
    rw [h.batches, PyDict.filter_set, if_neg (by simp [h.mem_keys])]
    apply PyDict.items_injective
    refine List.filter_congr fun p hp => ?_
    have hne : p.1 ≠ call.batchId := by
      intro hid
      have hget := PyDict.mem_items_iff.mp hp
      rw [hid, h.freshBatch] at hget
      cases hget
    simp [h.mem_keys, hne]
  have hreceipts : tables'.db.receipts.filter
        (fun _ receipt => decide (receipt.batchId ∉ tables'.details.keys)) =
      tables.db.receipts.filter fun _ receipt => decide (receipt.batchId ∉ tables.details.keys) := by
    have hnew : rows.filter (fun q => decide (q.2.batchId ∉ tables'.details.keys)) = [] := by
      refine List.filter_eq_nil_iff.mpr fun p hp => ?_
      simp [h.mem_keys, prepareReceipts_batchId h.prepared p hp]
    have hold : tables.db.receipts.items.filter
          (fun q => decide (q.2.batchId ∉ tables'.details.keys)) =
        tables.db.receipts.items.filter fun q => decide (q.2.batchId ∉ tables.details.keys) := by
      refine List.filter_congr fun p hp => ?_
      simp [h.mem_keys, hreferenced.ne_of_fresh h.freshBatch hp]
    apply PyDict.items_injective
    change tables'.db.receipts.items.filter
        (fun q => decide (q.2.batchId ∉ tables'.details.keys)) =
      tables.db.receipts.items.filter fun q => decide (q.2.batchId ∉ tables.details.keys)
    rw [h.receipts, List.filter_append, hnew, List.append_nil, hold]
  unfold IngestionTables.durable Database.without
  rw [hbatches, hreceipts, h.others]

theorem batchStatus_ne_committed (platform : LedgerPlatform) (call : LedgerCall) :
    call.batchStatus platform ≠ .committed := by
  unfold LedgerCall.batchStatus
  split_ifs <;> decide

theorem Recorded.inert (h : Recorded platform call tables tables' deliveryKey filename rows)
    (hreferenced : tables.db.Referenced) (hinert : tables.db.Inert tables.details.keys) :
    tables'.db.Inert tables'.details.keys where
  listed id hid := by
    rw [h.batches, PyDict.get?_set]
    split_ifs with hnew
    · exact ⟨_, rfl, batchStatus_ne_committed platform call⟩
    · exact hinert.listed id ((h.mem_keys.mp hid).resolve_left (Ne.symm hnew))
  unresolved p hp := by
    obtain ⟨hp, hid⟩ := List.mem_filter.mp hp
    rw [h.receipts, List.mem_append] at hp
    rcases hp with hp | hp
    · have hne := hreferenced.ne_of_fresh h.freshBatch hp
      refine hinert.unresolved p (List.mem_filter.mpr ⟨hp, ?_⟩)
      exact decide_eq_true ((h.mem_keys.mp (of_decide_eq_true hid)).resolve_left hne)
    · obtain ⟨row, -, hrow⟩ := (mem_of_mapM_eq_ok h.prepared).mp hp
      exact (prepareReceipt_eq_ok hrow).unresolved

theorem Separate.record (h : Separate platform tables db) (call : LedgerCall) :
    Separate platform (tables.step platform (.record call)) db := by
  rw [IngestionTables.step]
  obtain hsame | ⟨tables', result, htransaction, hstep⟩ := call.recordDelivery_cases platform tables
  · rwa [hsame]
  · rw [hstep]
    obtain ⟨deliveryKey, stored, -, -, ⟨rfl, -⟩ | ⟨filename, rows, hrecorded, -⟩⟩ :=
      LedgerCall.transaction_cases h.referenced htransaction
    · exact h
    · exact ⟨(hrecorded.durable h.referenced).trans h.durable, hrecorded.inert h.referenced h.inert,
        h.settled⟩

/-- A call of the durable path does the same to its own tables, and leaves what was recorded. -/
theorem Separate.durable_step (h : Separate platform tables db) (event : DatabaseEvent) :
    ∃ event', event.SameRequest event' ∧
      Separate platform (tables.step platform (.durable event)) (db.step platform.toPlatform event') ∧
      tables.db.answer platform.toPlatform event = db.answer platform.toPlatform event' ∧
      Undisturbed tables.details.keys tables.db (tables.db.step platform.toPlatform event) := by
  obtain ⟨rfl, hinert, hsettled⟩ := h
  cases event with
  | ingest call =>
    obtain ⟨raises, hcall, hundisturbed⟩ := ingestSourceFile_without platform.toPlatform hinert call
    refine ⟨_, .ingest call raises, ⟨?_, hundisturbed.inert hinert, hsettled.step _⟩, ?_, hundisturbed⟩
    · exact (congrArg Prod.fst hcall).symm
    · exact congrArg DatabaseAnswer.ingested (congrArg Prod.snd hcall).symm
  | runNext call =>
    exact ⟨_, .refl _, ⟨rfl, ⟨hinert.listed, hinert.unresolved⟩, hsettled.step _⟩, rfl, fun _ _ => rfl,
      rfl⟩
  | recordFailure requestId error now done =>
    exact ⟨_, .refl _, ⟨rfl, ⟨hinert.listed, hinert.unresolved⟩, hsettled.step _⟩, rfl, fun _ _ => rfl,
      rfl⟩
  | requeueFailed requestId additionalAttempts now =>
    exact ⟨_, .refl _, ⟨rfl, ⟨hinert.listed, hinert.unresolved⟩, hsettled.step _⟩, rfl, fun _ _ => rfl,
      rfl⟩

theorem exists_durable_run (platform : LedgerPlatform) (events : List LedgerEvent) :
    ∃ matched, List.Forall₂ LedgerEvent.Matches events matched ∧
      Separate platform (IngestionTables.after platform events)
        (Database.after platform.toPlatform matched.flatten) ∧
      observed (IngestionTables.step platform) (IngestionTables.answers platform) ∅ events =
        observed (Database.step platform.toPlatform)
          (fun db event => [db.answer platform.toPlatform event]) ∅ matched.flatten := by
  refine exists_simulation (R := Separate platform) (fun tables db event h => ?_) separate_empty events
  cases event with
  | record call => exact ⟨[], .record call, h.record call, rfl⟩
  | durable event =>
    obtain ⟨event', hsame, hseparate, hanswer, -⟩ := h.durable_step event
    refine ⟨[event'], .durable hsame, hseparate, ?_⟩
    simp [IngestionTables.answers, observed, hanswer]

/-! ## What is kept -/

/-- What a delivery that was recorded leaves in every later state. -/
structure Kept (platform : LedgerPlatform) (call : LedgerCall) (deliveryKey filename : Text)
    (rows : List (Uuid × SourceReceipt)) (tables : IngestionTables) : Prop where
  normalized : normalizeFilename call.delivery.originalFilename = .ok filename
  key : calculateDeliveryKey platform call.delivery = .ok deliveryKey
  prepared : call.prepareReceipts platform call.batchId (batchIssues platform call.delivery) =
    .ok rows
  batch : tables.db.batches.get? call.batchId =
    some (call.recordedBatch platform deliveryKey filename)
  onlyBatch : ∀ p ∈ tables.db.batches.items, p.2.deliveryKey = deliveryKey → p.1 = call.batchId
  receipts : tables.db.receiptsOf call.batchId = rows
  details : tables.details.get? call.batchId =
    some ⟨call.delivery.schemaVersion, call.batchError platform⟩

theorem Recorded.kept (h : Recorded platform call tables tables' deliveryKey filename rows)
    (hreferenced : tables.db.Referenced) :
    Kept platform call deliveryKey filename rows tables' where
  normalized := h.normalized
  key := h.key
  prepared := h.prepared
  batch := by rw [h.batches, PyDict.get?_set, if_pos rfl]
  onlyBatch := by
    rw [h.batches]
    exact onlyBatch_of_fresh h.freshBatch h.freshKey _
  receipts := receiptsOf_recorded hreferenced h.freshBatch (prepareReceipts_batchId h.prepared)
    h.receipts
  details := by rw [h.details, PyDict.get?_set, if_pos rfl]

variable {other : LedgerCall} {otherKey otherFilename : Text}
  {otherRows : List (Uuid × SourceReceipt)}

/-- Another delivery gets a batch of its own. -/
theorem Kept.record (h : Kept platform call deliveryKey filename rows tables)
    (hother : Recorded platform other tables tables' otherKey otherFilename otherRows) :
    Kept platform call deliveryKey filename rows tables' := by
  have hid : other.batchId ≠ call.batchId := by
    intro hid
    have hfresh := hother.freshBatch
    rw [hid, h.batch] at hfresh
    cases hfresh
  have hkey : otherKey ≠ deliveryKey := by
    rintro rfl
    have hmem := List.mem_map_of_mem (f := Prod.snd) (PyDict.mem_items_iff.mpr h.batch)
    exact hother.freshKey _ hmem rfl
  refine ⟨h.normalized, h.key, h.prepared, ?_, fun p hp hsame => ?_, ?_, ?_⟩
  · rw [hother.batches, PyDict.get?_set, if_neg hid, h.batch]
  · rw [hother.batches, PyDict.items_set_of_get?_none hother.freshBatch, List.mem_append] at hp
    rcases hp with hp | hp
    · exact h.onlyBatch p hp hsame
    · obtain rfl := List.mem_singleton.mp hp
      exact absurd hsame hkey
  · have hnone : otherRows.filter (fun p => p.2.batchId = call.batchId) = [] := by
      refine List.filter_eq_nil_iff.mpr fun p hp => ?_
      rw [prepareReceipts_batchId hother.prepared p hp]
      simpa using hid
    rw [Database.receiptsOf, hother.receipts, List.filter_append, hnone, List.append_nil]
    exact h.receipts
  · rw [hother.details, PyDict.get?_set, if_neg hid, h.details]

theorem Kept.mem_keys (h : Kept platform call deliveryKey filename rows tables) :
    call.batchId ∈ tables.details.keys := PyDict.mem_keys_iff.mpr ⟨_, h.details⟩

end

/-! ## Keys of the durable path -/

section

variable {platform : Platform} {call : IngestionCall} {db db' : Database}

/-- The rows of a delivery are stored and resolved in the batches that exist. -/
theorem receiveRows_batches {delivery : VerifiedDelivery}
    (h : call.receiveRows platform delivery db = .ok db') : db'.batches = db.batches := by
  simp only [IngestionCall.receiveRows, bind_eq_ok] at h
  obtain ⟨⟨received, touched⟩, hrows, -, -, hresolve⟩ := h
  have hreceived : received.batches = db.batches := by
    refine foldlM_invariant (P := fun state : Database × List Text => state.1.batches = db.batches)
      (fun state row next _ hstate hnext => ?_) rfl hrows
    obtain ⟨p, versions, -, -, -, -, rfl⟩ := receiveRow_eq_ok hnext
    exact hstate
  refine foldlM_invariant (P := fun state : Database => state.batches = db.batches)
    (fun state id next _ hstate hnext => ?_) hreceived hresolve
  obtain ⟨winner, others, -, rfl⟩ := resolveEntity_eq_ok hnext
  exact hstate

/-- An ingestion adds no second batch under a key. -/
theorem ingestSourceFile_deliveryKey (platform : Platform) (call : IngestionCall) (db : Database)
    {p : Uuid × IngestionBatch} (hp : p ∈ (call.ingestSourceFile platform db).1.batches.items) :
    (∃ q ∈ db.batches.items, q.1 = p.1 ∧ q.2.deliveryKey = p.2.deliveryKey) ∨
      ∀ q ∈ db.batches.items, q.2.deliveryKey ≠ p.2.deliveryKey := by
  obtain hsame | ⟨db', outcome, htransaction, hdb'⟩ := ingestSourceFile_cases platform call db
  · rw [hsame] at hp
    exact .inl ⟨p, hp, rfl, rfl⟩
  rw [hdb'] at hp
  simp only [IngestionCall.transaction, bind_eq_ok] at htransaction
  obtain ⟨delivery, -, -, -, deliveryKey, -, -, -, -, -, -, -, htransaction⟩ := htransaction
  split at htransaction
  · obtain ⟨reused, -, hresult⟩ := bind_eq_ok.mp htransaction
    obtain ⟨rfl, rfl⟩ := Prod.mk.inj (Except.ok.inj hresult)
    exact .inl ⟨p, hp, rfl, rfl⟩
  · simp only [bind_eq_ok] at htransaction
    obtain ⟨opened, hopen, received, hreceive, closed, hclose, hresult⟩ := htransaction
    obtain ⟨rfl, rfl⟩ := Prod.mk.inj (Except.ok.inj hresult)
    obtain ⟨hfresh, hkey, rfl⟩ := openBatch_eq_ok hopen
    obtain ⟨requestKey, queue, -, rfl⟩ := closeBatch_eq_ok hclose
    simp only [receiveRows_batches hreceive, PyDict.modify, PyDict.getD, PyDict.get?_set, if_true,
      Option.getD_some, PyDict.set_set, PyDict.items_set_of_get?_none hfresh, List.mem_append] at hp
    rcases hp with hp | hp
    · exact .inl ⟨p, hp, rfl, rfl⟩
    · obtain rfl := List.mem_singleton.mp hp
      exact .inr fun q hq => hkey q.2 (List.mem_map_of_mem hq)

end

section

variable {platform : LedgerPlatform} {call : LedgerCall} {tables tables' : IngestionTables}
  {db : Database} {deliveryKey filename : Text} {rows : List (Uuid × SourceReceipt)}

/-- The receipts of a batch are among those of a list of batches that contains it. -/
theorem receiptsOf_eq_of_untouched {ids : List Uuid} {db db' : Database}
    (h : Undisturbed ids db db') {id : Uuid} (hid : id ∈ ids) : db'.receiptsOf id = db.receiptsOf id := by
  have hin : ∀ db : Database, db.receiptsOf id =
      (db.receiptsIn ids).items.filter fun p => p.2.batchId = id := by
    intro db
    change _ = (db.receipts.items.filter fun p => decide (p.2.batchId ∈ ids)).filter _
    rw [List.filter_filter]
    refine List.filter_congr fun p _ => ?_
    by_cases hp : p.2.batchId = id <;> simp [hp, hid]
  rw [hin, hin, h.receipts]

theorem Kept.durable_step (h : Kept platform call deliveryKey filename rows tables)
    (hseparate : Separate platform tables db) (event : DatabaseEvent) :
    Kept platform call deliveryKey filename rows (tables.step platform (.durable event)) := by
  obtain ⟨-, -, -, -, hundisturbed⟩ := hseparate.durable_step event
  refine ⟨h.normalized, h.key, h.prepared, (hundisturbed.batches _ h.mem_keys).trans h.batch, ?_,
    (receiptsOf_eq_of_untouched hundisturbed h.mem_keys).trans h.receipts, h.details⟩
  intro p hp hsame
  cases event with
  | ingest ingestion =>
    obtain ⟨q, hq, hid, hkey⟩ | hfresh := ingestSourceFile_deliveryKey platform.toPlatform ingestion
      tables.db hp
    · exact hid ▸ h.onlyBatch q hq (hkey.trans hsame)
    · exact absurd hsame.symm (hfresh _ (PyDict.mem_items_iff.mpr h.batch))
  | runNext _ => exact h.onlyBatch p hp hsame
  | recordFailure _ _ _ _ => exact h.onlyBatch p hp hsame
  | requeueFailed _ _ _ => exact h.onlyBatch p hp hsame

/-- Recording a delivery whose key is known changes nothing, and another one adds its own batch. -/
theorem Kept.step (h : Kept platform call deliveryKey filename rows tables)
    (hseparate : Separate platform tables db) (event : LedgerEvent) :
    Kept platform call deliveryKey filename rows (tables.step platform event) := by
  cases event with
  | durable event => exact h.durable_step hseparate event
  | record other =>
    rw [IngestionTables.step]
    obtain hsame | ⟨tables', result, htransaction, hstep⟩ :=
      other.recordDelivery_cases platform tables
    · rwa [hsame]
    · rw [hstep]
      obtain ⟨otherKey, stored, -, -, ⟨rfl, -⟩ | ⟨otherFilename, otherRows, hrecorded, -⟩⟩ :=
        LedgerCall.transaction_cases hseparate.referenced htransaction
      · exact h
      · exact h.record hrecorded

/-! ## Runs -/

theorem receiptsOf_without (db : Database) {ids : List Uuid} {id : Uuid} (hid : id ∉ ids) :
    (db.without ids).receiptsOf id = db.receiptsOf id := by
  change (db.receipts.items.filter _).filter _ = _
  rw [List.filter_filter]
  refine List.filter_congr fun p _ => ?_
  by_cases hp : p.2.batchId = id <;> simp [hp, hid]

/-- Every batch of the service was recorded by one of the calls, which it keeps. -/
theorem exists_kept (platform : LedgerPlatform) (events : List LedgerEvent) :
    ∀ id ∈ (IngestionTables.after platform events).details.keys, ∃ call, .record call ∈ events ∧
      call.batchId = id ∧ ∃ deliveryKey filename rows,
        Kept platform call deliveryKey filename rows (IngestionTables.after platform events) := by
  induction events using List.reverseRecOn with
  | nil => exact fun id hid => absurd hid List.not_mem_nil
  | append_singleton events event ih =>
    obtain ⟨matched, -, hseparate, -⟩ := exists_durable_run platform events
    have hafter : IngestionTables.after platform (events ++ [event]) =
        (IngestionTables.after platform events).step platform event := run_concat events event
    rw [hafter]
    have hold : ∀ id ∈ (IngestionTables.after platform events).details.keys, ∃ call,
        .record call ∈ events ++ [event] ∧ call.batchId = id ∧ ∃ deliveryKey filename rows,
          Kept platform call deliveryKey filename rows
            ((IngestionTables.after platform events).step platform event) := by
      intro id hid
      obtain ⟨call, hcall, hbatch, deliveryKey, filename, rows, hkept⟩ := ih id hid
      exact ⟨call, List.mem_append_left _ hcall, hbatch, deliveryKey, filename, rows,
        hkept.step hseparate event⟩
    cases event with
    | durable event => exact hold
    | record call =>
      intro id hid
      obtain hsame | ⟨tables', result, htransaction, hstep⟩ :=
        call.recordDelivery_cases platform (IngestionTables.after platform events)
      · rw [IngestionTables.step, hsame] at hid
        exact hold id hid
      · rw [IngestionTables.step, hstep] at hid
        obtain ⟨deliveryKey, stored, -, -, ⟨rfl, -⟩ | ⟨filename, rows, hrecorded, -⟩⟩ :=
          LedgerCall.transaction_cases hseparate.referenced htransaction
        · exact hold id hid
        · rcases hrecorded.mem_keys.mp hid with rfl | hid
          · refine ⟨call, by simp, rfl, deliveryKey, filename, rows, ?_⟩
            rw [IngestionTables.step, hstep]
            exact hrecorded.kept hseparate.referenced
          · exact hold id hid

/-- A batch has a receipt for each row that it has observed. -/
theorem conserved_after (platform : LedgerPlatform) (events : List LedgerEvent) :
    ∀ p ∈ (IngestionTables.after platform events).db.batches.items,
      (((IngestionTables.after platform events).receiptCounts p.1).total : ℤ) =
        p.2.observedRowCount := by
  intro p hp
  by_cases hid : p.1 ∈ (IngestionTables.after platform events).details.keys
  · obtain ⟨call, -, hbatch, deliveryKey, filename, rows, hkept⟩ := exists_kept platform events p.1 hid
    obtain ⟨htotal, -, -⟩ := counts_of_rows hkept.prepared hkept.receipts
    have hget := PyDict.mem_items_iff.mp hp
    rw [← hbatch, hkept.batch] at hget
    rw [← hbatch, htotal, ← Option.some.inj hget]
    rfl
  · obtain ⟨matched, -, hseparate, -⟩ := exists_durable_run platform events
    have hmem : p ∈ (Database.after platform.toPlatform matched.flatten).batches.items :=
      hseparate.durable ▸ mem_without_batches.mpr ⟨hp, hid⟩
    obtain ⟨before, ingestion, later, hsplit, hbatch, -, delivery, key, stored, hingested⟩ :=
      exists_ingested hmem
    have hretained := hingested.retained_after later
    rw [← hsplit, ← hseparate.durable] at hretained
    have hget := PyDict.mem_items_iff.mp (mem_without_batches.mpr ⟨hp, hid⟩)
    rw [hbatch] at hid
    rw [hbatch, ← IngestionTables.durable, hretained.batch] at hget
    have hlength := congrArg List.length hretained.receipts
    rw [List.length_map, List.length_map, IngestionTables.durable, receiptsOf_without _ hid,
      ← (mapM_eq_some.mp hingested.rows).length_eq, List.length_zipIdx] at hlength
    rw [hbatch, IngestionTables.receiptCounts, hlength, ← Option.some.inj hget]
    rfl

/-! ## Accounts -/

/-- What the service reports of a delivery is what a delivery of that key has left. -/
structure Reported (platform : LedgerPlatform) (events : List LedgerEvent) (call : LedgerCall)
    (tables tables' : IngestionTables) (result : IngestionLedgerResult) (first : LedgerCall)
    (filename : Text) (rows : List (Uuid × SourceReceipt)) : Prop where
  kept : Kept platform first result.deliveryKey filename rows tables'
  origin : (first = call ∧ result.wasReplay = false) ∨
    (.record first ∈ events ∧ result.wasReplay = true ∧ tables' = tables)
  batchId : result.batchId = first.batchId
  status : result.ingestionStatus = first.batchStatus platform
  observed : result.observedRowCount = first.delivery.records.length
  processable : result.processableReceiptCount =
    if batchIssues platform first.delivery = [] then
      first.delivery.records.countP (first.parses platform)
    else 0
  quarantined : result.processableReceiptCount + result.quarantinedReceiptCount =
    result.observedRowCount

/-- The account that the tables give of the deliveries recorded in a run. -/
structure Accounted (platform : LedgerPlatform) (events : List LedgerEvent)
    (tables : IngestionTables) : Prop where
  /-- Every batch of the service holds what one call has recorded. -/
  kept : ∀ id ∈ tables.details.keys, ∃ call, .record call ∈ events ∧ call.batchId = id ∧
    ∃ deliveryKey filename rows, Kept platform call deliveryKey filename rows tables
  /-- No later call changes it. -/
  lasting : ∀ call deliveryKey filename rows, Kept platform call deliveryKey filename rows tables →
    ∀ later, Kept platform call deliveryKey filename rows
      (run (IngestionTables.step platform) tables later)
  /-- A row can be processed if it satisfies its contract and the batch has no issue; otherwise it is
  in quarantine with a reason. -/
  prepared : ∀ call deliveryKey filename rows, Kept platform call deliveryKey filename rows tables →
    List.Forall₂ (PreparedRow platform call call.batchId (batchIssues platform call.delivery))
      (call.delivery.records.zipIdx 1) rows
  /-- A receipt is numbered by its row, and none is lost. -/
  numbered : ∀ call deliveryKey filename rows, Kept platform call deliveryKey filename rows tables →
    rows.map (fun p => p.2.rowNumber) = List.range' 1 call.delivery.records.length
  /-- A call never finds the tables at fault. -/
  blameless : ∀ call : LedgerCall, Raises LedgerError.Expected (call.recordDelivery platform tables).2
  /-- A call that returns reports the delivery of its key, or a batch of the durable path has it. -/
  reported : ∀ (call : LedgerCall) result, (call.recordDelivery platform tables).2 = .ok result →
    calculateDeliveryKey platform call.delivery = .ok result.deliveryKey ∧
    ((∃ p ∈ tables.durable.batches.items, p.2.deliveryKey = result.deliveryKey) ∨
      ∃ first filename rows, Reported platform events call tables
        (call.recordDelivery platform tables).1 result first filename rows)


theorem Kept.reported {events : List LedgerEvent} {first : LedgerCall}
    {stored : Uuid × IngestionBatch} {inserted : Bool}
    (h : Kept platform first deliveryKey filename rows tables')
    (hfind : tables'.db.batches.items.find? (fun p => p.2.deliveryKey = deliveryKey) = some stored)
    (horigin : (first = call ∧ inserted = true) ∨
      (.record first ∈ events ∧ inserted = false ∧ tables' = tables)) :
    Reported platform events call tables tables'
      (call.resultOf platform tables' deliveryKey stored inserted) first filename rows := by
  obtain rfl := Option.some.inj (hfind.symm.trans (find?_deliveryKey _ _ h.batch rfl h.onlyBatch))
  obtain ⟨htotal, hprocessable, hsum⟩ := counts_of_rows h.prepared h.receipts
  refine ⟨h, ?_, rfl, rfl, htotal, hprocessable, hsum.trans htotal.symm⟩
  rcases horigin with ⟨rfl, rfl⟩ | ⟨hmem, rfl, rfl⟩
  · exact .inl ⟨rfl, rfl⟩
  · exact .inr ⟨hmem, rfl, rfl⟩

theorem recordDelivery_eq_ok {result : IngestionLedgerResult}
    (h : (call.recordDelivery platform tables).2 = .ok result) : ∃ tables',
      call.transaction platform tables = .ok (tables', result) ∧
        (call.recordDelivery platform tables).1 = tables' := by
  unfold LedgerCall.recordDelivery at h ⊢
  cases htransaction : call.transaction platform tables with
  | error error =>
    rw [htransaction] at h
    cases h
  | ok recorded =>
    obtain ⟨tables', reported⟩ := recorded
    simp only [htransaction] at h ⊢
    cases hcommit : call.raises .commit with
    | some text => simp [hcommit] at h
    | none =>
      cases hafter : call.raises .afterCommit with
      | some text => simp [hcommit, hafter] at h
      | none =>
        simp only [hcommit, hafter] at h
        obtain rfl := Except.ok.inj h
        exact ⟨tables', rfl, rfl⟩

theorem raises_recordDelivery (h : Raises LedgerError.Expected (call.transaction platform tables)) :
    Raises LedgerError.Expected (call.recordDelivery platform tables).2 := by
  unfold LedgerCall.recordDelivery
  split
  next error htransaction => exact raises_error (h error htransaction)
  · split
    · exact raises_error trivial
    · split
      · exact raises_error trivial
      · exact raises_ok _

/-- In every run of deliveries and calls of the durable path, a delivery is recorded once with a
receipt for each of its rows, keeps what was recorded, and is reported so to every call of its
key. -/
theorem recorded_deliveries_accounted (platform : LedgerPlatform) (events : List LedgerEvent) :
    Accounted platform events (IngestionTables.after platform events) := by
  obtain ⟨matched, -, hseparate, -⟩ := exists_durable_run platform events
  refine ⟨exists_kept platform events, fun call deliveryKey filename rows hkept later => ?_,
    fun call deliveryKey filename rows hkept => prepareReceipts_eq_ok hkept.prepared,
    fun call deliveryKey filename rows hkept => prepareReceipts_rowNumbers hkept.prepared,
    fun call => raises_recordDelivery
      (transaction_expected hseparate.referenced (conserved_after platform events)),
    fun call result hresult => ?_⟩
  · have hstep : ∀ tables event,
        (∃ db, Separate platform tables db ∧ Kept platform call deliveryKey filename rows tables) →
        ∃ db, Separate platform (tables.step platform event) db ∧
          Kept platform call deliveryKey filename rows (tables.step platform event) := by
      rintro tables event ⟨db, hseparate, hkept⟩
      cases event with
      | record other =>
        exact ⟨db, hseparate.record other, hkept.step hseparate (.record other)⟩
      | durable event =>
        obtain ⟨event', -, hnext, -, -⟩ := hseparate.durable_step event
        exact ⟨_, hnext, hkept.step hseparate (.durable event)⟩
    obtain ⟨db, -, hlater⟩ := run_invariant hstep ⟨_, hseparate, hkept⟩ later
    exact hlater
  · obtain ⟨tables', htransaction, hrecorded⟩ := recordDelivery_eq_ok hresult
    rw [hrecorded]
    obtain ⟨deliveryKey, stored, hkey, hfind, ⟨rfl, rfl⟩ | ⟨filename, rows, hnew, rfl⟩⟩ :=
      LedgerCall.transaction_cases hseparate.referenced htransaction
    · refine ⟨hkey, ?_⟩
      have hstored := List.mem_of_find?_eq_some hfind
      have hsame : stored.2.deliveryKey = deliveryKey := by simpa using List.find?_some hfind
      by_cases hid : stored.1 ∈ (IngestionTables.after platform events).details.keys
      · obtain ⟨first, hfirst, hbatch, key, filename, rows, hkept⟩ :=
          exists_kept platform events stored.1 hid
        have hget := PyDict.mem_items_iff.mp hstored
        rw [← hbatch, hkept.batch] at hget
        have hkey' : key = deliveryKey := by
          rw [← hsame, ← Option.some.inj hget]
          rfl
        subst hkey'
        exact .inr ⟨first, filename, rows, hkept.reported hfind (.inr ⟨hfirst, rfl, rfl⟩)⟩
      · exact .inl ⟨stored, mem_without_batches.mpr ⟨hstored, hid⟩, hsame⟩
    · exact ⟨hkey, .inr ⟨call, filename, rows,
        (hnew.kept hseparate.referenced).reported hfind (.inl ⟨rfl, rfl⟩)⟩⟩

end

end Threadline
