import Mathlib.Data.Set.Finite.Basic
import Mathlib.Data.Set.Finite.List
import Threadline.PyTimeZone
import Threadline.ResolutionRefinement
import Threadline.RetainedDeliveries
import Threadline.RowEvidence

/-!
# The evaluation cutoff

A batch that is received after the cutoff of a request takes part in the rebuild
of the request: whatever the database holds, one more order adds a transaction.
-/

open PyText PyJson PyCalendar PySorted PyExcept

namespace Threadline

/-- The candidates agree on all that a run finds out. -/
structure SameFindings (a b : ReconciliationResult) : Prop where
  transactions : a.transactions = b.transactions
  expectedMovements : a.expectedMovements = b.expectedMovements
  payouts : a.payouts = b.payouts
  exceptions : a.exceptions = b.exceptions
  sourceCompleteness : a.sourceCompleteness = b.sourceCompleteness

/-- A batch that was received after the cutoff has been committed, with its rows, its record
versions and its report day. Receipts of before may have new dispositions. -/
structure LaterBatch (platform : Platform) (asOfUtc : UtcDateTime) (db db' : Database)
    (batchId : Uuid) (batch : IngestionBatch) (stored : List (Uuid × SourceReceipt)) : Prop where
  freshBatch : db.batches.get? batchId = none
  freshKey : ∀ b ∈ db.batches.values, b.deliveryKey ≠ batch.deliveryKey
  later : asOfUtc < batch.receivedAtUtc
  own : ∀ p ∈ stored, p.2.batchId = batchId ∧ p.2.receivedAtUtc = batch.receivedAtUtc
  batches : db'.batches = db.batches.set batchId batch
  evidence : ∃ files, db'.evidence = db.evidence.set batchId files
  receipts : db'.receipts.items.map coreRow = (db.receipts.items ++ stored).map coreRow
  days : db'.expectedDays = if batch.reportDate ∈ db.expectedDays then db.expectedDays
    else db.expectedDays ++ [batch.reportDate]
  settled : Settled platform db'

/-- Whatever is received after the cutoff leaves the candidate as it was. -/
def CutoffHolds (platform : Platform) (runId : Text) (asOfUtc : UtcDateTime) (db : Database) :
    Prop :=
  ∀ candidate, db.buildCandidate platform runId asOfUtc = .ok candidate →
    ∀ db' batchId batch stored, LaterBatch platform asOfUtc db db' batchId batch stored →
      ∃ candidate', db'.buildCandidate platform runId asOfUtc = .ok candidate' ∧
        SameFindings candidate' candidate

section

variable {platform : Platform} {db db' : Database} {runId : Text} {asOfUtc : UtcDateTime}
  {candidate : ReconciliationResult}

theorem receivedAtUtc_of_storedRow {call : IngestionCall} {delivery : VerifiedDelivery}
    {row : Payload × ℕ} {p : Uuid × SourceReceipt}
    (h : call.storedRow platform delivery row = some p) : p.2.receivedAtUtc = call.asOfUtc := by
  unfold IngestionCall.storedRow at h
  split at h
  · obtain ⟨_, -, rfl⟩ := Option.map_eq_some_iff.mp h
    rfl
  · cases h
  · obtain ⟨_, -, rfl⟩ := Option.map_eq_some_iff.mp h
    rfl

/-- An ingestion after the cutoff is such a batch. -/
theorem Ingested.laterBatch {call : IngestionCall} {delivery : VerifiedDelivery}
    {deliveryKey : Text} {stored : List (Uuid × SourceReceipt)}
    (h : Ingested platform call db db' delivery deliveryKey stored)
    (hsettled : Settled platform db') (hlater : asOfUtc < call.asOfUtc) :
    LaterBatch platform asOfUtc db db' call.batchId
      { call.processingBatch platform delivery deliveryKey with ingestionStatus := .committed }
      stored where
  freshBatch := h.freshBatch
  freshKey := h.freshKey
  later := hlater
  own p hp := by
    refine ⟨(stored_rows h.rows).1 p hp, ?_⟩
    obtain ⟨row, -, hrow⟩ := (mem_of_mapM_eq_some h.rows).mp hp
    exact receivedAtUtc_of_storedRow hrow
  batches := h.batches
  evidence := ⟨_, h.evidence⟩
  receipts := h.receipts
  days := h.days
  settled := hsettled

/-! ## Orders and transactions -/

/-- The order of a transaction has a receipt. -/
theorem Settled.receipt_of_transaction (h : Settled platform db)
    (hbuild : db.buildCandidate platform runId asOfUtc = .ok candidate)
    {row : TransactionReconciliation} (hrow : row ∈ candidate.transactions) :
    ∃ p ∈ db.receipts.items, p.2.sourceId = some row.orderId := by
  obtain ⟨quarantine, envelopes, canonicalization, completenessResults, unstable, hrebuilt,
    hcanonical, -, hreconcile, hstable⟩ := buildCandidate_ok hbuild
  obtain ⟨exceptions, rfl⟩ := stabilize_rows hstable
  obtain ⟨b, movements, hopened, rfl⟩ := reconcile_ok hreconcile
  obtain ⟨order, horder, rfl⟩ := List.mem_map.mp ((mem_sortedBy _).mp hrow)
  rw [hopened.records_eq, mem_orders_iff] at horder
  obtain ⟨receipts, hunique, hspec⟩ := canonicalize_ok hcanonical
  obtain ⟨-, e, he, hrecord⟩ := (hunique.canonicalizes hspec).canonical_seen _ horder
  obtain ⟨p, hp, -, henvelops⟩ := (h.mem_envelopes hrebuilt).mp he
  refine ⟨p, hp, ?_⟩
  rw [henvelops.holds.sourceId, hrecord]
  rfl

/-- An order with one receipt has a transaction. -/
theorem Settled.transaction_of_receipt (h : Settled platform db)
    (hbuild : db.buildCandidate platform runId asOfUtc = .ok candidate) {p : Uuid × SourceReceipt}
    (hp : p ∈ db.receipts.items) (hdisposition : p.2.disposition ≠ .quarantined) {order : Order}
    (hholds : Holds platform p.1 p.2 (.order order))
    (honly : ∀ q ∈ db.receipts.items, q.2.sourceId = some order.orderId → q = p) :
    ∃ row ∈ candidate.transactions, row.orderId = order.orderId := by
  obtain ⟨quarantine, envelopes, canonicalization, completenessResults, unstable, hrebuilt,
    hcanonical, -, hreconcile, hstable⟩ := buildCandidate_ok hbuild
  obtain ⟨exceptions, rfl⟩ := stabilize_rows hstable
  obtain ⟨b, movements, hopened, rfl⟩ := reconcile_ok hreconcile
  obtain ⟨receipts, hunique, hspec⟩ := canonicalize_ok hcanonical
  have hcanonicalizes := hunique.canonicalizes hspec
  obtain ⟨e, -, henvelops⟩ := hholds.rebuilds
  obtain hrecord := henvelops.holds.unique hholds
  have he : e ∈ envelopes := (h.mem_envelopes hrebuilt).mpr ⟨p, hp, hdisposition, henvelops⟩
  -- No other envelope describes the order.
  have hsame : ∀ f ∈ envelopes, f.identity = e.identity → f = e := by
    intro f hf hidentity
    obtain ⟨q, hq, -, hqf⟩ := (h.mem_envelopes hrebuilt).mp hf
    have hid : f.record.recordId = order.orderId := by
      rw [(identity_eq_iff.mp hidentity).2, hrecord]
      rfl
    obtain rfl := honly q hq (by rw [hqf.holds.sourceId, hid])
    exact RecordEnvelope.ext (hqf.receiptId.trans henvelops.receiptId.symm)
      (hqf.holds.unique henvelops.holds)
  have hconflict : ¬ ConflictedIdentity envelopes e.identity := by
    rintro ⟨f, hf, hidentity, -, g, hg, hgf, -, hne⟩
    rw [hsame f hf hidentity, hsame g hg (hgf.trans hidentity)] at hne
    exact hne rfl
  obtain ⟨a, ha, hidentity, -, hfilter⟩ := hcanonicalizes.one_canonical e he hconflict
  have hmem : a.record ∈ canonicalization.canonicalRecords :=
    (List.mem_filter.mp (hfilter ▸ List.mem_singleton_self a.record)).1
  rw [hsame a ha hidentity, hrecord, ← mem_orders_iff, ← hopened.records_eq] at hmem
  exact ⟨_, (mem_sortedBy _).mpr (List.mem_map_of_mem hmem), rfl⟩

end

/-! ## A late record -/

/-- The row of an order. -/
def orderPayloadOf (orderId createdAtUtc : Text) : Payload := PyDict.ofPairs
  [(txt "order_id", .str orderId),
   (txt "created_at_utc", .str createdAtUtc),
   (txt "status", .str (txt "PAYMENT_PENDING")),
   (txt "currency", .str (txt "EUR")),
   (txt "order_total", .str (txt "100.00")),
   (txt "source_version", .num (.int 1))]

/-- The library reads some timestamp. -/
def ReadsTimestamps (iso : IsoParsers) : Prop :=
  ∃ s instant, Trimmed s ∧ iso.datetime (normalizedOffset s) = some (.aware (some instant))

theorem parse_orderPayloadOf {iso : IsoParsers} {orderId createdAtUtc : Text}
    {instant : UtcDateTime} (hid : Trimmed orderId) (hcreated : Trimmed createdAtUtc)
    (hreads : iso.datetime (normalizedOffset createdAtUtc) = some (.aware (some instant))) :
    ∃ order, recordParser iso (orderPayloadOf orderId createdAtUtc) .order = .ok (.order order) ∧
      order.orderId = orderId := by
  have hmet : ∀ rule ∈ rowRules .order, rule.Met iso (orderPayloadOf orderId createdAtUtc) := by
    simp only [rowRules, List.forall_mem_cons]
    refine ⟨⟨?_, ?_⟩, ⟨orderId, rfl, hid⟩, ⟨instant, createdAtUtc, rfl, hcreated, hreads⟩, ?_, rfl,
      ?_, ⟨1, rfl, by decide⟩, nofun⟩
    · exact fun k hk => hk
    · exact fun k hk => .inl hk
    · exact ⟨txt "PAYMENT_PENDING", by decide, rfl, by decide, by decide⟩
    · exact ⟨txt "100.00", 10000, rfl, by decide, by decide, .inl (by decide), by decide⟩
  obtain ⟨order, horder⟩ := follows_parseOrder.ok.mpr hmet
  have hrecord : recordParser iso (orderPayloadOf orderId createdAtUtc) .order =
      .ok (.order order) := map_eq_ok.mpr ⟨order, horder, rfl⟩
  refine ⟨order, hrecord, ?_⟩
  have hids := (recordIds_of_recordParser hrecord).1
  exact (Json.str.inj (List.head_eq_of_cons_eq hids)).symm

/-- The receipt of a record that is accepted. -/
def acceptedReceipt (batchId : Uuid) (receivedAtUtc : UtcDateTime) (payload : Payload)
    (record : FinancialRecord) (payloadHash : Text) : SourceReceipt where
  batchId := batchId
  rowNumber := 1
  entityType := some record.entityType.value
  sourceId := some record.recordId
  sourceVersion := some record.sourceVersion
  payloadHash := payloadHash
  rawPayload := .obj payload.items
  disposition := .accepted
  reasonCode := none
  receivedAtUtc := receivedAtUtc
  recordVersion := some ⟨record.entityType.value, record.recordId, record.sourceVersion,
    payloadHash⟩

/-- A batch of one row that describes a new entity. -/
def Database.addRecord (db : Database) (batchId receiptId : Uuid) (batch : IngestionBatch)
    (files : DeliveryEvidence) (payload : Payload) (record : FinancialRecord)
    (payloadHash : Text) : Database :=
  { db with
    batches := db.batches.set batchId batch
    evidence := db.evidence.set batchId files
    receipts := db.receipts.set receiptId
      (acceptedReceipt batchId batch.receivedAtUtc payload record payloadHash)
    versions := db.versions.set
      ⟨record.entityType.value, record.recordId, record.sourceVersion, payloadHash⟩
      ⟨batchId, receiptId⟩
    resolutions := db.resolutions.set (record.entityType.value, record.recordId)
      ⟨record.sourceVersion, .accepted, some payloadHash⟩
    expectedDays := if batch.reportDate ∈ db.expectedDays then db.expectedDays
      else db.expectedDays ++ [batch.reportDate] }

section

variable {platform : Platform} {db : Database} {batchId receiptId : Uuid} {batch : IngestionBatch}
  {files : DeliveryEvidence} {receivedAtUtc : UtcDateTime} {payload : Payload}
  {record : FinancialRecord} {payloadHash : Text}

theorem holds_acceptedReceipt
    (hparse : parseSourceRecord platform.iso payload (.member record.entityType) = .ok record)
    (hhash : calculatePayloadHash platform.sha256 record = some payloadHash)
    (hid : Trimmed receiptId) :
    Holds platform receiptId
      (acceptedReceipt batchId receivedAtUtc payload record payloadHash) record where
  entityType := rfl
  sourceId := rfl
  sourceVersion := rfl
  payloadHash := hhash
  recordVersion := rfl
  payload := ⟨payload, rfl, hparse⟩
  idNonempty := hid.1
  idStripped := hid.2

/-- An entity with one receipt, which is accepted, is resolved. -/
theorem resolvedBy_singleton {p : Uuid × SourceReceipt} {version : ℤ}
    (hversion : p.2.sourceVersion = some version) (haccepted : p.2.disposition = .accepted) :
    ResolvedBy [p] (some ⟨version, .accepted, some p.2.payloadHash⟩) := by
  have hseen : ∀ v payloadHash, Seen [p] v payloadHash ↔
      v = version ∧ payloadHash = p.2.payloadHash := by
    intro v payloadHash
    simp only [Seen, List.mem_singleton, exists_eq_left, hversion, Option.some.injEq]
    exact and_congr eq_comm eq_comm
  refine ⟨⟨⟨_, (hseen _ _).mpr ⟨rfl, rfl⟩⟩, ?_, .inl ⟨rfl, _, rfl, ?_⟩⟩, ⟨?_, ?_, ?_, ?_⟩⟩
  · intro v payloadHash h
    exact ((hseen _ _).mp h).1.le
  · intro payloadHash
    exact (hseen _ _).trans (and_iff_right rfl)
  · simp [hversion, haccepted]
  · simp [haccepted]
  · simp [hversion, haccepted]
  · simp [haccepted, ExistsUnique]

/-- The receipts of an entity once the record has been added. -/
theorem entityReceipts_addRecord (hreceipt : db.receipts.get? receiptId = none) (a b : Text) :
    (db.addRecord batchId receiptId batch files payload record payloadHash).entityReceipts a b =
      db.entityReceipts a b ++
        if (record.entityType.value, record.recordId) = (a, b) then
          [(receiptId, acceptedReceipt batchId batch.receivedAtUtc payload record payloadHash)]
        else [] := by
  simp only [Database.entityReceipts, Database.addRecord, PyDict.items_set_of_get?_none hreceipt,
    List.filter_append, List.filter_singleton]
  simp [acceptedReceipt]

theorem Settled.addRecord (h : Settled platform db) (hbatch : db.batches.get? batchId = none)
    (hcommitted : batch.ingestionStatus = .committed) (hreceipt : db.receipts.get? receiptId = none)
    (hnew : ∀ p ∈ db.receipts.items, p.2.sourceId ≠ some record.recordId)
    (hholds : Holds platform receiptId
      (acceptedReceipt batchId batch.receivedAtUtc payload record payloadHash) record) :
    Settled platform
      (db.addRecord batchId receiptId batch files payload record payloadHash) := by
  have hledger : Ledger platform { db with
      batches := db.batches.set batchId batch
      evidence := db.evidence.set batchId files
      receipts := db.receipts.set receiptId
        (acceptedReceipt batchId batch.receivedAtUtc payload record payloadHash)
      versions := db.versions.set
        ⟨record.entityType.value, record.recordId, record.sourceVersion, payloadHash⟩
        ⟨batchId, receiptId⟩ } := by
    have hopened := h.ledger.setBatch batchId batch (db.evidence.set batchId files)
      (.inl hcommitted)
    apply hopened.receive
      (p := (receiptId, acceptedReceipt batchId batch.receivedAtUtc payload record payloadHash))
    · exact hreceipt
    · exact .inl (by simp [Database.batchStatus, acceptedReceipt, hcommitted])
    · exact .inr ⟨by simp [acceptedReceipt], record, hholds⟩
    · intro key
      rw [PyDict.get?_set]
      split_ifs with hkey
      · simp [acceptedReceipt, hkey]
      · simp [acceptedReceipt, hkey]
  refine ⟨⟨hledger.counted, hledger.receipts, hledger.versions⟩, fun a b => ?_, fun p hp => ?_⟩
  · rw [entityReceipts_addRecord hreceipt]
    simp only [Database.addRecord, PyDict.get?_set]
    split_ifs with hentity
    · -- The entity has no other receipt.
      obtain ⟨rfl, rfl⟩ := Prod.mk.inj hentity
      have hnone : db.entityReceipts record.entityType.value record.recordId = [] := by
        apply List.eq_nil_iff_forall_not_mem.mpr
        intro p hp
        obtain ⟨hmem, -, -, hid⟩ := Threadline.mem_entityReceipts.mp hp
        exact hnew p hmem hid
      rw [hnone, List.nil_append]
      exact resolvedBy_singleton rfl rfl
    · rw [List.append_nil]
      exact h.resolved a b
  · simp only [Database.addRecord, PyDict.items_set_of_get?_none hbatch, List.mem_append,
      List.mem_singleton] at hp
    rcases hp with hp | rfl
    · exact h.committed p hp
    · exact hcommitted

end

/-! ## The cutoff -/

theorem exists_natText_notMem (texts : List Text) : ∃ n, natText n ∉ texts := by
  have hinfinite : (Set.range natText).Infinite := Set.infinite_range_of_injective natText_injective
  obtain ⟨_, ⟨n, rfl⟩, hn⟩ := hinfinite.exists_notMem_finite texts.finite_toSet
  exact ⟨n, hn⟩

theorem exists_natText_fresh {β : Type} (d : PyDict Text β) : ∃ n, d.get? (natText n) = none := by
  obtain ⟨n, hn⟩ := exists_natText_notMem d.keys
  refine ⟨n, Option.eq_none_iff_forall_ne_some.mpr fun v hv => hn ?_⟩
  exact PyDict.mem_keys_iff.mpr ⟨v, hv⟩

theorem trimmed_natText (n : ℕ) : Trimmed (natText n) := by
  refine ⟨natText_ne_nil n, (strip_of_amountChars fun c hc => ?_).symm⟩
  simp [isAmountChar, natText_digits n c hc]

/-- A batch of one order. -/
def orderBatch (deliveryKey : Text) (receivedAtUtc : UtcDateTime) : IngestionBatch where
  deliveryKey := deliveryKey
  sourceSystem := SourceSystem.threadlineShop.value
  reportType := ReportType.orders.value
  reportDate := receivedAtUtc.date
  originalFilename := txt "orders.json"
  fileChecksum := txt "0"
  manifestChecksum := txt "0"
  declaredRowCount := 1
  observedRowCount := 1
  ingestionStatus := .committed
  sourceRelativePath := some (txt "orders.json")
  receivedAtUtc := receivedAtUtc

section

variable {platform : Platform} {db : Database} {runId : Text} {asOfUtc : UtcDateTime}

/-- After a cutoff that is not the last instant, a batch with a new order can be received. -/
theorem Settled.exists_late_order (h : Settled platform db) (hreads : ReadsTimestamps platform.iso)
    (hlast : asOfUtc ≠ UtcDateTime.last) :
    ∃ db' batchId batch p order, LaterBatch platform asOfUtc db db' batchId batch [p] ∧
      p ∈ db'.receipts.items ∧ p.2.disposition ≠ .quarantined ∧
      Holds platform p.1 p.2 (.order order) ∧
      (∀ q ∈ db'.receipts.items, q.2.sourceId = some order.orderId → q = p) ∧
      ∀ q ∈ db.receipts.items, q.2.sourceId ≠ some order.orderId := by
  obtain ⟨s, instant, htrimmed, hiso⟩ := hreads
  obtain ⟨orderNumber, horderNumber⟩ :=
    exists_natText_notMem (db.receipts.values.filterMap SourceReceipt.sourceId)
  obtain ⟨batchNumber, hbatch⟩ := exists_natText_fresh db.batches
  obtain ⟨keyNumber, hkeyNumber⟩ :=
    exists_natText_notMem (db.batches.values.map IngestionBatch.deliveryKey)
  obtain ⟨receiptNumber, hreceipt⟩ := exists_natText_fresh db.receipts
  obtain ⟨order, hparse, hid⟩ := parse_orderPayloadOf (trimmed_natText orderNumber) htrimmed hiso
  obtain ⟨payloadHash, hhash⟩ : ∃ payloadHash,
      calculatePayloadHash platform.sha256 (.order order) = some payloadHash := by
    apply Option.isSome_iff_exists.mp
    apply (hash_isSome_iff hparse).mpr
    intro field hfield
    obtain rfl := List.mem_singleton.mp hfield
    exact encodableText_natText orderNumber
  have hnew : ∀ q ∈ db.receipts.items,
      q.2.sourceId ≠ some (FinancialRecord.order order).recordId := by
    intro q hq hsource
    rw [FinancialRecord.recordId, hid] at hsource
    exact horderNumber (List.mem_filterMap.mpr ⟨q.2, List.mem_map_of_mem hq, hsource⟩)
  have hholds : Holds platform (natText receiptNumber) (acceptedReceipt (natText batchNumber)
      UtcDateTime.last (orderPayloadOf (natText orderNumber) s) (.order order) payloadHash)
      (.order order) :=
    holds_acceptedReceipt hparse hhash (trimmed_natText receiptNumber)
  have hitems := PyDict.items_set_of_get?_none hreceipt (v := acceptedReceipt (natText batchNumber)
    UtcDateTime.last (orderPayloadOf (natText orderNumber) s) (.order order) payloadHash)
  have hsettled : Settled platform (db.addRecord (natText batchNumber) (natText receiptNumber)
      (orderBatch (natText keyNumber) UtcDateTime.last) ⟨⟨#[]⟩, ⟨#[]⟩⟩
      (orderPayloadOf (natText orderNumber) s) (.order order) payloadHash) :=
    h.addRecord hbatch rfl hreceipt hnew hholds
  refine ⟨_, natText batchNumber, orderBatch (natText keyNumber) UtcDateTime.last,
    (natText receiptNumber, _), order,
    ⟨hbatch, ?_, ?_, ?_, rfl, ⟨_, rfl⟩, ?_, rfl, hsettled⟩, ?_, ?_, hholds, ?_, hnew⟩
  · intro b hb hkey
    exact hkeyNumber (List.mem_map.mpr ⟨b, hb, hkey⟩)
  · exact lt_of_le_of_ne (UtcDateTime.le_last asOfUtc) hlast
  · intro p hp
    obtain rfl := List.mem_singleton.mp hp
    exact ⟨rfl, rfl⟩
  · exact congrArg (List.map coreRow) hitems
  · exact hitems ▸ List.mem_append_right _ (List.mem_singleton_self _)
  · intro h
    cases h
  · intro q hq hsource
    rcases List.mem_append.mp (hitems ▸ hq) with hq | hq
    · exact absurd hsource (hnew q hq)
    · exact List.mem_singleton.mp hq

end

/-! ## A late order -/

namespace CancelledDay

open PaidDay (september atTen valid14 valid15 valid16)

/-- The orders arrive a day after the cutoff. -/
def lateOrders : IngestionCall := orders.ingestion (atTen (september 16 valid16)) orders.name

/-- The rebuild for the payments, whose cutoff is their receipt. -/
def paymentsCandidate (events : List DatabaseEvent) : Except BuildError ReconciliationResult :=
  (Database.after inbox.platform events).buildCandidate inbox.platform (txt "run-1")
    (atTen (september 15 valid15))

theorem paymentsCandidate_before : ∃ candidate,
    paymentsCandidate (received payments) = .ok candidate ∧ candidate.transactions = [] := by
  have hany : ((paymentsCandidate (received payments)).toOption.any fun candidate =>
      candidate.transactions = []) = true := by decide +kernel
  obtain ⟨candidate, hcandidate, hempty⟩ := (Option.any_eq_true _ _).mp hany
  exact ⟨candidate, toOption_eq_some.mp hcandidate, of_decide_eq_true hempty⟩

theorem paymentsCandidate_after : ∃ candidate,
    paymentsCandidate (received payments ++ [.ingest lateOrders]) = .ok candidate ∧
      candidate.transactions ≠ [] := by
  have hany : ((paymentsCandidate (received payments ++ [.ingest lateOrders])).toOption.any
      fun candidate => candidate.transactions ≠ []) = true := by decide +kernel
  obtain ⟨candidate, hcandidate, hrows⟩ := (Option.any_eq_true _ _).mp hany
  exact ⟨candidate, toOption_eq_some.mp hcandidate, of_decide_eq_true hrows⟩

end CancelledDay

end Threadline
