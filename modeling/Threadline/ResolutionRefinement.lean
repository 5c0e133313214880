import Threadline.DatabaseRuns

/-!
# Entity resolution refines canonicalization

The rows of `entity_resolution` and the stored dispositions, which ingestion
keeps up to date entity by entity, are those that canonicalization computes from
all receipts.
-/

open PyText PyJson PyCalendar PySorted PyExcept

namespace Threadline

/-! ## Rebuilt receipts -/

section

variable {platform : Platform} {db : Database}

/-- A receipt holds one record. -/
theorem Holds.unique {receiptId : Uuid} {receipt : SourceReceipt} {a b : FinancialRecord}
    (ha : Holds platform receiptId receipt a) (hb : Holds platform receiptId receipt b) : a = b := by
  obtain ⟨x, hx, hxa⟩ := ha.payload
  obtain ⟨y, hy, hyb⟩ := hb.payload
  have htype : a.entityType = b.entityType :=
    EntityType.value_injective (Option.some.inj (ha.entityType.symm.trans hb.entityType))
  obtain rfl : x = y := PyDict.items_injective (Json.obj.inj (hx.symm.trans hy))
  rw [htype] at hxa
  exact Except.ok.inj (hxa.symm.trans hyb)

/-- An envelope holds the record of a stored receipt. -/
structure Envelops (p : Uuid × SourceReceipt) (e : RecordEnvelope platform.sha256) : Prop where
  holds : Holds platform p.1 p.2 e.record
  receiptId : e.receiptId = p.1
  payloadHash : e.payloadHash = p.2.payloadHash

theorem Holds.rebuilds {p : Uuid × SourceReceipt} {record : FinancialRecord}
    (h : Holds platform p.1 p.2 record) :
    ∃ e, rebuildEnvelope platform p.1 p.2 = .ok e ∧ Envelops p e := by
  obtain ⟨payload, hpayload, hparse⟩ := h.payload
  let e : RecordEnvelope platform.sha256 :=
    ⟨p.1, record, p.2.payloadHash, h.idNonempty, h.idStripped, h.payloadHash⟩
  have hmake : RecordEnvelope.make? platform.sha256 p.1 record = .ok e := by
    unfold RecordEnvelope.make?
    rw [dif_pos ⟨h.idNonempty, h.idStripped⟩]
    split
    · next hash hhash =>
      obtain rfl := Option.some.inj (hhash.symm.trans h.payloadHash)
      rfl
    · next hhash => cases hhash.symm.trans h.payloadHash
  have htype : p.2.entityType.bind entityTypeOf = some record.entityType := by
    rw [h.entityType, Option.bind_some]
    exact entityTypeOf_eq_some.mpr rfl
  refine ⟨e, ?_, h, rfl, rfl⟩
  unfold rebuildEnvelope
  rw [htype]
  refine bind_eq_ok.mpr ⟨payload, ?_, bind_eq_ok.mpr ⟨record, mapError_eq_ok.mpr hparse, ?_⟩⟩
  · rw [hpayload, storedPayload, PyDict.ofPairs_items]
  · exact bind_eq_ok.mpr ⟨⟨⟩, require_eq_ok.mpr h.sourceId, bind_eq_ok.mpr ⟨⟨⟩,
      require_eq_ok.mpr h.sourceVersion, mapError_eq_ok.mpr hmake⟩⟩

theorem Settled.batchStatus (h : Settled platform db) {p : Uuid × SourceReceipt}
    (hp : p ∈ db.receipts.items) : db.batchStatus p.2.batchId = some .committed := by
  have hcounted := h.ledger.counted p hp
  unfold Database.Counted Database.batchStatus at hcounted
  unfold Database.batchStatus
  cases hget : db.batches.get? p.2.batchId with
  | none => simp [hget] at hcounted
  | some batch =>
    rw [Option.map_some, h.committed (p.2.batchId, batch) (PyDict.mem_items_iff.mpr hget)]

/-- A rebuild reads every receipt, once all batches are committed. -/
theorem Settled.mem_finalizedReceipts (h : Settled platform db) {p : Uuid × SourceReceipt} :
    p ∈ db.finalizedReceipts ↔ p ∈ db.receipts.items := by
  simp only [Database.finalizedReceipts, mem_sortedBy, List.mem_filter, and_iff_left_iff_imp]
  intro hp
  simp [Database.finalized, h.batchStatus hp]

/-- No receipt is left pending: it is in quarantine, or holds a record with a disposition. -/
theorem Settled.not_pending (h : Settled platform db) {p : Uuid × SourceReceipt}
    (hp : p ∈ db.receipts.items) : p.2.disposition ≠ .pending := by
  obtain hrejected | ⟨-, record, hholds⟩ := h.ledger.receipts p hp
  · rw [hrejected.disposition]
    exact fun h => nomatch h
  · have hmem : p ∈ db.entityReceipts record.entityType.value record.recordId :=
      mem_entityReceipts.mpr ⟨hp, by rw [hholds.recordVersion]; rfl, hholds.entityType,
        hholds.sourceId⟩
    have hresolved := h.resolved record.entityType.value record.recordId
    cases hrow : db.resolutions.get? (record.entityType.value, record.recordId) with
    | none =>
      rw [hrow] at hresolved
      have hnil : db.entityReceipts record.entityType.value record.recordId = [] := hresolved
      rw [hnil] at hmem
      cases hmem
    | some row =>
      rw [hrow] at hresolved
      obtain ⟨-, hdisposed⟩ : Wins _ row ∧ Disposed _ row := hresolved
      intro hpending
      -- At the winning version it is conflicted or selected, below it stale.
      by_cases hv : p.2.sourceVersion = some row.winningVersion
      · cases hstate : row.resolutionState with
        | accepted =>
          have hselected := (hdisposed.selected p hmem).mpr ⟨hv, hstate⟩
          simp [hpending] at hselected
        | conflicted =>
          have hconflicted := (hdisposed.conflicted p hmem).mpr ⟨hv, hstate⟩
          simp [hpending] at hconflicted
      · have hstale := (hdisposed.stale p hmem).mpr hv
        simp [hpending] at hstale

theorem Settled.rebuildReceipt (h : Settled platform db) {p : Uuid × SourceReceipt}
    (hp : p ∈ db.receipts.items) :
    (p.2.disposition = .quarantined ∧ ∃ q, db.rebuildReceipt platform p = .ok (.inl q)) ∨
    (p.2.disposition ≠ .quarantined ∧
      ∃ e, db.rebuildReceipt platform p = .ok (.inr e) ∧ Envelops p e) := by
  unfold Database.rebuildReceipt
  obtain hrejected | ⟨hdisposition, record, hholds⟩ := h.ledger.receipts p hp
  · obtain ⟨q, hq⟩ := hrejected.rebuilt
    refine .inl ⟨hrejected.disposition, q, ?_⟩
    rw [if_pos hrejected.disposition, hq]
    rfl
  · obtain ⟨e, he, henvelops⟩ := hholds.rebuilds
    refine .inr ⟨hdisposition, e, ?_, henvelops⟩
    rw [if_neg hdisposition, if_neg (not_not.mpr (h.batchStatus hp)), if_neg (h.not_pending hp), he]
    rfl

theorem filterMap_sum_length {α β : Type*} (xs : List (α ⊕ β)) :
    (xs.filterMap Sum.getRight?).length + (xs.filterMap Sum.getLeft?).length = xs.length := by
  induction xs with
  | nil => rfl
  | cons x xs ih =>
    cases x with
    | inl a =>
      rw [List.filterMap_cons_none (by rfl), List.filterMap_cons_some (by rfl)]
      simp only [List.length_cons]
      omega
    | inr b =>
      rw [List.filterMap_cons_some (by rfl), List.filterMap_cons_none (by rfl)]
      simp only [List.length_cons]
      omega

/-- The receipts of a rebuild that returns, each rebuilt. -/
theorem rebuildReceipts_eq_ok {quarantine : List QuarantinedRecord}
    {envelopes : List (RecordEnvelope platform.sha256)} :
    db.rebuildReceipts platform = .ok (quarantine, envelopes) ↔
      ∃ rebuilt, db.finalizedReceipts.mapM (db.rebuildReceipt platform) = .ok rebuilt ∧
        quarantine = rebuilt.filterMap Sum.getLeft? ∧
          envelopes = rebuilt.filterMap Sum.getRight? := by
  simp only [Database.rebuildReceipts, bind_eq_ok, require_eq_ok]
  constructor
  · rintro ⟨rebuilt, hrebuilt, -, -, h⟩
    obtain ⟨rfl, rfl⟩ := Prod.mk.inj (Except.ok.inj h)
    exact ⟨rebuilt, hrebuilt, rfl, rfl⟩
  · rintro ⟨rebuilt, hrebuilt, rfl, rfl⟩
    refine ⟨rebuilt, hrebuilt, ⟨⟩, ?_, rfl⟩
    rw [filterMap_sum_length, (mapM_eq_ok.mp hrebuilt).length_eq]

/-- The envelopes of a rebuild are those of the receipts that are not in quarantine. -/
theorem Settled.rebuildReceipts (h : Settled platform db) :
    ∃ quarantine envelopes, db.rebuildReceipts platform = .ok (quarantine, envelopes) := by
  obtain ⟨rebuilt, hrebuilt⟩ : ∃ rebuilt,
      db.finalizedReceipts.mapM (db.rebuildReceipt platform) = .ok rebuilt :=
    exists_mapM_eq_ok fun p hp => by
      obtain ⟨-, q, hq⟩ | ⟨-, e, he, -⟩ := h.rebuildReceipt (h.mem_finalizedReceipts.mp hp)
      · exact ⟨_, hq⟩
      · exact ⟨_, he⟩
  exact ⟨_, _, rebuildReceipts_eq_ok.mpr ⟨rebuilt, hrebuilt, rfl, rfl⟩⟩

variable {quarantine : List QuarantinedRecord} {envelopes : List (RecordEnvelope platform.sha256)}

theorem Settled.mem_envelopes (h : Settled platform db)
    (hrebuilt : db.rebuildReceipts platform = .ok (quarantine, envelopes))
    {e : RecordEnvelope platform.sha256} : e ∈ envelopes ↔
      ∃ p ∈ db.receipts.items, p.2.disposition ≠ .quarantined ∧ Envelops p e := by
  obtain ⟨rebuilt, hmapM, -, rfl⟩ := rebuildReceipts_eq_ok.mp hrebuilt
  rw [List.mem_filterMap]
  constructor
  · rintro ⟨s, hs, he⟩
    obtain ⟨p, hp, hps⟩ := (mem_of_mapM_eq_ok hmapM).mp hs
    have hp := h.mem_finalizedReceipts.mp hp
    obtain ⟨-, q, hq⟩ | ⟨hdisposition, e', he', henvelops⟩ := h.rebuildReceipt hp
    · obtain rfl := Except.ok.inj (hps.symm.trans hq)
      cases he
    · obtain rfl := Except.ok.inj (hps.symm.trans he')
      obtain rfl := Option.some.inj he
      exact ⟨p, hp, hdisposition, henvelops⟩
  · rintro ⟨p, hp, hdisposition, henvelops⟩
    obtain ⟨hquarantined, -⟩ | ⟨-, e', he', henvelops'⟩ := h.rebuildReceipt hp
    · exact absurd hquarantined hdisposition
    · obtain rfl : e' = e := RecordEnvelope.ext
        (henvelops'.receiptId.trans henvelops.receiptId.symm)
        (henvelops'.holds.unique henvelops.holds)
      exact ⟨.inr e', (mem_of_mapM_eq_ok hmapM).mpr ⟨p, h.mem_finalizedReceipts.mpr hp, he'⟩, rfl⟩

/-! ## Resolution of the envelopes -/

theorem identity_eq_iff {a b : FinancialRecord} :
    a.identity = b.identity ↔ a.entityType = b.entityType ∧ a.recordId = b.recordId := by
  constructor
  · intro h
    exact ⟨congrArg Identity.entityType h, congrArg Identity.sourceId h⟩
  · rintro ⟨htype, hid⟩
    exact FinancialRecord.identity_eq htype hid

/-- The receipts of an entity are those with envelopes of its identity. -/
theorem Settled.mem_entityReceipts (h : Settled platform db)
    (hrebuilt : db.rebuildReceipts platform = .ok (quarantine, envelopes))
    {r : FinancialRecord} {p : Uuid × SourceReceipt} :
    p ∈ db.entityReceipts r.entityType.value r.recordId ↔
      p ∈ db.receipts.items ∧ ∃ e ∈ envelopes, Envelops p e ∧ e.identity = r.identity := by
  constructor
  · intro hp
    obtain ⟨hdisposition, record, hholds, htype, hid⟩ := h.ledger.holds hp
    have hmem := (Threadline.mem_entityReceipts.mp hp).1
    obtain ⟨e, -, henvelops⟩ := hholds.rebuilds
    refine ⟨hmem, e, (h.mem_envelopes hrebuilt).mpr ⟨p, hmem, hdisposition, henvelops⟩, henvelops,
      identity_eq_iff.mpr ?_⟩
    obtain rfl := henvelops.holds.unique hholds
    exact ⟨EntityType.value_injective htype, hid⟩
  · rintro ⟨hmem, e, he, henvelops, hidentity⟩
    obtain ⟨htype, hid⟩ := identity_eq_iff.mp hidentity
    refine Threadline.mem_entityReceipts.mpr ⟨hmem, by rw [henvelops.holds.recordVersion]; rfl, ?_, ?_⟩
    · rw [henvelops.holds.entityType, htype]
    · rw [henvelops.holds.sourceId, hid]

/-- What is seen of an entity is what its envelopes carry. -/
theorem Settled.seen_iff (h : Settled platform db)
    (hrebuilt : db.rebuildReceipts platform = .ok (quarantine, envelopes))
    {r : FinancialRecord} {version : ℤ} {payloadHash : Text} :
    Seen (db.entityReceipts r.entityType.value r.recordId) version payloadHash ↔
      ∃ e ∈ envelopes, e.identity = r.identity ∧ e.sourceVersion = version ∧
        e.payloadHash = payloadHash := by
  constructor
  · rintro ⟨p, hp, hversion, rfl⟩
    obtain ⟨-, e, he, henvelops, hidentity⟩ := (h.mem_entityReceipts hrebuilt).mp hp
    refine ⟨e, he, hidentity, ?_, henvelops.payloadHash⟩
    exact Option.some.inj (henvelops.holds.sourceVersion.symm.trans hversion)
  · rintro ⟨e, he, hidentity, rfl, rfl⟩
    obtain ⟨p, hp, -, henvelops⟩ := (h.mem_envelopes hrebuilt).mp he
    refine ⟨p, (h.mem_entityReceipts hrebuilt).mpr ⟨hp, e, he, henvelops, hidentity⟩, ?_, ?_⟩
    · exact henvelops.holds.sourceVersion
    · exact henvelops.payloadHash.symm

/-- The receipts and the row of the entity of an envelope. -/
theorem Settled.row (h : Settled platform db)
    (hrebuilt : db.rebuildReceipts platform = .ok (quarantine, envelopes))
    {e : RecordEnvelope platform.sha256} (he : e ∈ envelopes) :
    ∃ row, db.resolutions.get? (e.record.entityType.value, e.record.recordId) = some row ∧
      Wins (db.entityReceipts e.record.entityType.value e.record.recordId) row ∧
      Disposed (db.entityReceipts e.record.entityType.value e.record.recordId) row := by
  have hresolved := h.resolved e.record.entityType.value e.record.recordId
  obtain ⟨p, hp, -, henvelops⟩ := (h.mem_envelopes hrebuilt).mp he
  have hmem := (h.mem_entityReceipts hrebuilt (r := e.record)).mpr ⟨hp, e, he, henvelops, rfl⟩
  cases hrow : db.resolutions.get? (e.record.entityType.value, e.record.recordId) with
  | none =>
    rw [hrow] at hresolved
    have hnil : db.entityReceipts e.record.entityType.value e.record.recordId = [] := hresolved
    rw [hnil] at hmem
    cases hmem
  | some row =>
    rw [hrow] at hresolved
    exact ⟨row, rfl, hresolved⟩

/-- A receipt is superseded when its version does not win. -/
theorem Settled.superseded_iff (h : Settled platform db)
    (hrebuilt : db.rebuildReceipts platform = .ok (quarantine, envelopes))
    {e : RecordEnvelope platform.sha256} (he : e ∈ envelopes) {row : EntityResolution}
    (hwins : Wins (db.entityReceipts e.record.entityType.value e.record.recordId) row) :
    Superseded envelopes e ↔ e.sourceVersion ≠ row.winningVersion := by
  have hle := hwins.highest e.sourceVersion e.payloadHash
    ((h.seen_iff hrebuilt).mpr ⟨e, he, rfl, rfl, rfl⟩)
  constructor
  · rintro ⟨f, hf, hidentity, hlt⟩
    have hf := hwins.highest f.sourceVersion f.payloadHash
      ((h.seen_iff hrebuilt).mpr ⟨f, hf, hidentity, rfl, rfl⟩)
    exact (hlt.trans_le hf).ne
  · intro hne
    obtain ⟨payloadHash, hseen⟩ := hwins.seen
    obtain ⟨f, hf, hidentity, hversion, -⟩ := (h.seen_iff hrebuilt).mp hseen
    exact ⟨f, hf, hidentity, hversion ▸ lt_of_le_of_ne hle hne⟩

/-- A receipt is contradicted when its version wins in conflict. -/
theorem Settled.contradicted_iff (h : Settled platform db)
    (hrebuilt : db.rebuildReceipts platform = .ok (quarantine, envelopes))
    {e : RecordEnvelope platform.sha256} (he : e ∈ envelopes) {row : EntityResolution}
    (hwins : Wins (db.entityReceipts e.record.entityType.value e.record.recordId) row) :
    Contradicted envelopes e ↔
      e.sourceVersion = row.winningVersion ∧ row.resolutionState = .conflicted := by
  rw [Contradicted, h.superseded_iff hrebuilt he hwins, not_not]
  refine and_congr_right fun hversion => ?_
  have hseen := (h.seen_iff hrebuilt).mpr ⟨e, he, rfl, hversion, rfl⟩
  constructor
  · rintro ⟨f, hf, hidentity, hfv, hne⟩
    obtain ⟨-, payloadHash, -, hall⟩ | ⟨hconflicted, -⟩ := hwins.selected
    · have hfseen := (h.seen_iff hrebuilt).mpr ⟨f, hf, hidentity, hfv.trans hversion, rfl⟩
      exact absurd (((hall _).mp hfseen).trans ((hall _).mp hseen).symm) hne
    · exact hconflicted
  · intro hconflicted
    obtain ⟨haccepted, -⟩ | ⟨-, -, a, b, hab, ha, hb⟩ := hwins.selected
    · cases hconflicted.symm.trans haccepted
    · obtain ⟨f, hf, hfi, hfv, rfl⟩ := (h.seen_iff hrebuilt).mp ha
      obtain ⟨g, hg, hgi, hgv, rfl⟩ := (h.seen_iff hrebuilt).mp hb
      by_cases hfe : f.payloadHash = e.payloadHash
      · exact ⟨g, hg, hgi, hgv.trans hversion.symm, fun hge => hab (hfe.trans hge.symm)⟩
      · exact ⟨f, hf, hfi, hfv.trans hversion.symm, hfe⟩

/-- Receipt IDs tell the envelopes of a rebuild apart. -/
theorem Settled.receiptsAgree (h : Settled platform db)
    (hrebuilt : db.rebuildReceipts platform = .ok (quarantine, envelopes)) :
    ReceiptsAgree envelopes := by
  intro a ha b hb hid
  obtain ⟨p, hp, -, hpa⟩ := (h.mem_envelopes hrebuilt).mp ha
  obtain ⟨q, hq, -, hqb⟩ := (h.mem_envelopes hrebuilt).mp hb
  have hpq : p.1 = q.1 := hpa.receiptId.symm.trans (hid.trans hqb.receiptId)
  obtain rfl := List.inj_on_of_nodup_map db.receipts.nodup_keys hp hq hpq
  rw [RecordEnvelope.ext hid (hpa.holds.unique hqb.holds)]

end

/-! ## Refinement -/

/-- The row that goes with what canonicalization decided about an identity. -/
def CanonicalizationResult.resolution (sha256 : Bytes → Text) (result : CanonicalizationResult)
    (i : Identity) : Option EntityResolution :=
  match result.canonicalRecords.find? fun r => r.identity = i with
  | some r => some ⟨r.sourceVersion, .accepted, calculatePayloadHash sha256 r⟩
  | none => (result.conflicts.find? fun c => c.identity = i).map fun c =>
      ⟨c.sourceVersion, .conflicted, none⟩

/-- Equal dispositions, up to which copy of the winning payload is the accepted one. -/
def StoredDisposition.Agrees : StoredDisposition → EvidenceDisposition → Prop
  | .stale, .stale => True
  | .conflicted, .conflicted => True
  | .accepted, .accepted | .accepted, .duplicate => True
  | .duplicate, .accepted | .duplicate, .duplicate => True
  | _, _ => False

/-- The ingestion tables hold what canonicalization decides about their receipts. -/
structure Refines (platform : Platform) (db : Database)
    (envelopes : List (RecordEnvelope platform.sha256)) (result : CanonicalizationResult) :
    Prop where
  canonicalized : canonicalize envelopes = .ok result
  envelopes_ids : ∀ receiptId, receiptId ∈ envelopes.map RecordEnvelope.receiptId ↔
    ∃ p ∈ db.receipts.items, p.1 = receiptId ∧ p.2.disposition ≠ .quarantined
  keys : ∀ key, key ∈ db.resolutions.keys ↔
    ∃ e ∈ envelopes, (e.record.entityType.value, e.record.recordId) = key
  rows : ∀ r : FinancialRecord, db.resolutions.get? (r.entityType.value, r.recordId) =
    result.resolution platform.sha256 r.identity
  dispositions : ∀ p ∈ db.receipts.items, p.2.disposition ≠ .quarantined →
    ∃ v ∈ result.evidence, v.receiptId = p.1 ∧ p.2.disposition.Agrees v.disposition
  one_accepted : ∀ r ∈ result.canonicalRecords, ∃! p, p ∈ db.receipts.items ∧
    p.2.entityType = some r.entityType.value ∧ p.2.sourceId = some r.recordId ∧
      p.2.disposition = .accepted
  not_pending : ∀ p ∈ db.receipts.items, db.batchStatus p.2.batchId = some .committed ∧
    p.2.disposition ≠ .pending

theorem find?_key_eq_some {α κ : Type*} [DecidableEq κ] {key : α → κ} {xs : List α}
    (hn : (xs.map key).Nodup) {a : α} (ha : a ∈ xs) :
    xs.find? (fun x => key x = key a) = some a := by
  rw [← List.head?_filter, PyDict.filter_key_eq_singleton hn ha, List.head?_cons]

section

variable {platform : Platform} {db : Database} {quarantine : List QuarantinedRecord}
  {envelopes : List (RecordEnvelope platform.sha256)} {result : CanonicalizationResult}

namespace Canonicalizes

theorem not_canonical (h : Canonicalizes envelopes result) {i : Identity}
    (hi : ConflictedIdentity envelopes i ∨ ∀ e ∈ envelopes, e.identity ≠ i) :
    (result.canonicalRecords.find? fun r => r.identity = i) = none := by
  rw [List.find?_eq_none]
  intro r hr hri
  obtain rfl := of_decide_eq_true hri
  obtain ⟨hnot, e, he, rfl⟩ := h.canonical_seen r hr
  obtain hconflicted | hunseen := hi
  · exact hnot hconflicted
  · exact hunseen e he rfl

theorem resolution_of_unseen (h : Canonicalizes envelopes result) {i : Identity}
    (hi : ∀ e ∈ envelopes, e.identity ≠ i) : result.resolution platform.sha256 i = none := by
  have hconflicts : (result.conflicts.find? fun c => c.identity = i) = none := by
    rw [List.find?_eq_none]
    intro c hc hci
    obtain rfl := of_decide_eq_true hci
    obtain ⟨e, he, -, rfl⟩ := (h.mem_conflicts c).mp hc
    exact hi e he rfl
  rw [CanonicalizationResult.resolution, h.not_canonical (.inr hi), hconflicts]
  rfl

theorem resolution_of_contradicted (h : Canonicalizes envelopes result)
    {e : RecordEnvelope platform.sha256} (he : e ∈ envelopes) (hc : Contradicted envelopes e) :
    result.resolution platform.sha256 e.identity = some ⟨e.sourceVersion, .conflicted, none⟩ := by
  have hfind := find?_key_eq_some h.conflicts_nodup
    ((h.mem_conflicts (conflictOf envelopes e)).mpr ⟨e, he, hc, rfl⟩)
  rw [CanonicalizationResult.resolution, h.not_canonical (.inl ⟨e, he, rfl, hc⟩)]
  exact congrArg (Option.map _) hfind

theorem resolution_of_accepted (h : Canonicalizes envelopes result)
    {e : RecordEnvelope platform.sha256} (he : e ∈ envelopes)
    (hn : ¬ ConflictedIdentity envelopes e.identity) :
    ∃ a ∈ envelopes, a.identity = e.identity ∧ Disposes envelopes a .accepted ∧
      a.record ∈ result.canonicalRecords ∧ result.resolution platform.sha256 e.identity =
        some ⟨a.sourceVersion, .accepted, some a.payloadHash⟩ := by
  obtain ⟨a, ha, hi, haccepted, hfilter⟩ := h.one_canonical e he hn
  have hmem : a.record ∈ result.canonicalRecords.filter fun r => r.identity = e.identity :=
    hfilter ▸ List.mem_singleton_self _
  refine ⟨a, ha, hi, haccepted, (List.mem_filter.mp hmem).1, ?_⟩
  rw [CanonicalizationResult.resolution, ← List.head?_filter, hfilter, List.head?_cons]
  exact congrArg (fun payloadHash => some (EntityResolution.mk _ .accepted payloadHash))
    a.payloadHash_eq

end Canonicalizes

/-- The receipt of an envelope, among those of its entity. -/
theorem Settled.receipt (h : Settled platform db)
    (hrebuilt : db.rebuildReceipts platform = .ok (quarantine, envelopes))
    {p : Uuid × SourceReceipt} (hp : p ∈ db.receipts.items)
    (hdisposition : p.2.disposition ≠ .quarantined) :
    ∃ e ∈ envelopes, Envelops p e ∧
      p ∈ db.entityReceipts e.record.entityType.value e.record.recordId := by
  obtain hrejected | ⟨-, record, hholds⟩ := h.ledger.receipts p hp
  · exact absurd hrejected.disposition hdisposition
  · obtain ⟨e, -, henvelops⟩ := hholds.rebuilds
    have he := (h.mem_envelopes hrebuilt).mpr ⟨p, hp, hdisposition, henvelops⟩
    exact ⟨e, he, henvelops, (h.mem_entityReceipts hrebuilt).mpr ⟨hp, e, he, henvelops, rfl⟩⟩

/-- An entity is conflicted when its row is. -/
theorem Settled.conflictedIdentity_iff (h : Settled platform db)
    (hrebuilt : db.rebuildReceipts platform = .ok (quarantine, envelopes))
    {e : RecordEnvelope platform.sha256} {row : EntityResolution}
    (hwins : Wins (db.entityReceipts e.record.entityType.value e.record.recordId) row) :
    ConflictedIdentity envelopes e.identity ↔ row.resolutionState = .conflicted := by
  have hcontradicted : ∀ f ∈ envelopes, f.identity = e.identity →
      (Contradicted envelopes f ↔
        f.sourceVersion = row.winningVersion ∧ row.resolutionState = .conflicted) := by
    intro f hf hi
    obtain ⟨htype, hid⟩ := identity_eq_iff.mp hi
    rw [← htype, ← hid] at hwins
    exact h.contradicted_iff hrebuilt hf hwins
  constructor
  · rintro ⟨f, hf, hi, hc⟩
    exact ((hcontradicted f hf hi).mp hc).2
  · intro hstate
    obtain ⟨payloadHash, hseen⟩ := hwins.seen
    obtain ⟨f, hf, hi, hversion, -⟩ := (h.seen_iff hrebuilt).mp hseen
    exact ⟨f, hf, hi, (hcontradicted f hf hi).mpr ⟨hversion, hstate⟩⟩

/-- The stored row of an entity is the one that canonicalization decides on. -/
theorem Settled.rows (h : Settled platform db)
    (hrebuilt : db.rebuildReceipts platform = .ok (quarantine, envelopes))
    (hcanonical : Canonicalizes envelopes result) (r : FinancialRecord) :
    db.resolutions.get? (r.entityType.value, r.recordId) =
      result.resolution platform.sha256 r.identity := by
  by_cases hseen : ∃ e ∈ envelopes, e.identity = r.identity
  · obtain ⟨e, he, hi⟩ := hseen
    obtain ⟨htype, hid⟩ := identity_eq_iff.mp hi
    obtain ⟨row, hrow, hwins, -⟩ := h.row hrebuilt he
    rw [← hi, ← htype, ← hid, hrow]
    obtain ⟨version, state, selected⟩ := row
    have hconflicted := h.conflictedIdentity_iff hrebuilt hwins
    obtain ⟨rfl, payloadHash, rfl, hall⟩ | ⟨rfl, rfl, -⟩ := hwins.selected
    · obtain ⟨a, ha, hai, haccepted, -, hresolution⟩ :=
        hcanonical.resolution_of_accepted he fun hc => nomatch hconflicted.mp hc
      obtain ⟨hat, haid⟩ := identity_eq_iff.mp hai
      have hversion : a.sourceVersion = version := by
        rw [← hat, ← haid] at hwins
        exact not_not.mp ((h.superseded_iff hrebuilt ha hwins).not.mp haccepted.1)
      have hhash : a.payloadHash = payloadHash :=
        (hall _).mp ((h.seen_iff hrebuilt).mpr ⟨a, ha, hai, hversion, rfl⟩)
      rw [hresolution, hversion, hhash]
    · obtain ⟨f, hf, hfi, hc⟩ := hconflicted.mpr rfl
      obtain ⟨hft, hfid⟩ := identity_eq_iff.mp hfi
      have hversion : f.sourceVersion = version := by
        rw [← hft, ← hfid] at hwins
        exact ((h.contradicted_iff hrebuilt hf hwins).mp hc).1
      rw [← hfi, hcanonical.resolution_of_contradicted hf hc, hversion]
  · have hnone : ∀ e ∈ envelopes, e.identity ≠ r.identity := fun e he hi => hseen ⟨e, he, hi⟩
    rw [hcanonical.resolution_of_unseen hnone]
    have hempty : db.entityReceipts r.entityType.value r.recordId = [] := by
      refine List.eq_nil_iff_forall_not_mem.mpr fun p hp => ?_
      obtain ⟨-, e, he, -, hi⟩ := (h.mem_entityReceipts hrebuilt).mp hp
      exact hnone e he hi
    have hresolved := h.resolved r.entityType.value r.recordId
    cases hrow : db.resolutions.get? (r.entityType.value, r.recordId) with
    | none => rfl
    | some row =>
      rw [hrow, hempty] at hresolved
      obtain ⟨⟨⟨_, _, hp, -⟩, -, -⟩, -⟩ : Wins [] row ∧ Disposed [] row := hresolved
      cases hp

/-- The stored dispositions are those of the evidence. -/
theorem Settled.dispositions (h : Settled platform db)
    (hrebuilt : db.rebuildReceipts platform = .ok (quarantine, envelopes))
    (hcanonical : Canonicalizes envelopes result) {p : Uuid × SourceReceipt}
    (hp : p ∈ db.receipts.items) (hdisposition : p.2.disposition ≠ .quarantined) :
    ∃ v ∈ result.evidence, v.receiptId = p.1 ∧ p.2.disposition.Agrees v.disposition := by
  obtain ⟨e, he, henvelops, hmem⟩ := h.receipt hrebuilt hp hdisposition
  obtain ⟨row, -, hwins, hdisposed⟩ := h.row hrebuilt he
  obtain ⟨v, hv, hvid⟩ := List.mem_map.mp
    ((hcanonical.mem_ids e.receiptId).mpr (List.mem_map_of_mem he))
  refine ⟨v, hv, hvid.trans henvelops.receiptId, ?_⟩
  have hversion : p.2.sourceVersion = some e.sourceVersion := henvelops.holds.sourceVersion
  have hsuperseded := h.superseded_iff hrebuilt he hwins
  have hcontradicted := h.contradicted_iff hrebuilt he hwins
  by_cases hs : Superseded envelopes e
  · rw [(hcanonical.stale_iff e he v hv hvid).mpr hs, (hdisposed.stale p hmem).mpr (by
      rw [hversion]
      exact fun heq => hsuperseded.mp hs (Option.some.inj heq))]
    trivial
  · have hwinning : p.2.sourceVersion = some row.winningVersion :=
      hversion.trans (congrArg some (not_not.mp (hsuperseded.not.mp hs)))
    by_cases hc : Contradicted envelopes e
    · rw [(hcanonical.conflicted_iff e he v hv hvid).mpr hc,
        (hdisposed.conflicted p hmem).mpr ⟨hwinning, (hcontradicted.mp hc).2⟩]
      trivial
    · have hstate : row.resolutionState = .accepted := by
        cases hstate : row.resolutionState with
        | accepted => rfl
        | conflicted =>
          exact absurd (hcontradicted.mpr ⟨not_not.mp (hsuperseded.not.mp hs), hstate⟩) hc
      have hstored := (hdisposed.selected p hmem).mpr ⟨hwinning, hstate⟩
      have hdecided : v.disposition = .accepted ∨ v.disposition = .duplicate := by
        by_cases hfirst : HasFirstId envelopes e
        · exact .inl ((hcanonical.accepted_iff e he v hv hvid).mpr ⟨hs, hc, hfirst⟩)
        · exact .inr ((hcanonical.duplicate_iff e he v hv hvid).mpr ⟨hs, hc, hfirst⟩)
      rcases hstored with hstored | hstored <;> rcases hdecided with hdecided | hdecided <;>
        rw [hstored, hdecided] <;> trivial

/-- An entity that canonicalization accepts has one accepted receipt. -/
theorem Settled.one_accepted (h : Settled platform db)
    (hrebuilt : db.rebuildReceipts platform = .ok (quarantine, envelopes))
    (hcanonical : Canonicalizes envelopes result) {r : FinancialRecord}
    (hr : r ∈ result.canonicalRecords) : ∃! p, p ∈ db.receipts.items ∧
      p.2.entityType = some r.entityType.value ∧ p.2.sourceId = some r.recordId ∧
        p.2.disposition = .accepted := by
  obtain ⟨hnot, e, he, rfl⟩ := hcanonical.canonical_seen r hr
  obtain ⟨row, -, hwins, hdisposed⟩ := h.row hrebuilt he
  have hstate : row.resolutionState = .accepted := by
    cases hstate : row.resolutionState with
    | accepted => rfl
    | conflicted => exact absurd ((h.conflictedIdentity_iff hrebuilt hwins).mpr hstate) hnot
  obtain ⟨p, ⟨hp, hdisposition⟩, huniq⟩ := hdisposed.one hstate
  obtain ⟨hmem, -, htype, hid⟩ := Threadline.mem_entityReceipts.mp hp
  refine ⟨p, ⟨hmem, htype, hid, hdisposition⟩, ?_⟩
  rintro q ⟨hq, hqtype, hqid, hqd⟩
  refine huniq q ⟨Threadline.mem_entityReceipts.mpr ⟨hq, ?_, hqtype, hqid⟩, hqd⟩
  obtain hrejected | ⟨-, record, hholds⟩ := h.ledger.receipts q hq
  · cases hrejected.disposition.symm.trans hqd
  · rw [hholds.recordVersion]
    rfl

/-- The entities with a row are those with an envelope. -/
theorem Settled.mem_keys_iff (h : Settled platform db)
    (hrebuilt : db.rebuildReceipts platform = .ok (quarantine, envelopes)) {key : Text × Text} :
    key ∈ db.resolutions.keys ↔
      ∃ e ∈ envelopes, (e.record.entityType.value, e.record.recordId) = key := by
  rw [PyDict.mem_keys_iff]
  constructor
  · rintro ⟨row, hrow⟩
    have hresolved := h.resolved key.1 key.2
    rw [hrow] at hresolved
    obtain ⟨⟨⟨_, p, hp, -⟩, -, -⟩, -⟩ : Wins _ row ∧ Disposed _ row := hresolved
    obtain ⟨hdisposition, record, hholds, htype, hid⟩ := h.ledger.holds hp
    obtain ⟨e, he, henvelops, -⟩ :=
      h.receipt hrebuilt (Threadline.mem_entityReceipts.mp hp).1 hdisposition
    obtain rfl := henvelops.holds.unique hholds
    exact ⟨e, he, Prod.ext htype hid⟩
  · rintro ⟨e, he, rfl⟩
    obtain ⟨row, hrow, -⟩ := h.row hrebuilt he
    exact ⟨row, hrow⟩

theorem Settled.refines (h : Settled platform db) :
    ∃ quarantine envelopes result,
      db.rebuildReceipts platform = .ok (quarantine, envelopes) ∧
        Refines platform db envelopes result := by
  obtain ⟨quarantine, envelopes, hrebuilt⟩ := h.rebuildReceipts
  obtain ⟨result, hresult⟩ := canonicalize_ok_iff.mpr (h.receiptsAgree hrebuilt)
  obtain ⟨receipts, hunique, hspec⟩ := canonicalize_ok hresult
  have hcanonical := hunique.canonicalizes hspec
  refine ⟨quarantine, envelopes, result, hrebuilt, hresult, ?_, fun _ => h.mem_keys_iff hrebuilt,
    h.rows hrebuilt hcanonical, fun p hp => h.dispositions hrebuilt hcanonical hp,
    fun r hr => h.one_accepted hrebuilt hcanonical hr,
    fun p hp => ⟨h.batchStatus hp, h.not_pending hp⟩⟩
  intro receiptId
  constructor
  · intro hid
    obtain ⟨e, he, rfl⟩ := List.mem_map.mp hid
    obtain ⟨p, hp, hdisposition, henvelops⟩ := (h.mem_envelopes hrebuilt).mp he
    exact ⟨p, hp, henvelops.receiptId.symm, hdisposition⟩
  · rintro ⟨p, hp, rfl, hdisposition⟩
    obtain ⟨e, he, henvelops, -⟩ := h.receipt hrebuilt hp hdisposition
    exact List.mem_map.mpr ⟨e, he, henvelops.receiptId⟩

/-- After any calls, the incremental resolution is the one that canonicalization computes
from all receipts that are not in quarantine. -/
theorem ingestion_refines_canonicalize (platform : Platform) (events : List DatabaseEvent) :
    ∃ quarantine envelopes result,
      (Database.after platform events).rebuildReceipts platform = .ok (quarantine, envelopes) ∧
        Refines platform (Database.after platform events) envelopes result :=
  (settled_after events).refines

end

end Threadline
