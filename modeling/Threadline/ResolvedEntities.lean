import Threadline.CanonicalRound
import Threadline.RecoveryRebuild

/-!
# Resolved entities

What the rows of `entity_resolution` and the dispositions of the receipts say
about an entity, and that reclassifying the receipts of one entity makes it so
without touching another.
-/

open PyText PyJson PyCalendar PySorted PyExcept

namespace Threadline

/-! ## The receipts of an entity -/

/-- A stored receipt that holds a record, under the columns that are computed from it. -/
structure Holds (platform : Platform) (receiptId : Uuid) (receipt : SourceReceipt)
    (record : FinancialRecord) : Prop where
  entityType : receipt.entityType = some record.entityType.value
  sourceId : receipt.sourceId = some record.recordId
  sourceVersion : receipt.sourceVersion = some record.sourceVersion
  payloadHash : calculatePayloadHash platform.sha256 record = some receipt.payloadHash
  recordVersion : receipt.recordVersion = some ⟨record.entityType.value, record.recordId,
    record.sourceVersion, receipt.payloadHash⟩
  payload : ∃ payload : Payload, receipt.rawPayload = .obj payload.items ∧
    parseSourceRecord platform.iso payload (.member record.entityType) = .ok record
  idNonempty : receiptId ≠ []
  idStripped : receiptId = strip receiptId

/-- A receipt in quarantine, with what a rebuild needs of it. -/
structure Rejected (receipt : SourceReceipt) : Prop where
  disposition : receipt.disposition = .quarantined
  recordVersion : receipt.recordVersion = none
  rebuilt : ∃ q, makeQuarantine receipt = .ok q

namespace Database

variable (db : Database) (entityType sourceId : Text)

/-- The receipts of an entity that have a record version. -/
def entityReceipts : List (Uuid × SourceReceipt) :=
  db.receipts.items.filter fun p =>
    p.2.recordVersion.isSome ∧ p.2.entityType = some entityType ∧ p.2.sourceId = some sourceId

/-- The batch of a receipt is committed, or being stored. -/
def Counted (batchId : Uuid) : Prop :=
  db.batchStatus batchId = some .committed ∨ db.batchStatus batchId = some .processing

end Database

/-- The invariant of the receipts and the record versions. -/
structure Ledger (platform : Platform) (db : Database) : Prop where
  counted : ∀ p ∈ db.receipts.items, db.Counted p.2.batchId
  receipts : ∀ p ∈ db.receipts.items, Rejected p.2 ∨
    p.2.disposition ≠ .quarantined ∧ ∃ record, Holds platform p.1 p.2 record
  versions : ∀ key, (db.versions.get? key).isSome ↔
    ∃ p ∈ db.receipts.items, p.2.recordVersion = some key

/-- A receipt without the disposition that a resolution gives it. -/
def coreRow (p : Uuid × SourceReceipt) : Uuid × SourceReceipt :=
  (p.1, if p.2.disposition = .quarantined then p.2 else p.2.dispose .pending)

/-! ## Resolution -/

/-- A version and a payload of an entity that has been received. -/
def Seen (receipts : List (Uuid × SourceReceipt)) (version : ℤ) (payloadHash : Text) : Prop :=
  ∃ p ∈ receipts, p.2.sourceVersion = some version ∧ p.2.payloadHash = payloadHash

/-- The row names the highest version, and its payload unless there are several. -/
structure Wins (receipts : List (Uuid × SourceReceipt)) (row : EntityResolution) : Prop where
  seen : ∃ payloadHash, Seen receipts row.winningVersion payloadHash
  highest : ∀ version payloadHash, Seen receipts version payloadHash → version ≤ row.winningVersion
  selected : (row.resolutionState = .accepted ∧ ∃ payloadHash,
      row.selectedPayloadHash = some payloadHash ∧
        ∀ h, Seen receipts row.winningVersion h ↔ h = payloadHash) ∨
    (row.resolutionState = .conflicted ∧ row.selectedPayloadHash = none ∧
      ∃ h h', h ≠ h' ∧ Seen receipts row.winningVersion h ∧ Seen receipts row.winningVersion h')

/-- The receipts have the dispositions that go with the row. -/
structure Disposed (receipts : List (Uuid × SourceReceipt)) (row : EntityResolution) : Prop where
  stale : ∀ p ∈ receipts,
    (p.2.disposition = .stale ↔ p.2.sourceVersion ≠ some row.winningVersion)
  conflicted : ∀ p ∈ receipts, (p.2.disposition = .conflicted ↔
    p.2.sourceVersion = some row.winningVersion ∧ row.resolutionState = .conflicted)
  selected : ∀ p ∈ receipts, (p.2.disposition = .accepted ∨ p.2.disposition = .duplicate ↔
    p.2.sourceVersion = some row.winningVersion ∧ row.resolutionState = .accepted)
  one : row.resolutionState = .accepted → ∃! p, p ∈ receipts ∧ p.2.disposition = .accepted

/-- The stored resolution of an entity is that of its receipts. -/
def ResolvedBy (receipts : List (Uuid × SourceReceipt)) : Option EntityResolution → Prop
  | none => receipts = []
  | some row => Wins receipts row ∧ Disposed receipts row

/-- Every entity is resolved. -/
def Resolved (db : Database) : Prop :=
  ∀ entityType sourceId, ResolvedBy (db.entityReceipts entityType sourceId)
    (db.resolutions.get? (entityType, sourceId))

section

variable {platform : Platform} {db : Database} {entityType sourceId : Text}

theorem mem_entityReceipts {p : Uuid × SourceReceipt} :
    p ∈ db.entityReceipts entityType sourceId ↔ p ∈ db.receipts.items ∧
      p.2.recordVersion.isSome ∧ p.2.entityType = some entityType ∧
        p.2.sourceId = some sourceId := by
  simp [Database.entityReceipts]

/-- The receipts of an entity hold its records. -/
theorem Ledger.holds (h : Ledger platform db) {p : Uuid × SourceReceipt}
    (hp : p ∈ db.entityReceipts entityType sourceId) :
    p.2.disposition ≠ .quarantined ∧ ∃ record, Holds platform p.1 p.2 record ∧
      record.entityType.value = entityType ∧ record.recordId = sourceId := by
  obtain ⟨hmem, hversion, htype, hid⟩ := mem_entityReceipts.mp hp
  obtain hrejected | ⟨hdisposition, record, hholds⟩ := h.receipts p hmem
  · rw [hrejected.recordVersion] at hversion
    cases hversion
  · refine ⟨hdisposition, record, hholds, ?_, ?_⟩
    · exact Option.some.inj (hholds.entityType.symm.trans htype)
    · exact Option.some.inj (hholds.sourceId.symm.trans hid)

/-- All receipts of an entity are ranked. -/
theorem Ledger.rankedReceipts_eq (h : Ledger platform db) :
    db.rankedReceipts entityType sourceId = db.entityReceipts entityType sourceId := by
  unfold Database.rankedReceipts Database.entityReceipts
  refine List.filter_congr fun p hp => decide_eq_decide.mpr ?_
  have hcounted := h.counted p hp
  unfold Database.Counted at hcounted
  tauto

theorem Ledger.mem_versionsOf (h : Ledger platform db) {key : VersionKey} :
    key ∈ db.versionsOf entityType sourceId ↔
      ∃ p ∈ db.entityReceipts entityType sourceId, p.2.recordVersion = some key := by
  simp only [Database.versionsOf, mem_sortedBy, List.mem_filter, decide_eq_true_eq,
    PyDict.mem_keys_iff, ← Option.isSome_iff_exists, h.versions key]
  constructor
  · rintro ⟨⟨p, hp, hkey⟩, rfl, rfl⟩
    refine ⟨p, mem_entityReceipts.mpr ⟨hp, by rw [hkey]; rfl, ?_⟩, hkey⟩
    obtain hrejected | ⟨-, record, hholds⟩ := h.receipts p hp
    · cases hrejected.recordVersion.symm.trans hkey
    · obtain rfl := Option.some.inj (hholds.recordVersion.symm.trans hkey)
      exact ⟨hholds.entityType, hholds.sourceId⟩
  · rintro ⟨p, hp, hkey⟩
    obtain ⟨-, record, hholds, htype, hid⟩ := h.holds hp
    obtain rfl := Option.some.inj (hholds.recordVersion.symm.trans hkey)
    exact ⟨⟨p, (mem_entityReceipts.mp hp).1, hkey⟩, htype, hid⟩

/-- The versions of an entity are those of its receipts. -/
theorem Ledger.seen_iff (h : Ledger platform db) {version : ℤ} {payloadHash : Text} :
    Seen (db.entityReceipts entityType sourceId) version payloadHash ↔
      ∃ key ∈ db.versionsOf entityType sourceId, key.sourceVersion = version ∧
        key.payloadHash = payloadHash := by
  constructor
  · rintro ⟨p, hp, hversion, rfl⟩
    obtain ⟨-, record, hholds, -⟩ := h.holds hp
    refine ⟨_, h.mem_versionsOf.mpr ⟨p, hp, hholds.recordVersion⟩, ?_, rfl⟩
    exact Option.some.inj (hholds.sourceVersion.symm.trans hversion)
  · rintro ⟨key, hkey, rfl, rfl⟩
    obtain ⟨p, hp, hversion⟩ := h.mem_versionsOf.mp hkey
    obtain ⟨-, record, hholds, -⟩ := h.holds hp
    obtain rfl := Option.some.inj (hholds.recordVersion.symm.trans hversion)
    exact ⟨p, hp, hholds.sourceVersion, rfl⟩

/-! ## Reclassification -/

/-- What reclassification makes of one receipt. -/
def Database.relabel (db : Database) (entityType sourceId : Text) (winningVersion : ℤ)
    (conflicted : Bool) (p : Uuid × SourceReceipt) : Uuid × SourceReceipt :=
  (p.1, if p.1 ∈ (db.rankedReceipts entityType sourceId).map Prod.fst then
      p.2.dispose (db.classify entityType sourceId winningVersion conflicted p)
    else p.2)

section Relabel

variable {winningVersion : ℤ} {conflicted : Bool} {p : Uuid × SourceReceipt}

theorem reclassify_items :
    (db.reclassify entityType sourceId winningVersion conflicted).items =
      db.receipts.items.map (db.relabel entityType sourceId winningVersion conflicted) := rfl

theorem relabel_eq (db : Database) (entityType sourceId : Text) (winningVersion : ℤ)
    (conflicted : Bool) (p : Uuid × SourceReceipt) : ∃ disposition reasonCode,
    db.relabel entityType sourceId winningVersion conflicted p =
      (p.1, { p.2 with disposition := disposition, reasonCode := reasonCode }) := by
  unfold Database.relabel
  split_ifs
  · exact ⟨_, _, rfl⟩
  · exact ⟨p.2.disposition, p.2.reasonCode, rfl⟩

theorem Ledger.relabel_of_mem (h : Ledger platform db)
    (hp : p ∈ db.entityReceipts entityType sourceId) :
    db.relabel entityType sourceId winningVersion conflicted p =
      (p.1, p.2.dispose (db.classify entityType sourceId winningVersion conflicted p)) := by
  unfold Database.relabel
  rw [if_pos]
  exact List.mem_map_of_mem (h.rankedReceipts_eq.symm ▸ hp)

theorem Ledger.relabel_of_not_mem (h : Ledger platform db) (hmem : p ∈ db.receipts.items)
    (hp : p ∉ db.entityReceipts entityType sourceId) :
    db.relabel entityType sourceId winningVersion conflicted p = p := by
  unfold Database.relabel
  rw [if_neg]
  intro hid
  obtain ⟨q, hq, hid⟩ := List.mem_map.mp hid
  rw [h.rankedReceipts_eq] at hq
  refine hp ?_
  rwa [List.inj_on_of_nodup_map db.receipts.nodup_keys hmem (mem_entityReceipts.mp hq).1 hid.symm]

/-- The receipts of an entity once those of one have been reclassified. -/
theorem entityReceipts_reclassify {resolutions : PyDict (Text × Text) EntityResolution}
    (a b : Text) :
    Database.entityReceipts { db with
      resolutions := resolutions
      receipts := db.reclassify entityType sourceId winningVersion conflicted } a b =
    (db.entityReceipts a b).map (db.relabel entityType sourceId winningVersion conflicted) := by
  unfold Database.entityReceipts
  rw [reclassify_items, List.filter_map]
  refine congrArg (List.map _) (List.filter_congr fun p _ => ?_)
  obtain ⟨disposition, reasonCode, hp⟩ := relabel_eq db entityType sourceId winningVersion
    conflicted p
  rw [Function.comp_apply, hp]

theorem Ledger.entityReceipts_reclassify_same (h : Ledger platform db)
    {resolutions : PyDict (Text × Text) EntityResolution} :
    Database.entityReceipts { db with
      resolutions := resolutions
      receipts := db.reclassify entityType sourceId winningVersion conflicted }
      entityType sourceId =
    (db.entityReceipts entityType sourceId).map fun p =>
      (p.1, p.2.dispose (db.classify entityType sourceId winningVersion conflicted p)) := by
  rw [entityReceipts_reclassify]
  exact List.map_congr_left fun p hp => h.relabel_of_mem hp

theorem Ledger.entityReceipts_reclassify_other (h : Ledger platform db)
    {resolutions : PyDict (Text × Text) EntityResolution} {a b : Text}
    (hne : (a, b) ≠ (entityType, sourceId)) :
    Database.entityReceipts { db with
      resolutions := resolutions
      receipts := db.reclassify entityType sourceId winningVersion conflicted } a b =
    db.entityReceipts a b := by
  rw [entityReceipts_reclassify]
  refine (List.map_congr_left fun p hp => ?_).trans (List.map_id _)
  obtain ⟨hmem, -, htype, hid⟩ := mem_entityReceipts.mp hp
  refine h.relabel_of_not_mem hmem fun hp' => hne ?_
  obtain ⟨-, -, htype', hid'⟩ := mem_entityReceipts.mp hp'
  rw [Option.some.inj (htype.symm.trans htype'), Option.some.inj (hid.symm.trans hid')]

/-- Reclassification keeps the invariant of the receipts. -/
theorem Ledger.reclassify (h : Ledger platform db)
    {resolutions : PyDict (Text × Text) EntityResolution}
    (hclassify : ∀ p ∈ db.entityReceipts entityType sourceId,
      db.classify entityType sourceId winningVersion conflicted p ≠ .quarantined) :
    Ledger platform { db with
      resolutions := resolutions
      receipts := db.reclassify entityType sourceId winningVersion conflicted } where
  counted p hp := by
    obtain ⟨q, hq, rfl⟩ := List.mem_map.mp (reclassify_items ▸ hp)
    obtain ⟨disposition, reasonCode, he⟩ := relabel_eq db entityType sourceId winningVersion
      conflicted q
    rw [he]
    exact h.counted q hq
  receipts p hp := by
    obtain ⟨q, hq, rfl⟩ := List.mem_map.mp (reclassify_items ▸ hp)
    by_cases hmem : q ∈ db.entityReceipts entityType sourceId
    · rw [h.relabel_of_mem hmem]
      obtain ⟨-, record, hholds, -⟩ := h.holds hmem
      exact .inr ⟨hclassify q hmem, record, hholds.entityType, hholds.sourceId,
        hholds.sourceVersion, hholds.payloadHash, hholds.recordVersion, hholds.payload,
        hholds.idNonempty, hholds.idStripped⟩
    · rw [h.relabel_of_not_mem hq hmem]
      exact h.receipts q hq
  versions key := by
    rw [h.versions key]
    rw [reclassify_items]
    simp only [List.mem_map, exists_exists_and_eq_and]
    refine exists_congr fun p => and_congr_right fun _ => ?_
    obtain ⟨disposition, reasonCode, he⟩ := relabel_eq db entityType sourceId winningVersion
      conflicted p
    rw [he]

/-- Reclassification changes dispositions only. -/
theorem Ledger.reclassify_core (h : Ledger platform db)
    (hclassify : ∀ p ∈ db.entityReceipts entityType sourceId,
      db.classify entityType sourceId winningVersion conflicted p ≠ .quarantined) :
    (db.reclassify entityType sourceId winningVersion conflicted).items.map coreRow =
      db.receipts.items.map coreRow := by
  rw [reclassify_items, List.map_map]
  refine List.map_congr_left fun p hp => ?_
  rw [Function.comp_apply]
  by_cases hmem : p ∈ db.entityReceipts entityType sourceId
  · rw [h.relabel_of_mem hmem, coreRow, coreRow, if_neg (h.holds hmem).1]
    exact congrArg (Prod.mk p.1) (if_neg (hclassify p hmem))
  · rw [h.relabel_of_not_mem hp hmem]

end Relabel

/-! ## One resolution -/

section Resolve

variable {winner : VersionKey} {others : List VersionKey}

/-- The first version is the highest. -/
theorem versionsOf_head (hversions : db.versionsOf entityType sourceId = winner :: others) :
    ∀ key ∈ winner :: others, key.sourceVersion ≤ winner.sourceVersion := by
  intro key hkey
  have hpairwise := sortedBy_pairwise (κ := ℤᵒᵈ ×ₗ Text)
    (fun key : VersionKey => toLex (OrderDual.toDual key.sourceVersion, key.payloadHash))
    (db.versions.keys.filter fun key => key.entityType = entityType ∧ key.sourceId = sourceId)
  change (db.versionsOf entityType sourceId).Pairwise _ at hpairwise
  rw [hversions] at hpairwise
  rcases List.mem_cons.mp hkey with rfl | hkey
  · exact le_refl _
  · have hle := Prod.Lex.monotone_fst _ _ (List.rel_of_pairwise_cons hpairwise hkey)
    exact OrderDual.ofDual_le_ofDual.mpr hle

/-- The payload hashes of the highest version. -/
def winningHashes (winner : VersionKey) (others : List VersionKey) : List Text :=
  (((winner :: others).filter fun key => key.sourceVersion = winner.sourceVersion).map
    VersionKey.payloadHash).dedup

def resolvedRow (winner : VersionKey) (others : List VersionKey) : EntityResolution where
  winningVersion := winner.sourceVersion
  resolutionState := if 1 < (winningHashes winner others).length then .conflicted else .accepted
  selectedPayloadHash :=
    if 1 < (winningHashes winner others).length then none else (winningHashes winner others).head?

theorem resolveEntity_eq_ok {db' : Database}
    (h : db.resolveEntity entityType sourceId = .ok db') :
    ∃ winner others, db.versionsOf entityType sourceId = winner :: others ∧
      db' = { db with
        resolutions := db.resolutions.set (entityType, sourceId) (resolvedRow winner others)
        receipts := db.reclassify entityType sourceId winner.sourceVersion
          (1 < (winningHashes winner others).length) } := by
  unfold Database.resolveEntity at h
  split at h
  · cases h
  next winner others hversions =>
    refine ⟨winner, others, hversions, ?_⟩
    obtain rfl := Except.ok.inj h
    simp [resolvedRow, winningHashes]

theorem Ledger.mem_winningHashes (h : Ledger platform db)
    (hversions : db.versionsOf entityType sourceId = winner :: others) {payloadHash : Text} :
    payloadHash ∈ winningHashes winner others ↔
      Seen (db.entityReceipts entityType sourceId) winner.sourceVersion payloadHash := by
  rw [h.seen_iff, hversions, winningHashes]
  simp only [List.mem_dedup, List.mem_map, List.mem_filter, decide_eq_true_eq, and_assoc]

/-- The row that a resolution writes wins among the receipts of the entity. -/
theorem Ledger.wins (h : Ledger platform db)
    (hversions : db.versionsOf entityType sourceId = winner :: others) :
    Wins (db.entityReceipts entityType sourceId) (resolvedRow winner others) where
  seen := ⟨winner.payloadHash, h.seen_iff.mpr ⟨winner, by simp [hversions], rfl, rfl⟩⟩
  highest version payloadHash hseen := by
    obtain ⟨key, hkey, rfl, -⟩ := h.seen_iff.mp hseen
    exact versionsOf_head hversions key (hversions ▸ hkey)
  selected := by
    have hnodup : (winningHashes winner others).Nodup := List.nodup_dedup _
    simp only [resolvedRow, ← h.mem_winningHashes hversions]
    by_cases hmany : 1 < (winningHashes winner others).length
    · obtain ⟨a, ha, b, hb, hab⟩ := (length_gt_one_iff hnodup).mp hmany
      exact .inr ⟨if_pos hmany, if_pos hmany, a, b, hab, ha, hb⟩
    · obtain ⟨a, hone⟩ : ∃ a, winningHashes winner others = [a] := by
        have hwinner : winner.payloadHash ∈ winningHashes winner others := by
          simp [winningHashes]
        refine List.length_eq_one_iff.mp ?_
        have := List.length_pos_of_mem hwinner
        omega
      refine .inl ⟨if_neg hmany, a, ?_, ?_⟩
      · rw [if_neg hmany, hone]
        rfl
      · simp [hone]

end Resolve

section Dispose

variable {row : EntityResolution} {p : Uuid × SourceReceipt}

/-- How a receipt is classified when the winning version is known. -/
theorem Ledger.classify_cases (h : Ledger platform db) (conflicted : Bool)
    (hwins : Wins (db.entityReceipts entityType sourceId) row)
    (hp : p ∈ db.entityReceipts entityType sourceId) :
    (p.2.sourceVersion ≠ some row.winningVersion ∧
      db.classify entityType sourceId row.winningVersion conflicted p = .stale) ∨
    (p.2.sourceVersion = some row.winningVersion ∧
      db.classify entityType sourceId row.winningVersion conflicted p =
        if conflicted then .conflicted
        else if db.occurrence entityType sourceId p = 1 then .accepted
        else .duplicate) := by
  obtain ⟨-, record, hholds, -⟩ := h.holds hp
  have hle := hwins.highest record.sourceVersion p.2.payloadHash ⟨p, hp, hholds.sourceVersion, rfl⟩
  unfold Database.classify
  rw [hholds.sourceVersion, Option.any_some]
  by_cases hlt : record.sourceVersion < row.winningVersion
  · refine .inl ⟨fun he => hlt.ne (Option.some.inj he), ?_⟩
    rw [if_pos (decide_eq_true hlt)]
  · refine .inr ⟨congrArg some (le_antisymm hle (not_lt.mp hlt)), ?_⟩
    rw [if_neg (by simpa using hlt)]

theorem Ledger.classify_ne_quarantined (h : Ledger platform db) {conflicted : Bool}
    (hwins : Wins (db.entityReceipts entityType sourceId) row)
    (hp : p ∈ db.entityReceipts entityType sourceId) :
    db.classify entityType sourceId row.winningVersion conflicted p ≠ .quarantined := by
  rcases h.classify_cases conflicted hwins hp with ⟨-, hc⟩ | ⟨-, hc⟩
  · simp [hc]
  · rw [hc]
    split_ifs <;> simp

theorem rankKey_injective {q : Uuid × SourceReceipt} (hp : p ∈ db.receipts.items)
    (hq : q ∈ db.receipts.items) (h : db.rankKey p = db.rankKey q) : p = q := by
  have hid : p.1 = q.1 := congrArg (fun k => (ofLex (ofLex k).2).2) h
  exact List.inj_on_of_nodup_map db.receipts.nodup_keys hp hq hid

/-- A receipt comes first among those of its version and payload. -/
theorem Ledger.occurrence_eq_one (h : Ledger platform db) :
    db.occurrence entityType sourceId p = 1 ↔ ∀ q ∈ db.entityReceipts entityType sourceId,
      q.2.sourceVersion = p.2.sourceVersion → q.2.payloadHash = p.2.payloadHash →
        db.rankKey p ≤ db.rankKey q := by
  simp only [Database.occurrence, Nat.add_eq_right, List.length_eq_zero_iff,
    List.filter_eq_nil_iff, decide_eq_true_eq, h.rankedReceipts_eq, not_and, not_lt]

/-- Of the receipts of an accepted version exactly one comes first. -/
theorem Ledger.exists_first (h : Ledger platform db)
    (hwins : Wins (db.entityReceipts entityType sourceId) row)
    (haccepted : row.resolutionState = .accepted) :
    ∃! p, p ∈ db.entityReceipts entityType sourceId ∧
      p.2.sourceVersion = some row.winningVersion ∧ db.occurrence entityType sourceId p = 1 := by
  -- All receipts of the version have one payload.
  have hpayload : ∀ p ∈ db.entityReceipts entityType sourceId,
      p.2.sourceVersion = some row.winningVersion →
      ∀ q ∈ db.entityReceipts entityType sourceId,
        q.2.sourceVersion = some row.winningVersion → q.2.payloadHash = p.2.payloadHash := by
    intro p hp hpv q hq hqv
    obtain ⟨-, payloadHash, -, hall⟩ | ⟨hconflicted, -⟩ := hwins.selected
    · rw [(hall _).mp ⟨p, hp, hpv, rfl⟩, (hall _).mp ⟨q, hq, hqv, rfl⟩]
    · cases haccepted.symm.trans hconflicted
  obtain ⟨payloadHash, q, hq, hqv, -⟩ := hwins.seen
  have hne : ((db.entityReceipts entityType sourceId).filter fun p =>
      p.2.sourceVersion = some row.winningVersion) ≠ [] :=
    List.ne_nil_of_mem (List.mem_filter.mpr ⟨hq, by simpa using hqv⟩)
  obtain ⟨first, hfirst⟩ := Option.ne_none_iff_exists'.mp (mt (List.argmin_eq_none
    (f := db.rankKey)).mp hne)
  obtain ⟨hmem, hversion⟩ := List.mem_filter.mp (List.argmin_mem hfirst)
  have hversion : first.2.sourceVersion = some row.winningVersion := by simpa using hversion
  refine ⟨first, ⟨hmem, hversion, h.occurrence_eq_one.mpr fun q hq hqv _ => ?_⟩, ?_⟩
  · exact List.le_of_mem_argmin (List.mem_filter.mpr ⟨hq, by simp [hqv, hversion]⟩) hfirst
  · rintro p ⟨hp, hpv, hone⟩
    have hle := h.occurrence_eq_one.mp hone first hmem (hversion.trans hpv.symm)
      (hpayload p hp hpv first hmem hversion)
    have hge := List.le_of_mem_argmin (List.mem_filter.mpr ⟨hp, by simp [hpv]⟩) hfirst
    exact rankKey_injective (mem_entityReceipts.mp hp).1 (mem_entityReceipts.mp hmem).1
      (le_antisymm hle hge)

/-- Reclassified receipts have the dispositions that go with the winning row. -/
theorem Ledger.disposed (h : Ledger platform db)
    (hwins : Wins (db.entityReceipts entityType sourceId) row) :
    Disposed ((db.entityReceipts entityType sourceId).map fun p => (p.1, p.2.dispose
      (db.classify entityType sourceId row.winningVersion
        (row.resolutionState = .conflicted : Bool) p))) row := by
  have hcases := fun p => h.classify_cases (p := p)
    (row.resolutionState = .conflicted : Bool) hwins
  simp only [decide_eq_true_eq] at hcases
  refine ⟨?_, ?_, ?_, fun haccepted => ?_⟩
  · simp only [List.forall_mem_map, SourceReceipt.dispose]
    intro p hp
    rcases hcases p hp with ⟨hv, hc⟩ | ⟨hv, hc⟩
    · simp [hc, hv]
    · rw [hc]
      split_ifs <;> simp [hv]
  · simp only [List.forall_mem_map, SourceReceipt.dispose]
    intro p hp
    rcases hcases p hp with ⟨hv, hc⟩ | ⟨hv, hc⟩
    · simp [hc, hv]
    · rw [hc]
      split_ifs with hs ho <;> simp [hv, hs]
  · simp only [List.forall_mem_map, SourceReceipt.dispose]
    intro p hp
    rcases hcases p hp with ⟨hv, hc⟩ | ⟨hv, hc⟩
    · simp [hc, hv]
    · rw [hc]
      cases hs : row.resolutionState with
      | conflicted => simp
      | accepted =>
        simp only [reduceCtorEq, if_false]
        split_ifs <;> simp [hv]
  · have hfirst : ∀ p ∈ db.entityReceipts entityType sourceId,
        (db.classify entityType sourceId row.winningVersion
            (row.resolutionState = .conflicted : Bool) p = .accepted ↔
          p.2.sourceVersion = some row.winningVersion ∧
            db.occurrence entityType sourceId p = 1) := by
      intro p hp
      rcases hcases p hp with ⟨hv, hc⟩ | ⟨hv, hc⟩
      · simp [hc, hv]
      · rw [hc, haccepted]
        simp only [reduceCtorEq, if_false]
        split_ifs with ho <;> simp [hv, ho]
    obtain ⟨first, ⟨hmem, hversion, hone⟩, hunique⟩ := h.exists_first hwins haccepted
    refine ⟨_, ⟨List.mem_map_of_mem hmem, (hfirst first hmem).mpr ⟨hversion, hone⟩⟩, ?_⟩
    rintro _ ⟨hmapped, hdisposition⟩
    obtain ⟨p, hp, rfl⟩ := List.mem_map.mp hmapped
    obtain ⟨hv, ho⟩ := (hfirst p hp).mp hdisposition
    rw [hunique p ⟨hp, hv, ho⟩]

/-- The row of an entity stays the winning one when its receipts are reclassified. -/
theorem wins_dispose {receipts : List (Uuid × SourceReceipt)} (hwins : Wins receipts row)
    (d : Uuid × SourceReceipt → StoredDisposition) :
    Wins (receipts.map fun p => (p.1, p.2.dispose (d p))) row := by
  have hseen : ∀ version payloadHash, Seen (receipts.map fun p => (p.1, p.2.dispose (d p)))
      version payloadHash ↔ Seen receipts version payloadHash := by
    intro version payloadHash
    simp [Seen, SourceReceipt.dispose]
  refine ⟨?_, ?_, ?_⟩
  · simpa only [hseen] using hwins.seen
  · simpa only [hseen] using hwins.highest
  · simpa only [hseen] using hwins.selected

end Dispose

/-! ## What a resolution does -/

/-- Resolving an entity keeps the invariant, resolves it, and leaves the others alone. -/
theorem Ledger.resolveEntity (h : Ledger platform db) {db' : Database}
    (hresolve : db.resolveEntity entityType sourceId = .ok db') :
    Ledger platform db' ∧
      ResolvedBy (db'.entityReceipts entityType sourceId)
        (db'.resolutions.get? (entityType, sourceId)) ∧
      (∀ a b, (a, b) ≠ (entityType, sourceId) →
        db'.entityReceipts a b = db.entityReceipts a b ∧
          db'.resolutions.get? (a, b) = db.resolutions.get? (a, b)) ∧
      db'.receipts.items.map coreRow = db.receipts.items.map coreRow ∧
      ∃ resolutions receipts,
        db' = { db with resolutions := resolutions, receipts := receipts } := by
  obtain ⟨winner, others, hversions, rfl⟩ := resolveEntity_eq_ok hresolve
  have hwins := h.wins hversions
  have hconflicted : decide (1 < (winningHashes winner others).length) =
      decide ((resolvedRow winner others).resolutionState = .conflicted) := by
    simp only [resolvedRow]
    split_ifs with hmany <;> simp [hmany]
  have hclassify : ∀ p ∈ db.entityReceipts entityType sourceId, ∀ conflicted,
      db.classify entityType sourceId winner.sourceVersion conflicted p ≠ .quarantined :=
    fun p hp conflicted => h.classify_ne_quarantined hwins hp
  refine ⟨?_, ?_, fun a b hne => ⟨?_, ?_⟩, ?_, _, _, rfl⟩
  · exact h.reclassify fun p hp => hclassify p hp _
  · rw [h.entityReceipts_reclassify_same, PyDict.get?_set, if_pos rfl, hconflicted]
    exact ⟨wins_dispose hwins _, h.disposed hwins⟩
  · exact h.entityReceipts_reclassify_other hne
  · rw [PyDict.get?_set, if_neg (Ne.symm hne)]
  · exact h.reclassify_core fun p hp => hclassify p hp _

/-- Resolving several entities. -/
theorem Ledger.resolveEntities (h : Ledger platform db) {ids : List Text} {db' : Database}
    (hresolve : ids.foldlM (fun db id => db.resolveEntity entityType id) db = .ok db') :
    Ledger platform db' ∧
      (∀ id ∈ ids, ResolvedBy (db'.entityReceipts entityType id)
        (db'.resolutions.get? (entityType, id))) ∧
      (∀ a b, ¬ (a = entityType ∧ b ∈ ids) →
        db'.entityReceipts a b = db.entityReceipts a b ∧
          db'.resolutions.get? (a, b) = db.resolutions.get? (a, b)) ∧
      db'.receipts.items.map coreRow = db.receipts.items.map coreRow ∧
      ∃ resolutions receipts,
        db' = { db with resolutions := resolutions, receipts := receipts } := by
  induction ids using List.reverseRecOn generalizing db' with
  | nil =>
    obtain rfl := Except.ok.inj hresolve
    exact ⟨h, by simp, fun _ _ _ => ⟨rfl, rfl⟩, rfl, db.resolutions, db.receipts, rfl⟩
  | append_singleton ids id ih =>
    obtain ⟨db₁, hids, hid⟩ := foldlM_concat_eq_ok.mp hresolve
    obtain ⟨hledger₁, hresolved₁, hothers₁, hcore₁, _, _, rfl⟩ := ih hids
    obtain ⟨hledger, hresolved, hothers, hcore, resolutions, receipts, rfl⟩ :=
      hledger₁.resolveEntity hid
    refine ⟨hledger, fun id' hid' => ?_, fun a b hne => ?_, hcore.trans hcore₁, _, _, rfl⟩
    · by_cases he : id' = id
      · exact he ▸ hresolved
      · have hold := hothers entityType id' fun hpair => he (Prod.mk.inj hpair).2
        rw [hold.1, hold.2]
        exact hresolved₁ id' (by simpa [he] using hid')
    · have hold := hothers a b fun hpair =>
        hne ⟨(Prod.mk.inj hpair).1, by simp [(Prod.mk.inj hpair).2]⟩
      have hold₁ := hothers₁ a b fun hmem => hne ⟨hmem.1, by simp [hmem.2]⟩
      exact ⟨hold.1.trans hold₁.1, hold.2.trans hold₁.2⟩

end

end Threadline
