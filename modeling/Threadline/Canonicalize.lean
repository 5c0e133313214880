import Threadline.PayloadHash
import Threadline.PyDict

/-!
# Canonicalization

Every receipt of a source record is classified. The highest version of an
identity wins. One payload at that version gives a canonical record, two or more
give a conflict.
-/

open PyText PySorted

namespace Threadline

inductive CanonicalizationError
  | invalidReceipt
  | unencodableText
  | receiptConflict (receiptId : Text)
  deriving DecidableEq

/-- One observed source-record receipt, as `__post_init__` leaves it. -/
structure RecordEnvelope (sha256 : Bytes → Text) where
  receiptId : Text
  record : FinancialRecord
  payloadHash : Text
  receiptId_ne_nil : receiptId ≠ []
  receiptId_strip : receiptId = strip receiptId
  payloadHash_eq : calculatePayloadHash sha256 record = some payloadHash

namespace RecordEnvelope

variable {sha256 : Bytes → Text}

/-- `RecordEnvelope(receipt_id, record)`. -/
def make? (sha256 : Bytes → Text) (receiptId : Text) (record : FinancialRecord) :
    Except CanonicalizationError (RecordEnvelope sha256) :=
  if h : receiptId ≠ [] ∧ receiptId = strip receiptId then
    match hh : calculatePayloadHash sha256 record with
    | some payloadHash => .ok ⟨receiptId, record, payloadHash, h.1, h.2, hh⟩
    | none => .error .unencodableText
  else .error .invalidReceipt

def identity (e : RecordEnvelope sha256) : Identity := e.record.identity

def sourceVersion (e : RecordEnvelope sha256) : ℤ := e.record.sourceVersion

def fingerprint (e : RecordEnvelope sha256) : Identity × ℤ × Text :=
  (e.identity, e.sourceVersion, e.payloadHash)

@[ext] theorem ext {a b : RecordEnvelope sha256} (hi : a.receiptId = b.receiptId)
    (hr : a.record = b.record) : a = b := by
  obtain ⟨i, r, p, _, _, hp⟩ := a
  obtain ⟨i', r', p', _, _, hp'⟩ := b
  obtain rfl : i = i' := hi
  obtain rfl : r = r' := hr
  obtain rfl : p = p' := Option.some.inj (hp.symm.trans hp')
  rfl

/-- Receipts with one payload hash hold one record, if no two payloads collide. -/
theorem record_eq_of_payloadHash {a b : RecordEnvelope sha256} {payloads : Set Bytes}
    (hinj : Set.InjOn sha256 payloads)
    (ha : ∀ bytes, canonicalRecordBytes a.record = some bytes → bytes ∈ payloads)
    (hb : ∀ bytes, canonicalRecordBytes b.record = some bytes → bytes ∈ payloads)
    (h : a.payloadHash = b.payloadHash) : a.record = b.record := by
  obtain ⟨x, hx, hxa⟩ := Option.map_eq_some_iff.mp a.payloadHash_eq
  obtain ⟨y, hy, hyb⟩ := Option.map_eq_some_iff.mp b.payloadHash_eq
  have hxy : x = y := hinj (ha x hx) (hb y hy) (by rw [hxa, hyb, h])
  exact canonicalRecordBytes_injective hx (hxy ▸ hy)

end RecordEnvelope

/-- The texts that a classification reason formats. -/
inductive EvidenceReason
  | superseded (version winningVersion : ℤ)
  | differentPayloads (version : ℤ) (payloads : ℕ)
  | selected (version : ℤ)
  | duplicates (acceptedReceiptId : Text)
  deriving DecidableEq

/-- Classification assigned to one unique receipt. -/
structure EvidenceRecord where
  receiptId : Text
  identity : Identity
  sourceVersion : ℤ
  payloadHash : Text
  disposition : EvidenceDisposition
  reason : EvidenceReason
  deriving DecidableEq

def EvidenceRecord.sortKey (e : EvidenceRecord) : Identity ×ₗ ℤ ×ₗ Text ×ₗ Text :=
  toLex (e.identity, toLex (e.sourceVersion, toLex (e.payloadHash, e.receiptId)))

/-- A winning source version contains different payloads. -/
structure CanonicalConflict where
  identity : Identity
  sourceVersion : ℤ
  payloadHashes : List Text
  receiptIds : List Text
  deriving DecidableEq

def CanonicalConflict.sortKey (c : CanonicalConflict) : Identity ×ₗ ℤ :=
  toLex (c.identity, c.sourceVersion)

/-- Complete canonicalization result, with at most one record for an identity. -/
structure CanonicalizationResult where
  canonicalRecords : List FinancialRecord
  evidence : List EvidenceRecord
  conflicts : List CanonicalConflict
  identities_nodup : (canonicalRecords.map FinancialRecord.identity).Nodup

variable {sha256 : Bytes → Text}

/-- One step of `_deduplicate_receipts`. -/
def deduplicateStep (unique : PyDict Text (RecordEnvelope sha256))
    (envelope : RecordEnvelope sha256) :
    Except CanonicalizationError (PyDict Text (RecordEnvelope sha256)) :=
  match unique.get? envelope.receiptId with
  | none => .ok (unique.set envelope.receiptId envelope)
  | some existing =>
    if existing.fingerprint ≠ envelope.fingerprint then .error (.receiptConflict envelope.receiptId)
    else .ok unique

/-- Collapse exact receipt replays and reject receipt-ID conflicts. -/
def deduplicateReceipts (envelopes : List (RecordEnvelope sha256)) :
    Except CanonicalizationError (PyDict Text (RecordEnvelope sha256)) :=
  envelopes.foldlM deduplicateStep ∅

abbrev Buckets (sha256 : Bytes → Text) := PyDict Text (List (RecordEnvelope sha256))

abbrev Versions (sha256 : Bytes → Text) := PyDict ℤ (Buckets sha256)

def addToBuckets (envelope : RecordEnvelope sha256) (buckets : Buckets sha256) : Buckets sha256 :=
  buckets.modify envelope.payloadHash [] fun bucket => bucket ++ [envelope]

def addToVersions (envelope : RecordEnvelope sha256) (versions : Versions sha256) :
    Versions sha256 :=
  versions.modify envelope.sourceVersion ∅ (addToBuckets envelope)

/-- `grouped[identity][source_version][payload_hash]`. -/
def grouped (receipts : List (RecordEnvelope sha256)) : PyDict Identity (Versions sha256) :=
  PyDict.collect RecordEnvelope.identity ∅ addToVersions receipts

def evidenceRecord (envelope : RecordEnvelope sha256) (disposition : EvidenceDisposition)
    (reason : EvidenceReason) : EvidenceRecord where
  receiptId := envelope.receiptId
  identity := envelope.identity
  sourceVersion := envelope.sourceVersion
  payloadHash := envelope.payloadHash
  disposition := disposition
  reason := reason

/-- What the loop body appends for one identity. -/
structure IdentityOutcome where
  canonicalRecords : List FinancialRecord
  evidence : List EvidenceRecord
  conflicts : List CanonicalConflict

/-- Every receipt below the highest observed version is stale. -/
def staleEvidence (versions : Versions sha256) (winningVersion : ℤ) : List EvidenceRecord :=
  (sortedBy id versions.keys).flatMap fun sourceVersion =>
    if sourceVersion = winningVersion then []
    else
      let hashBuckets := versions.getD sourceVersion ∅
      (sortedBy id hashBuckets.keys).flatMap fun payloadHash =>
        (sortedBy RecordEnvelope.receiptId (hashBuckets.getD payloadHash [])).map fun envelope =>
          evidenceRecord envelope .stale (.superseded sourceVersion winningVersion)

def conflictingEnvelopes (winningBuckets : Buckets sha256) : List (RecordEnvelope sha256) :=
  sortedBy (fun e => toLex (e.payloadHash, e.receiptId)) winningBuckets.values.flatten

/-- A winning version whose payloads contradict each other. -/
def conflictOutcome (identity : Identity) (winningVersion : ℤ) (winningBuckets : Buckets sha256) :
    IdentityOutcome where
  canonicalRecords := []
  evidence := (conflictingEnvelopes winningBuckets).map fun envelope =>
    evidenceRecord envelope .conflicted (.differentPayloads winningVersion winningBuckets.keys.length)
  conflicts := [⟨identity, winningVersion, sortedBy id winningBuckets.keys,
    (conflictingEnvelopes winningBuckets).map RecordEnvelope.receiptId⟩]

/-- A winning version with one payload: the smallest receipt ID represents it. -/
def acceptedOutcome (winningVersion : ℤ) (winningEnvelopes : List (RecordEnvelope sha256)) :
    IdentityOutcome :=
  match sortedBy RecordEnvelope.receiptId winningEnvelopes with
  | [] => ⟨[], [], []⟩
  | accepted :: duplicates =>
    ⟨[accepted.record],
      evidenceRecord accepted .accepted (.selected winningVersion) ::
        duplicates.map fun duplicate =>
          evidenceRecord duplicate .duplicate (.duplicates accepted.receiptId),
      []⟩

/-- One round of the loop over `sorted(grouped)`. A group is never empty. -/
def identityOutcome (identity : Identity) (versions : Versions sha256) : IdentityOutcome :=
  match versions.keys.max? with
  | none => ⟨[], [], []⟩
  | some winningVersion =>
    let winningBuckets := versions.getD winningVersion ∅
    let winning :=
      if winningBuckets.keys.length > 1 then
        conflictOutcome identity winningVersion winningBuckets
      else acceptedOutcome winningVersion (winningBuckets.values.headD [])
    ⟨winning.canonicalRecords, staleEvidence versions winningVersion ++ winning.evidence,
      winning.conflicts⟩

/-- The rounds of the loop over `sorted(grouped)`. -/
def identityOutcomes (receipts : List (RecordEnvelope sha256)) : List IdentityOutcome :=
  (sortedBy id (grouped receipts).keys).map fun identity =>
    identityOutcome identity ((grouped receipts).getD identity ∅)

/-! ## The groups -/

def versionsOf (group : List (RecordEnvelope sha256)) : Versions sha256 :=
  PyDict.collect RecordEnvelope.sourceVersion ∅ addToBuckets group

theorem grouped_getD (receipts : List (RecordEnvelope sha256)) (i : Identity) :
    (grouped receipts).getD i ∅ = versionsOf (receipts.filter fun e => e.identity = i) := by
  rw [grouped, PyDict.getD_collect]
  rfl

theorem versionsOf_getD (group : List (RecordEnvelope sha256)) (v : ℤ) :
    (versionsOf group).getD v ∅ =
      PyDict.groupBy RecordEnvelope.payloadHash (group.filter fun e => e.sourceVersion = v) := by
  rw [versionsOf, PyDict.getD_collect]
  rfl

theorem mem_grouped_keys {receipts : List (RecordEnvelope sha256)} {i : Identity} :
    i ∈ (grouped receipts).keys ↔ ∃ e ∈ receipts, e.identity = i := PyDict.mem_keys_collect

theorem mem_versionsOf_keys {group : List (RecordEnvelope sha256)} {v : ℤ} :
    v ∈ (versionsOf group).keys ↔ ∃ e ∈ group, e.sourceVersion = v := PyDict.mem_keys_collect

theorem groupBy_values_flatten_perm (winning : List (RecordEnvelope sha256)) :
    (PyDict.groupBy RecordEnvelope.payloadHash winning).values.flatten.Perm winning := by
  rw [PyDict.values_eq_map _ [], ← List.flatMap_def]
  simp only [PyDict.getD_groupBy]
  apply PyDict.flatMap_filter_perm
  · exact (PyDict.groupBy RecordEnvelope.payloadHash winning).keys_nodup
  · intro e he
    exact PyDict.mem_keys_groupBy.mpr ⟨e, he, rfl⟩

theorem headD_mem_flatten {buckets : List (List (RecordEnvelope sha256))}
    {e : RecordEnvelope sha256} (h : e ∈ buckets.headD []) : e ∈ buckets.flatten := by
  cases buckets with
  | nil => exact absurd h List.not_mem_nil
  | cons bucket buckets => exact List.mem_append_left _ h

theorem acceptedOutcome_canonicalRecords (v : ℤ) (winning : List (RecordEnvelope sha256)) :
    (acceptedOutcome v winning).canonicalRecords =
      ((sortedBy RecordEnvelope.receiptId winning).head?.map RecordEnvelope.record).toList := by
  unfold acceptedOutcome
  split <;> next h => rw [h]; rfl

/-- The canonical record of a round is the record of a receipt of its group. -/
theorem identityOutcome_canonicalRecords (i : Identity) (group : List (RecordEnvelope sha256)) :
    (identityOutcome i (versionsOf group)).canonicalRecords = [] ∨
      ∃ e ∈ group, (identityOutcome i (versionsOf group)).canonicalRecords = [e.record] := by
  unfold identityOutcome
  split
  · exact .inl rfl
  next v _ =>
    simp only
    split
    · exact .inl rfl
    · rw [acceptedOutcome_canonicalRecords]
      cases hh : (sortedBy RecordEnvelope.receiptId
        (((versionsOf group).getD v ∅).values.headD [])).head? with
      | none => exact .inl rfl
      | some e =>
        refine .inr ⟨e, ?_, rfl⟩
        have he := headD_mem_flatten ((mem_sortedBy _).mp (List.mem_of_head? hh))
        rw [versionsOf_getD] at he
        exact List.mem_of_mem_filter ((groupBy_values_flatten_perm _).mem_iff.mp he)

/-- The rounds give at most one record for an identity. -/
theorem identityOutcomes_identities_nodup (receipts : List (RecordEnvelope sha256)) :
    (((identityOutcomes receipts).flatMap IdentityOutcome.canonicalRecords).map
      FinancialRecord.identity).Nodup := by
  rw [identityOutcomes, List.flatMap_map, List.map_flatMap, List.nodup_flatMap]
  have hids : ∀ i, ((identityOutcome i ((grouped receipts).getD i ∅)).canonicalRecords.map
      FinancialRecord.identity) = [] ∨
      ((identityOutcome i ((grouped receipts).getD i ∅)).canonicalRecords.map
      FinancialRecord.identity) = [i] := by
    intro i
    rw [grouped_getD]
    rcases identityOutcome_canonicalRecords i (receipts.filter fun e => e.identity = i) with
      h | ⟨e, he, h⟩
    · exact .inl (by rw [h]; rfl)
    · have hi : e.identity = i := by simpa using (List.mem_filter.mp he).2
      exact .inr (by rw [h, ← hi]; rfl)
  constructor
  · intro i _
    rcases hids i with h | h <;> rw [h] <;> simp
  · have hn := sortedBy_nodup id (grouped receipts).keys_nodup
    refine hn.imp fun {i j} hij => ?_
    rcases hids i with h | h <;> rcases hids j with h' | h' <;>
      simp [Function.onFun, h, h', hij.symm]

/-- Select canonical source records independently of arrival order. -/
def canonicalize (envelopes : List (RecordEnvelope sha256)) :
    Except CanonicalizationError CanonicalizationResult := do
  let uniqueReceipts ← deduplicateReceipts envelopes
  let outcomes := identityOutcomes uniqueReceipts.values
  .ok {
    canonicalRecords := sortedBy FinancialRecord.identity
      (outcomes.flatMap IdentityOutcome.canonicalRecords)
    evidence := sortedBy EvidenceRecord.sortKey (outcomes.flatMap IdentityOutcome.evidence)
    conflicts := sortedBy CanonicalConflict.sortKey (outcomes.flatMap IdentityOutcome.conflicts)
    identities_nodup := ((sortedBy_perm _ _).map _).nodup_iff.mpr
      (identityOutcomes_identities_nodup _)
  }

end Threadline
