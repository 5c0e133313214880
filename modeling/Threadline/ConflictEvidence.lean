import Threadline.PyExcept
import Threadline.RecoveryFingerprint
import Threadline.ReconcileLookup

/-!
# Conflict evidence

A conflict exception lists receipt IDs. The stabilized exception lists the
source variants of these receipts instead, which do not depend on how often a
variant was delivered.
-/

open PyText PyJson PySorted PyExcept

namespace Threadline

/-- What the ledger stores about the source record of one receipt. -/
structure SourceVariant where
  receiptId : Text
  identity : Identity
  sourceVersion : ℤ
  payloadHash : Text

inductive ConflictEvidenceError
  | missing (receiptId : Text)
  | unencodable
  deriving DecidableEq

/-- Identify a source variant independently of its delivery receipt. -/
def variantReference (sha256 : Bytes → Text) (identity : Identity) (sourceVersion : ℤ)
    (payloadHash : Text) : Option Text :=
  (documentFingerprint sha256 (.obj
    [(txt "source_system", jsonText identity.sourceSystem.value),
     (txt "entity_type", jsonText identity.entityType.value),
     (txt "source_id", jsonText identity.sourceId),
     (txt "source_version", jsonInt sourceVersion),
     (txt "payload_hash", jsonText payloadHash)])).map (txt "source-variant:" ++ ·)

def isConflictException (x : ReconciliationException) : Bool :=
  x.exceptionType = .conflictingSourceVersion

def variantEvidence (evidenceByReceipt : PyDict Text Text) (receiptId : Text) :
    Except ConflictEvidenceError Text :=
  match evidenceByReceipt.get? receiptId with
  | none => .error (.missing receiptId)
  | some reference => .ok reference

def replaceEvidence (evidenceByReceipt : PyDict Text Text) (x : ReconciliationException) :
    Except ConflictEvidenceError ReconciliationException :=
  if isConflictException x then do
    let references ← x.supportingSourceRecordIds.mapM (variantEvidence evidenceByReceipt)
    .ok { x with supportingSourceRecordIds := sortedSet references }
  else .ok x

/-- `replace_conflict_evidence`. -/
def replaceConflictEvidence (evidenceByReceipt : PyDict Text Text)
    (candidate : ReconciliationResult) : Except ConflictEvidenceError ReconciliationResult := do
  let exceptions ← candidate.exceptions.mapM (replaceEvidence evidenceByReceipt)
  .ok { candidate with exceptions := exceptions }

def conflictReceiptIds (candidate : ReconciliationResult) : List Text :=
  (candidate.exceptions.filter isConflictException).flatMap
    ReconciliationException.supportingSourceRecordIds

def evidenceOf (sha256 : Bytes → Text) (variant : SourceVariant) :
    Except ConflictEvidenceError (Text × Text) :=
  match variantReference sha256 variant.identity variant.sourceVersion variant.payloadHash with
  | none => .error .unencodable
  | some reference => .ok (variant.receiptId, reference)

/-- `stabilize_conflict_evidence`, over the receipts of the committed batches. -/
def stabilizeConflictEvidence (sha256 : Bytes → Text) (variants : List SourceVariant)
    (candidate : ReconciliationResult) : Except ConflictEvidenceError ReconciliationResult :=
  if conflictReceiptIds candidate = [] then .ok candidate
  else do
    let evidence ← (variants.filter fun variant =>
      variant.receiptId ∈ conflictReceiptIds candidate).mapM (evidenceOf sha256)
    replaceConflictEvidence (PyDict.ofPairs evidence) candidate

/-! ## The stabilized exceptions -/

section Resolved

variable {sha256 : Bytes → Text} {variants : List SourceVariant} {candidate : ReconciliationResult}

/-- The exception with the references of its receipts. -/
def resolve (reference : Text → Option Text) (x : ReconciliationException) :
    ReconciliationException :=
  if isConflictException x then
    { x with supportingSourceRecordIds :=
        sortedSet (x.supportingSourceRecordIds.filterMap reference) }
  else x

/-- The reference to the variant of a receipt. -/
def referenceOf (sha256 : Bytes → Text) (variants : List SourceVariant) (receiptId : Text) :
    Option Text := do
  let variant ← variants.find? fun variant => variant.receiptId = receiptId
  variantReference sha256 variant.identity variant.sourceVersion variant.payloadHash

theorem variantEvidence_eq_ok {evidence : PyDict Text Text} {id reference : Text} :
    variantEvidence evidence id = .ok reference ↔ evidence.get? id = some reference := by
  unfold variantEvidence
  cases evidence.get? id <;> simp

/-- The entry of a variant in `evidence_by_receipt`. -/
def variantPair (sha256 : Bytes → Text) (v : SourceVariant) : Option (Text × Text) :=
  (variantReference sha256 v.identity v.sourceVersion v.payloadHash).map fun reference =>
    (v.receiptId, reference)

theorem evidenceOf_eq_ok (v : SourceVariant) (pair : Text × Text) :
    evidenceOf sha256 v = .ok pair ↔ variantPair sha256 v = some pair := by
  unfold evidenceOf variantPair
  cases variantReference sha256 v.identity v.sourceVersion v.payloadHash <;> simp

theorem replaceEvidence_eq_ok {evidence : PyDict Text Text} {x y : ReconciliationException} :
    replaceEvidence evidence x = .ok y ↔
      (isConflictException x → ∀ id ∈ x.supportingSourceRecordIds, (evidence.get? id).isSome) ∧
        y = resolve evidence.get? x := by
  unfold replaceEvidence resolve
  split_ifs with hx
  · simp only [bind_eq_ok, mapM_eq_ok_iff_filterMap fun _ _ => variantEvidence_eq_ok,
      Except.ok.injEq, hx, true_implies]
    constructor
    · rintro ⟨references, ⟨hsome, rfl⟩, rfl⟩
      exact ⟨hsome, rfl⟩
    · rintro ⟨hsome, rfl⟩
      exact ⟨_, ⟨hsome, rfl⟩, rfl⟩
  · simp only [hx, Except.ok.injEq, Bool.false_eq_true, false_implies, true_and]
    exact eq_comm

theorem resolve_congr {f g : Text → Option Text} {x : ReconciliationException}
    (h : isConflictException x → ∀ id ∈ x.supportingSourceRecordIds, f id = g id) :
    resolve f x = resolve g x := by
  unfold resolve
  split_ifs with hx
  · rw [List.filterMap_congr (h hx)]
  · rfl

theorem mem_conflictReceiptIds {id : Text} : id ∈ conflictReceiptIds candidate ↔
    ∃ x ∈ candidate.exceptions, isConflictException x ∧ id ∈ x.supportingSourceRecordIds := by
  simp [conflictReceiptIds, and_assoc]

/-- The evidence collected for the conflicts refers to the variants of their receipts. -/
theorem evidence_get? {pairs : List (Text × Text)}
    (hagree : ∀ v ∈ variants, ∀ w ∈ variants, v.receiptId = w.receiptId → v = w)
    (h : (variants.filter fun variant =>
      variant.receiptId ∈ conflictReceiptIds candidate).mapM (evidenceOf sha256) = .ok pairs)
    {id : Text} (hid : id ∈ conflictReceiptIds candidate) :
    (PyDict.ofPairs pairs).get? id = referenceOf sha256 variants id := by
  obtain ⟨hsome, rfl⟩ := (mapM_eq_ok_iff_filterMap evidenceOf_eq_ok).mp h
  unfold referenceOf
  cases hv : variants.find? fun variant => variant.receiptId = id with
  | none =>
    rw [Option.bind_eq_bind, Option.bind_none, Option.eq_none_iff_forall_not_mem]
    intro reference href
    obtain ⟨v, hv', hpair⟩ := List.mem_filterMap.mp (PyDict.mem_of_get?_ofPairs href)
    obtain ⟨_, _, hpair⟩ := Option.map_eq_some_iff.mp hpair
    rw [List.find?_eq_none] at hv
    exact hv v (List.mem_of_mem_filter hv') (by simpa using congrArg Prod.fst hpair)
  | some v =>
    have hvid : v.receiptId = id := by simpa using List.find?_some hv
    have hmem := List.mem_of_find?_eq_some hv
    have hfilter : v ∈ variants.filter fun variant =>
        variant.receiptId ∈ conflictReceiptIds candidate :=
      List.mem_filter.mpr ⟨hmem, by simpa [hvid] using hid⟩
    obtain ⟨pair, hpair⟩ := Option.isSome_iff_exists.mp (hsome v hfilter)
    obtain ⟨reference, href, rfl⟩ := Option.map_eq_some_iff.mp hpair
    obtain ⟨reference', href'⟩ := PyDict.get?_ofPairs_isSome
      (List.mem_filterMap.mpr ⟨v, hfilter, hpair⟩)
    obtain ⟨w, hw, hpair'⟩ := List.mem_filterMap.mp (PyDict.mem_of_get?_ofPairs href')
    obtain ⟨_, hw', he⟩ := Option.map_eq_some_iff.mp hpair'
    obtain ⟨hwid, rfl⟩ := Prod.mk.inj he
    obtain rfl := hagree w (List.mem_of_mem_filter hw) v hmem hwid
    rw [← hvid, href', Option.bind_eq_bind, Option.bind_some, ← hw']

/-- The exceptions are stabilized when every receipt of a conflict has a reference. -/
theorem stabilizeConflictEvidence_eq_ok
    (hagree : ∀ v ∈ variants, ∀ w ∈ variants, v.receiptId = w.receiptId → v = w)
    {stable : ReconciliationResult} :
    stabilizeConflictEvidence sha256 variants candidate = .ok stable ↔
      (∀ id ∈ conflictReceiptIds candidate, (referenceOf sha256 variants id).isSome) ∧
        stable = { candidate with
          exceptions := candidate.exceptions.map (resolve (referenceOf sha256 variants)) } := by
  unfold stabilizeConflictEvidence
  split_ifs with hnone
  · have hsame : candidate.exceptions.map (resolve (referenceOf sha256 variants)) =
        candidate.exceptions := by
      refine (List.map_congr_left fun x hx => ?_).trans (List.map_id _)
      unfold resolve
      split_ifs with hc
      · have hempty : x.supportingSourceRecordIds = [] := by
          rw [List.eq_nil_iff_forall_not_mem]
          intro id hid
          have hmem := mem_conflictReceiptIds.mpr ⟨x, hx, hc, hid⟩
          rw [hnone] at hmem
          cases hmem
        cases x
        obtain rfl := hempty
        rfl
      · rfl
    rw [hsame, hnone]
    constructor
    · intro h
      exact ⟨fun id hid => absurd hid List.not_mem_nil, (Except.ok.inj h).symm⟩
    · rintro ⟨-, rfl⟩
      rfl
  · have hexceptions : ∀ {evidence : PyDict Text Text} {ys}, (∀ id ∈ conflictReceiptIds candidate,
        evidence.get? id = referenceOf sha256 variants id) →
        (candidate.exceptions.mapM (replaceEvidence evidence) = .ok ys ↔
          (∀ id ∈ conflictReceiptIds candidate, (referenceOf sha256 variants id).isSome) ∧
            ys = candidate.exceptions.map (resolve (referenceOf sha256 variants))) := by
      intro evidence ys hget
      rw [mapM_eq_ok_iff_map fun _ _ => replaceEvidence_eq_ok]
      have hsame : candidate.exceptions.map (resolve evidence.get?) =
          candidate.exceptions.map (resolve (referenceOf sha256 variants)) :=
        List.map_congr_left fun x hx => resolve_congr fun hc id hid =>
          hget id (mem_conflictReceiptIds.mpr ⟨x, hx, hc, hid⟩)
      rw [hsame]
      refine and_congr_left fun _ => ⟨fun h id hid => ?_, fun h x hx hc id hid => ?_⟩
      · obtain ⟨x, hx, hc, hxid⟩ := mem_conflictReceiptIds.mp hid
        rw [← hget id hid]
        exact h x hx hc id hxid
      · have hmem := mem_conflictReceiptIds.mpr ⟨x, hx, hc, hid⟩
        rw [hget id hmem]
        exact h id hmem
    constructor
    · intro h
      obtain ⟨pairs, hpairs, h⟩ := bind_eq_ok.mp h
      obtain ⟨exceptions, hys, h⟩ := bind_eq_ok.mp h
      obtain ⟨hsome, rfl⟩ := (hexceptions fun id => evidence_get? hagree hpairs).mp hys
      exact ⟨hsome, (Except.ok.inj h).symm⟩
    · rintro ⟨hsome, rfl⟩
      have hpairs : ∀ v ∈ variants.filter fun variant =>
          variant.receiptId ∈ conflictReceiptIds candidate, (variantPair sha256 v).isSome := by
        intro v hv
        obtain ⟨hv, hid⟩ := List.mem_filter.mp hv
        obtain ⟨reference, hreference⟩ := Option.isSome_iff_exists.mp
          (hsome v.receiptId (by simpa using hid))
        obtain ⟨w, hw, href⟩ := Option.bind_eq_some_iff.mp hreference
        have hwid : w.receiptId = v.receiptId := by simpa using List.find?_some hw
        obtain rfl := hagree w (List.mem_of_find?_eq_some hw) v hv hwid
        rw [variantPair, href]
        rfl
      have hpairs := (mapM_eq_ok_iff_filterMap evidenceOf_eq_ok).mpr ⟨hpairs, rfl⟩
      exact bind_eq_ok.mpr ⟨_, hpairs, bind_eq_ok.mpr ⟨_,
        (hexceptions fun id => evidence_get? hagree hpairs).mpr ⟨hsome, rfl⟩, rfl⟩⟩

end Resolved

end Threadline
