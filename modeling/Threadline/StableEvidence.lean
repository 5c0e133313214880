import Threadline.CanonicalSpec
import Threadline.ConflictEvidence
import Threadline.WindowRows

/-!
# Runs on the same variants

The rows and the stabilized exceptions of a run depend on the canonical records
and on the variants in conflict, not on the receipts that carried them.
-/

open PyText PyCalendar PySorted PyExcept

namespace Threadline

/-! ## Exceptions of the financial rules -/

/-- The codes of exceptions about evidence; every other code is that of a financial rule. -/
def evidenceCodes : List ExceptionCode :=
  [.conflictingSourceVersion, .sourceReportInvalid, .sourceReportMissing]

/-- An exception as a financial rule of the run raises it. -/
def RuleException (run : Run) (x : ReconciliationException) : Prop :=
  ∃ ruleId code entityType entityId expectedAmount actualAmount supporting, code ∉ evidenceCodes ∧
    x = newException run ruleId code entityType entityId expectedAmount actualAmount supporting

namespace Books

variable {b : Books} {f : Finding}

theorem paymentFindings_rule (hf : f ∈ b.paymentFindings) : RuleException b.run f.exception := by
  obtain ⟨-, hf⟩ := mem_gated.mp hf
  obtain ⟨p, -, hf⟩ := List.mem_flatMap.mp hf
  unfold paymentFinding at hf
  split at hf
  · obtain rfl := List.mem_singleton.mp hf
    exact ⟨_, _, _, _, _, _, _, by decide, rfl⟩
  · split_ifs at hf
    · obtain rfl := List.mem_singleton.mp hf
      exact ⟨_, _, _, _, _, _, _, by decide, rfl⟩
    · cases hf

theorem refundFindings_rule (hf : f ∈ b.refundFindings) : RuleException b.run f.exception := by
  obtain ⟨-, hf⟩ := mem_gated.mp hf
  rcases List.mem_append.mp hf with hf | hf
  · obtain ⟨r, -, hf⟩ := List.mem_flatMap.mp hf
    unfold refundFinding at hf
    split at hf
    · obtain rfl := List.mem_singleton.mp hf
      exact ⟨_, _, _, _, _, _, _, by decide, rfl⟩
    · split_ifs at hf
      · obtain rfl := List.mem_singleton.mp hf
        exact ⟨_, _, _, _, _, _, _, by decide, rfl⟩
      · cases hf
  · obtain ⟨p, -, hf⟩ := List.mem_flatMap.mp hf
    unfold excessRefundFinding at hf
    simp only at hf
    split_ifs at hf
    · obtain rfl := List.mem_singleton.mp hf
      exact ⟨_, _, _, _, _, _, _, by decide, rfl⟩
    · cases hf

theorem feeFindings_rule (hf : f ∈ b.feeFindings) : RuleException b.run f.exception := by
  obtain ⟨-, hf⟩ := mem_gated.mp hf
  rcases List.mem_append.mp hf with hf | hf
  · obtain ⟨p, -, hf⟩ := List.mem_flatMap.mp hf
    unfold capturedFeeFinding at hf
    simp only at hf
    split_ifs at hf
    · obtain rfl := List.mem_singleton.mp hf
      exact ⟨_, _, _, _, _, _, _, by decide, rfl⟩
    · obtain rfl := List.mem_singleton.mp hf
      exact ⟨_, _, _, _, _, _, _, by decide, rfl⟩
    · cases hf
  · obtain ⟨fee, -, hf⟩ := List.mem_flatMap.mp hf
    unfold unexpectedFeeFinding at hf
    split at hf
    · obtain rfl := List.mem_singleton.mp hf
      exact ⟨_, _, _, _, _, _, _, by decide, rfl⟩
    · cases hf

theorem orderFindings_rule {o : Order} (hf : f ∈ b.orderFindings o) :
    RuleException b.run f.exception := by
  unfold orderFindings at hf
  split_ifs at hf
  · rcases List.mem_append.mp hf with hf | hf
    · unfold collectionFinding at hf
      simp only at hf
      split_ifs at hf
      · obtain rfl := List.mem_singleton.mp hf
        exact ⟨_, _, _, _, _, _, _, by decide, rfl⟩
      · obtain rfl := List.mem_singleton.mp hf
        exact ⟨_, _, _, _, _, _, _, by decide, rfl⟩
      · cases hf
    · unfold multipleCaptureFinding at hf
      simp only at hf
      split_ifs at hf
      · obtain rfl := List.mem_singleton.mp hf
        exact ⟨_, _, _, _, _, _, _, by decide, rfl⟩
      · cases hf
  · cases hf

theorem duplicateMovementFindings_rule (hf : f ∈ b.duplicateMovementFindings) :
    RuleException b.run f.exception := by
  obtain ⟨-, line, -, hf⟩ := mem_duplicateMovementFindings_iff.mp hf
  unfold duplicateMovementFinding at hf
  split_ifs at hf
  · cases hf
  · obtain rfl := List.mem_singleton.mp hf
    exact ⟨_, _, _, _, _, _, _, by decide, rfl⟩

theorem movementFinding_rule {payout : Payout} {m : ExpectedMovement}
    (hf : f ∈ b.movementFinding payout m) : RuleException b.run f.exception := by
  unfold movementFinding at hf
  split at hf
  · obtain rfl := List.mem_singleton.mp hf
    exact ⟨_, _, _, _, _, _, _, by decide, rfl⟩
  · split_ifs at hf
    · obtain rfl := List.mem_singleton.mp hf
      exact ⟨_, _, _, _, _, _, _, by decide, rfl⟩
    · cases hf
  · cases hf

theorem payoutFindings_rule {movements : List ExpectedMovement} {payout : Payout}
    (hf : f ∈ b.payoutFindings movements payout) : RuleException b.run f.exception := by
  rcases List.mem_append.mp hf with hf | hf
  · split_ifs at hf
    · obtain ⟨m, -, hf⟩ := List.mem_flatMap.mp hf
      exact movementFinding_rule hf
    · cases hf
  · unfold payoutTotalFinding at hf
    split_ifs at hf
    · obtain rfl := List.mem_singleton.mp hf
      exact ⟨_, _, _, _, _, _, _, by decide, rfl⟩
    · cases hf

/-- The findings of the financial rules, in the order of the passes. -/
def ruleFindings (b : Books) (movements : List ExpectedMovement) : List Finding :=
  b.paymentFindings ++ b.refundFindings ++ b.feeFindings ++
    b.records.orders.flatMap b.orderFindings ++ b.duplicateMovementFindings ++
    b.records.payouts.flatMap (b.payoutFindings movements)

theorem ruleFindings_rule {movements : List ExpectedMovement} (hf : f ∈ b.ruleFindings movements) :
    RuleException b.run f.exception := by
  simp only [ruleFindings, List.mem_append] at hf
  rcases hf with ((((hf | hf) | hf) | hf) | hf) | hf
  · exact paymentFindings_rule hf
  · exact refundFindings_rule hf
  · exact feeFindings_rule hf
  · obtain ⟨o, -, hf⟩ := List.mem_flatMap.mp hf
    exact orderFindings_rule hf
  · exact duplicateMovementFindings_rule hf
  · obtain ⟨p, -, hf⟩ := List.mem_flatMap.mp hf
    exact payoutFindings_rule hf

theorem allFindings_eq (b : Books) (canonicalization : CanonicalizationResult)
    (completenessResults : List CompletenessResult) (movements : List ExpectedMovement) :
    b.allFindings canonicalization completenessResults movements =
      sourceCompletenessFindings b.run completenessResults ++
        (canonicalConflictFindings b.run canonicalization ++ b.ruleFindings movements) := by
  simp only [allFindings, middleFindings, earlyFindings, ruleFindings, List.append_assoc]

end Books

theorem resolve_of_rule {run : Run} {x : ReconciliationException} (h : RuleException run x)
    (reference : Text → Option Text) : resolve reference x = x := by
  obtain ⟨_, code, _, _, _, _, _, hcode, rfl⟩ := h
  have hc : code ≠ .conflictingSourceVersion := by
    rintro rfl
    exact hcode (by decide)
  simp [resolve, isConflictException, newException, hc]

theorem resolve_of_source (run : Run) (result : CompletenessResult)
    (reference : Text → Option Text) :
    resolve reference (sourceCompletenessException run result) =
      sourceCompletenessException run result := by
  have hc : isConflictException (sourceCompletenessException run result) = false := by
    simp only [isConflictException, sourceCompletenessException, newException]
    split_ifs <;> decide
  simp [resolve, hc]

theorem exceptionKey_resolve (reference : Text → Option Text) (x : ReconciliationException) :
    exceptionKey (resolve reference x) = exceptionKey x := by
  unfold resolve
  split_ifs <;> rfl

/-! ## Two runs -/

/-- The conflict without the receipts it was seen in. -/
def CanonicalConflict.variants (c : CanonicalConflict) : CanonicalConflict :=
  { c with receiptIds := [] }

/-- The conflict exception with references to the variants. -/
def variantException (sha256 : Bytes → Text) (run : Run) (c : CanonicalConflict) :
    ReconciliationException :=
  { conflictException run c with
    supportingSourceRecordIds := sortedSet (c.payloadHashes.filterMap
      (variantReference sha256 c.identity c.sourceVersion)) }

/-- Every variant of the conflict has a reference. -/
def Referenced (sha256 : Bytes → Text) (c : CanonicalConflict) : Prop :=
  ∀ hash ∈ c.payloadHashes, (variantReference sha256 c.identity c.sourceVersion hash).isSome

/-- The receipts of the conflicts refer to the variants in conflict. -/
structure Resolves (sha256 : Bytes → Text) (reference : Text → Option Text)
    (conflicts : List CanonicalConflict) : Prop where
  exception : ∀ c ∈ conflicts, ∀ run,
    resolve reference (conflictException run c) = variantException sha256 run c
  isSome_iff : ∀ c ∈ conflicts, (∀ id ∈ c.receiptIds, (reference id).isSome) ↔ Referenced sha256 c

section TwoRuns

variable {sha256 : Bytes → Text} {runId : Text} {detectedAt : UtcDateTime}
  {c c' : CanonicalizationResult} {results results' : List CompletenessResult}
  {b : Books} {movements : List ExpectedMovement}

theorem splitCanonicalRecords_congr (h : c'.canonicalRecords = c.canonicalRecords) :
    splitCanonicalRecords c' = splitCanonicalRecords c := by
  obtain ⟨records, _, _, _⟩ := c
  obtain ⟨records', _, _, _⟩ := c'
  obtain rfl : records' = records := h
  rfl

/-- The same records and report states pass the same checks. -/
theorem Opened.congr (h : Opened runId detectedAt c results b movements)
    (hrecords : c'.canonicalRecords = c.canonicalRecords)
    (hstates : buildReportStateMap (sortedBy CompletenessResult.sortKey results') =
      buildReportStateMap (sortedBy CompletenessResult.sortKey results)) :
    Opened runId detectedAt c' results' b movements where
  runId_ok := h.runId_ok
  run_eq := h.run_eq
  states_eq := hstates.trans h.states_eq
  records_eq := h.records_eq.trans (splitCanonicalRecords_congr hrecords).symm
  expectedFees_eq := h.expectedFees_eq
  movements_eq := h.movements_eq
  payoutDates := h.payoutDates

/-- No evidence finding marks an order. -/
theorem Books.transactionRows_early (b : Books) (c : CanonicalizationResult)
    (results : List CompletenessResult) :
    b.transactionRows (b.earlyFindings c results) =
      b.transactionRows (b.paymentFindings ++ b.refundFindings ++ b.feeFindings) := by
  refine List.map_congr_left fun o _ => congrArg (b.transactionRow · o) ?_
  apply codesOf_eq_of_mem
  intro f hid
  simp only [Books.earlyFindings, List.mem_append]
  constructor
  · rintro (((((hf | hf) | hf) | hf) | hf) | hf)
    · obtain ⟨result, -, rfl⟩ := List.mem_map.mp hf
      cases hid
    · obtain ⟨conflict, -, rfl⟩ := List.mem_map.mp hf
      cases hid
    · exact .inl (.inl (.inl hf))
    · exact .inl (.inl (.inr hf))
    · exact .inl (.inr hf)
    · exact .inr hf
  · rintro (((hf | hf) | hf) | hf)
    · exact .inl (.inl (.inl (.inr hf)))
    · exact .inl (.inl (.inr hf))
    · exact .inl (.inr hf)
    · exact .inr hf

/-- Of the findings before the payout loop only duplicate movements mark a payout. -/
theorem Books.payoutRows_middle (b : Books) (c : CanonicalizationResult)
    (results : List CompletenessResult) (movements : List ExpectedMovement) :
    b.payoutRows movements (b.middleFindings c results) =
      b.payoutRows movements b.duplicateMovementFindings := by
  refine List.map_congr_left fun p _ => congrArg (b.payoutRow movements · p) ?_
  apply codesOf_eq_of_mem
  intro f hid
  rw [List.mem_append, List.mem_append, Books.middleFindings_payoutIds hid]

theorem map_exception_resolve {run : Run} {findings : List Finding}
    (h : ∀ f ∈ findings, RuleException run f.exception) (reference : Text → Option Text) :
    (findings.map Finding.exception).map (resolve reference) = findings.map Finding.exception := by
  rw [List.map_map]
  exact List.map_congr_left fun f hf => resolve_of_rule (h f hf) reference

/-- The stabilized exceptions list the variants in conflict. -/
theorem exceptions_resolve {reference : Text → Option Text}
    (hresolves : Resolves sha256 reference c.conflicts) (quarantineRecords : List QuarantinedRecord) :
    (b.result c results quarantineRecords movements).exceptions.map (resolve reference) =
      uniqueExceptions ((sourceCompletenessFindings b.run results).map Finding.exception ++
        (c.conflicts.map (variantException sha256 b.run) ++
          (b.ruleFindings movements).map Finding.exception)) := by
  change (uniqueExceptions _).map _ = _
  rw [← uniqueExceptions_map (exceptionKey_resolve reference), b.allFindings_eq, List.map_append,
    List.map_append, List.map_append, List.map_append,
    map_exception_resolve (fun f hf => Books.ruleFindings_rule hf)]
  have hsource : ((sourceCompletenessFindings b.run results).map Finding.exception).map
      (resolve reference) = (sourceCompletenessFindings b.run results).map Finding.exception := by
    rw [List.map_map]
    refine List.map_congr_left fun f hf => ?_
    obtain ⟨result, -, rfl⟩ := List.mem_map.mp hf
    exact resolve_of_source b.run result reference
  have hconflicts : ((canonicalConflictFindings b.run c).map Finding.exception).map
      (resolve reference) = c.conflicts.map (variantException sha256 b.run) := by
    rw [List.map_map, canonicalConflictFindings, List.map_map]
    exact List.map_congr_left fun conflict hc => hresolves.exception conflict hc b.run
  rw [hsource, hconflicts]

/-- A stabilized run. -/
def Stabilized (sha256 : Bytes → Text) (runId : Text) (detectedAt : UtcDateTime)
    (c : CanonicalizationResult) (results : List CompletenessResult)
    (quarantineRecords : List QuarantinedRecord) (variants : List SourceVariant)
    (r : ReconciliationResult) : Prop :=
  ∃ candidate, reconcile runId detectedAt c results quarantineRecords = .ok candidate ∧
    stabilizeConflictEvidence sha256 variants candidate = .ok r

/-- No two conflicts are about one entity. -/
def DistinctConflicts (conflicts : List CanonicalConflict) : Prop :=
  ∀ x ∈ conflicts, ∀ y ∈ conflicts, x.identity.entityType = y.identity.entityType →
    x.identity.sourceId = y.identity.sourceId → x = y

theorem conflict_of_isConflictException {x : ReconciliationException}
    (hx : x ∈ (b.allFindings c results movements).map Finding.exception)
    (hc : isConflictException x) : ∃ conflict ∈ c.conflicts, conflictException b.run conflict = x := by
  obtain ⟨f, hf, rfl⟩ := List.mem_map.mp hx
  rw [b.allFindings_eq, List.mem_append, List.mem_append] at hf
  have htype : f.exception.exceptionType = .conflictingSourceVersion := by
    simpa [isConflictException] using hc
  rcases hf with hf | hf | hf
  · obtain ⟨result, -, rfl⟩ := List.mem_map.mp hf
    simp only [sourceCompletenessException, newException] at htype
    split_ifs at htype
  · obtain ⟨conflict, hconflict, rfl⟩ := List.mem_map.mp hf
    exact ⟨conflict, hconflict, rfl⟩
  · obtain ⟨_, code, _, _, _, _, _, hcode, he⟩ := Books.ruleFindings_rule hf
    rw [he] at htype
    obtain rfl : code = .conflictingSourceVersion := htype
    exact absurd (by decide) hcode

/-- The receipts in the conflict exceptions are those of the conflicts. -/
theorem mem_conflictReceiptIds_iff (hdistinct : DistinctConflicts c.conflicts)
    {quarantineRecords : List QuarantinedRecord} {id : Text} :
    id ∈ conflictReceiptIds (b.result c results quarantineRecords movements) ↔
      ∃ conflict ∈ c.conflicts, id ∈ conflict.receiptIds := by
  rw [mem_conflictReceiptIds]
  constructor
  · rintro ⟨x, hx, hxc, hid⟩
    obtain ⟨conflict, hconflict, rfl⟩ :=
      conflict_of_isConflictException (mem_of_mem_uniqueExceptions hx) hxc
    exact ⟨conflict, hconflict, mem_sortedSet.mp hid⟩
  · rintro ⟨conflict, hconflict, hid⟩
    have hall : conflictException b.run conflict ∈
        (b.allFindings c results movements).map Finding.exception := by
      rw [b.allFindings_eq, List.map_append, List.map_append]
      refine List.mem_append_right _ (List.mem_append_left _ ?_)
      rw [canonicalConflictFindings, List.map_map]
      exact List.mem_map_of_mem (f := fun conflict => conflictException b.run conflict) hconflict
    obtain ⟨y, hy, hyall, hkey⟩ := exists_mem_uniqueExceptions hall
    have hytype : y.exceptionType = .conflictingSourceVersion :=
      congrArg (fun k => k.2.1) hkey
    obtain ⟨other, hother, rfl⟩ :=
      conflict_of_isConflictException hyall (by simp [isConflictException, hytype])
    have htype := EntityType.value_injective (congrArg (fun k => k.2.2.1) hkey)
    have hsource : other.identity.sourceId = conflict.identity.sourceId :=
      congrArg (fun k => k.2.2.2) hkey
    obtain rfl := hdistinct other hother conflict hconflict htype hsource
    exact ⟨_, hy, rfl, mem_sortedSet.mpr hid⟩

/-- What a stabilized run with these books returns. -/
def Books.stableResult (b : Books) (sha256 : Bytes → Text) (c : CanonicalizationResult)
    (results : List CompletenessResult) (quarantineRecords : List QuarantinedRecord)
    (movements : List ExpectedMovement) : ReconciliationResult :=
  { b.result c results quarantineRecords movements with
    exceptions := uniqueExceptions
      ((sourceCompletenessFindings b.run results).map Finding.exception ++
        (c.conflicts.map (variantException sha256 b.run) ++
          (b.ruleFindings movements).map Finding.exception)) }

/-- A stabilized run passes its checks and refers to the variants in conflict. -/
theorem stabilized_iff {variants : List SourceVariant}
    (hagree : ∀ v ∈ variants, ∀ w ∈ variants, v.receiptId = w.receiptId → v = w)
    (hresolves : Resolves sha256 (referenceOf sha256 variants) c.conflicts)
    (hdistinct : DistinctConflicts c.conflicts) {quarantineRecords : List QuarantinedRecord}
    {r : ReconciliationResult} :
    Stabilized sha256 runId detectedAt c results quarantineRecords variants r ↔
      ∃ b movements, Opened runId detectedAt c results b movements ∧
        (∀ conflict ∈ c.conflicts, Referenced sha256 conflict) ∧
        r = b.stableResult sha256 c (sortedBy CompletenessResult.sortKey results) quarantineRecords
          movements := by
  have hreferenced : ∀ (b : Books) movements, (∀ id ∈ conflictReceiptIds (b.result c
      (sortedBy CompletenessResult.sortKey results) quarantineRecords movements),
      (referenceOf sha256 variants id).isSome) ↔
        ∀ conflict ∈ c.conflicts, Referenced sha256 conflict := by
    intro b movements
    simp only [mem_conflictReceiptIds_iff hdistinct]
    constructor
    · intro h conflict hc
      exact (hresolves.isSome_iff conflict hc).mp fun id hid => h id ⟨conflict, hc, hid⟩
    · rintro h id ⟨conflict, hc, hid⟩
      exact (hresolves.isSome_iff conflict hc).mpr (h conflict hc) id hid
  constructor
  · rintro ⟨candidate, hcandidate, hstable⟩
    obtain ⟨b, movements, hopened, rfl⟩ := reconcile_ok hcandidate
    obtain ⟨hsome, rfl⟩ := (stabilizeConflictEvidence_eq_ok hagree).mp hstable
    exact ⟨b, movements, hopened, (hreferenced b movements).mp hsome, by
      rw [exceptions_resolve hresolves]
      rfl⟩
  · rintro ⟨b, movements, hopened, hsome, rfl⟩
    refine ⟨_, hopened.reconcile_eq quarantineRecords, ?_⟩
    refine (stabilizeConflictEvidence_eq_ok hagree).mpr ⟨(hreferenced b movements).mpr hsome, ?_⟩
    rw [exceptions_resolve hresolves]
    rfl

end TwoRuns

/-! ## Variants of envelopes -/

section Envelopes

variable {sha256 : Bytes → Text} {envelopes : List (RecordEnvelope sha256)}
  {variants : List SourceVariant}

def sourceVariant (e : RecordEnvelope sha256) : SourceVariant :=
  ⟨e.receiptId, e.identity, e.sourceVersion, e.payloadHash⟩

/-- The variants hold those of the envelopes, one for each receipt ID. -/
structure Describes (variants : List SourceVariant) (envelopes : List (RecordEnvelope sha256)) :
    Prop where
  agree : ∀ v ∈ variants, ∀ w ∈ variants, v.receiptId = w.receiptId → v = w
  cover : ∀ e ∈ envelopes, sourceVariant e ∈ variants

theorem Describes.referenceOf_eq (hd : Describes variants envelopes) {e : RecordEnvelope sha256}
    (he : e ∈ envelopes) : referenceOf sha256 variants e.receiptId =
      variantReference sha256 e.identity e.sourceVersion e.payloadHash := by
  have hmem := hd.cover e he
  unfold referenceOf
  cases hv : variants.find? fun variant => variant.receiptId = e.receiptId with
  | none =>
    rw [List.find?_eq_none] at hv
    exact absurd (by simp [sourceVariant]) (hv _ hmem)
  | some v =>
    have hid : v.receiptId = e.receiptId := by simpa using List.find?_some hv
    obtain rfl := hd.agree v (List.mem_of_find?_eq_some hv) _ hmem hid
    rfl

theorem mem_sameVersion {e f : RecordEnvelope sha256} : f ∈ sameVersion envelopes e ↔
    f ∈ envelopes ∧ f.identity = e.identity ∧ f.sourceVersion = e.sourceVersion := by
  simp [sameVersion]

theorem mem_conflictOf_receiptIds {e : RecordEnvelope sha256} {id : Text} :
    id ∈ (conflictOf envelopes e).receiptIds ↔ ∃ f ∈ sameVersion envelopes e, f.receiptId = id := by
  simp [conflictOf]

theorem mem_conflictOf_payloadHashes {e : RecordEnvelope sha256} {hash : Text} :
    hash ∈ (conflictOf envelopes e).payloadHashes ↔
      ∃ f ∈ sameVersion envelopes e, f.payloadHash = hash := by
  simp [conflictOf]

/-- The receipts of a conflict refer to its variants. -/
theorem Describes.resolves (hd : Describes variants envelopes)
    {conflicts : List CanonicalConflict}
    (hc : ∀ c ∈ conflicts, ∃ e ∈ envelopes, conflictOf envelopes e = c) :
    Resolves sha256 (referenceOf sha256 variants) conflicts := by
  have href : ∀ e ∈ envelopes, ∀ f ∈ sameVersion envelopes e,
      referenceOf sha256 variants f.receiptId =
        variantReference sha256 e.identity e.sourceVersion f.payloadHash := by
    intro e _ f hf
    obtain ⟨hf, hi, hv⟩ := mem_sameVersion.mp hf
    rw [hd.referenceOf_eq hf, hi, hv]
  constructor
  · intro c hcc run
    obtain ⟨e, he, rfl⟩ := hc c hcc
    have hsupport : sortedSet ((sortedSet (conflictOf envelopes e).receiptIds).filterMap
        (referenceOf sha256 variants)) = sortedSet ((conflictOf envelopes e).payloadHashes.filterMap
          (variantReference sha256 e.identity e.sourceVersion)) := by
      apply sortedSet_eq_of_mem
      intro reference
      simp only [List.mem_filterMap, mem_sortedSet, mem_conflictOf_receiptIds,
        mem_conflictOf_payloadHashes]
      constructor
      · rintro ⟨_, ⟨f, hf, rfl⟩, hr⟩
        exact ⟨f.payloadHash, ⟨f, hf, rfl⟩, (href e he f hf) ▸ hr⟩
      · rintro ⟨_, ⟨f, hf, rfl⟩, hr⟩
        exact ⟨f.receiptId, ⟨f, hf, rfl⟩, (href e he f hf).trans hr⟩
    unfold resolve variantException
    rw [if_pos (show isConflictException (conflictException run _) = true from rfl)]
    exact congrArg (fun ids => { conflictException run (conflictOf envelopes e) with
      supportingSourceRecordIds := ids }) hsupport
  · intro c hcc
    obtain ⟨e, he, rfl⟩ := hc c hcc
    simp only [Referenced, mem_conflictOf_receiptIds, mem_conflictOf_payloadHashes]
    constructor
    · rintro h _ ⟨f, hf, rfl⟩
      exact (href e he f hf) ▸ h f.receiptId ⟨f, hf, rfl⟩
    · rintro h _ ⟨f, hf, rfl⟩
      rw [href e he f hf]
      exact h f.payloadHash ⟨f, hf, rfl⟩

theorem FinancialRecord.sourceSystem_eq (r : FinancialRecord) :
    r.sourceSystem = if r.entityType = .order then .threadlineShop else .mockpay := by
  cases r <;> rfl

/-- Identities of source records with one type and ID are equal. -/
theorem FinancialRecord.identity_eq {r s : FinancialRecord}
    (htype : r.identity.entityType = s.identity.entityType)
    (hid : r.identity.sourceId = s.identity.sourceId) : r.identity = s.identity := by
  have htype : r.entityType = s.entityType := htype
  have hid : r.recordId = s.recordId := hid
  rw [FinancialRecord.identity, FinancialRecord.identity, r.sourceSystem_eq, s.sourceSystem_eq,
    htype, hid]

theorem Canonicalizes.distinctConflicts {c : CanonicalizationResult}
    (h : Canonicalizes envelopes c) : DistinctConflicts c.conflicts := by
  intro x hx y hy htype hid
  refine List.inj_on_of_nodup_map h.conflicts_nodup hx hy ?_
  obtain ⟨e, -, -, rfl⟩ := (h.mem_conflicts x).mp hx
  obtain ⟨f, -, -, rfl⟩ := (h.mem_conflicts y).mp hy
  exact FinancialRecord.identity_eq htype hid

end Envelopes

end Threadline
