import Threadline.ContradictedEvidence
import Threadline.PayoutRules

/-!
# Money between payouts

Movements and settlement lines are looked at only from the payouts of the run.
A movement of a day without a payout, or a line of an unknown payout, is covered
only when a rule happens to name it.
-/

open PyText PyCalendar PySorted

namespace Threadline

/-! ## References -/

theorem colon_notMem_entityType (t : EntityType) : ofChar ':' ∉ t.value := by
  cases t <;> decide

theorem colon_notMem_movementType (t : MovementType) : ofChar ':' ∉ t.value := by
  cases t <;> decide

theorem sourceReference_eq_iff {a b : FinancialRecord} : sourceReference a = sourceReference b ↔
    a.entityType = b.entityType ∧ a.recordId = b.recordId := by
  constructor
  · intro h
    obtain ⟨ht, hid⟩ :=
      append_sep_inj (colon_notMem_entityType _) (colon_notMem_entityType _) h
    exact ⟨EntityType.value_injective ht, hid⟩
  · rintro ⟨ht, hid⟩
    rw [sourceReference, sourceReference, ht, hid]

theorem movementText_injective : Function.Injective movementText := by
  intro a b h
  obtain ⟨ht, hid⟩ :=
    append_sep_inj (colon_notMem_movementType _) (colon_notMem_movementType _) h
  exact Prod.ext (MovementType.value_injective ht) hid

/-! ## What the findings are about -/

/-- The types of the records that the order, payment, refund and fee rules are about. -/
def transactionTypes : List EntityType := [.order, .payment, .refund, .fee]

/-- The reference of an order, payment, refund or fee. -/
def TransactionRef (ref : Text) : Prop :=
  ∃ r : FinancialRecord, r.entityType ∈ transactionTypes ∧ sourceReference r = ref

@[simp] theorem transactionRef_order (o : Order) : TransactionRef (sourceReference (.order o)) :=
  ⟨.order o, (by decide : EntityType.order ∈ transactionTypes), rfl⟩

@[simp] theorem transactionRef_payment (p : Payment) :
    TransactionRef (sourceReference (.payment p)) := ⟨.payment p, (by decide : EntityType.payment ∈ transactionTypes), rfl⟩

@[simp] theorem transactionRef_refund (r : Refund) :
    TransactionRef (sourceReference (.refund r)) := ⟨.refund r, (by decide : EntityType.refund ∈ transactionTypes), rfl⟩

@[simp] theorem transactionRef_fee (f : Fee) : TransactionRef (sourceReference (.fee f)) :=
  ⟨.fee f, (by decide : EntityType.fee ∈ transactionTypes), rfl⟩

theorem TransactionRef.ne_settlementLine {ref : Text} (h : TransactionRef ref)
    (line : SettlementLine) : ref ≠ sourceReference (.settlementLine line) := by
  obtain ⟨r, hr, rfl⟩ := h
  intro he
  rw [(sourceReference_eq_iff.mp he).1] at hr
  exact absurd hr (by decide : EntityType.settlementLine ∉ transactionTypes)

/-- An exception about an order, payment, refund or fee that refers only to such records. -/
structure AboutTransaction (x : ReconciliationException) : Prop where
  entityType : ∃ t ∈ transactionTypes, x.entityType = t.value
  references : ∀ ref ∈ x.supportingSourceRecordIds, TransactionRef ref

theorem aboutTransaction_new {run : Run} {ruleId : Text} {code : ExceptionCode} {t : EntityType}
    {entityId : Text} {expected actual : Option Amount} {refs : List Text}
    (ht : t ∈ transactionTypes) (hrefs : ∀ ref ∈ refs, TransactionRef ref) :
    AboutTransaction (newException run ruleId code t.value entityId expected actual refs) :=
  ⟨⟨t, ht, rfl⟩, fun ref href => hrefs ref (mem_sortedSet.mp href)⟩

namespace Books

variable {b : Books}

theorem paymentFinding_about {p : Payment} {f : Finding} (hf : f ∈ b.paymentFinding p) :
    AboutTransaction f.exception := by
  unfold paymentFinding at hf
  split at hf
  · rw [List.mem_singleton.mp hf]
    exact aboutTransaction_new (by decide) (by simp)
  · split_ifs at hf
    · rw [List.mem_singleton.mp hf]
      exact aboutTransaction_new (by decide) (by simp)
    · cases hf

theorem refundFinding_about {r : Refund} {f : Finding} (hf : f ∈ b.refundFinding r) :
    AboutTransaction f.exception := by
  unfold refundFinding at hf
  split at hf
  · rw [List.mem_singleton.mp hf]
    exact aboutTransaction_new (by decide) (by simp)
  · split_ifs at hf
    · rw [List.mem_singleton.mp hf]
      exact aboutTransaction_new (by decide) (by simp)
    · cases hf

theorem excessRefundFinding_about {p : Payment} {f : Finding} (hf : f ∈ b.excessRefundFinding p) :
    AboutTransaction f.exception := by
  unfold excessRefundFinding at hf
  simp only at hf
  split_ifs at hf
  · rw [List.mem_singleton.mp hf]
    exact aboutTransaction_new (by decide) (by simp)
  · cases hf

theorem capturedFeeFinding_about {p : Payment} {f : Finding} (hf : f ∈ b.capturedFeeFinding p) :
    AboutTransaction f.exception := by
  unfold capturedFeeFinding at hf
  simp only at hf
  split_ifs at hf
  · rw [List.mem_singleton.mp hf]
    exact aboutTransaction_new (by decide) (by simp)
  · rw [List.mem_singleton.mp hf]
    exact aboutTransaction_new (by decide) (by simp)
  · cases hf

theorem unexpectedFeeFinding_about {fee : Fee} {f : Finding} (hf : f ∈ b.unexpectedFeeFinding fee) :
    AboutTransaction f.exception := by
  unfold unexpectedFeeFinding at hf
  split at hf
  · rw [List.mem_singleton.mp hf]
    exact aboutTransaction_new (by decide) (by simp)
  · cases hf

theorem orderFindings_about {o : Order} {f : Finding} (hf : f ∈ b.orderFindings o) :
    AboutTransaction f.exception := by
  unfold orderFindings at hf
  split_ifs at hf
  · rcases List.mem_append.mp hf with hf | hf
    · unfold collectionFinding at hf
      simp only at hf
      split_ifs at hf
      · rw [List.mem_singleton.mp hf]
        exact aboutTransaction_new (by decide) (by simp)
      · rw [List.mem_singleton.mp hf]
        exact aboutTransaction_new (by decide) (by simp)
      · cases hf
    · unfold multipleCaptureFinding at hf
      simp only at hf
      split_ifs at hf
      · rw [List.mem_singleton.mp hf]
        exact aboutTransaction_new (by decide) (by simp)
      · cases hf
  · cases hf

theorem mem_gate {gate : Prop} [Decidable gate] {xs : List Finding} {f : Finding}
    (h : f ∈ if gate then xs else []) : f ∈ xs := by
  split_ifs at h
  · exact h
  · cases h

/-- The findings before the settlement rules, apart from reports and conflicts. -/
theorem transactionFindings_about {f : Finding}
    (hf : f ∈ b.paymentFindings ∨ f ∈ b.refundFindings ∨ f ∈ b.feeFindings ∨
      f ∈ b.records.orders.flatMap b.orderFindings) : AboutTransaction f.exception := by
  rcases hf with hf | hf | hf | hf
  · obtain ⟨p, _, hf⟩ := List.mem_flatMap.mp (mem_gate hf)
    exact paymentFinding_about hf
  · rcases List.mem_append.mp (mem_gate hf) with hf | hf
    · obtain ⟨r, _, hf⟩ := List.mem_flatMap.mp hf
      exact refundFinding_about hf
    · obtain ⟨p, _, hf⟩ := List.mem_flatMap.mp hf
      exact excessRefundFinding_about hf
  · rcases List.mem_append.mp (mem_gate hf) with hf | hf
    · obtain ⟨p, _, hf⟩ := List.mem_flatMap.mp hf
      exact capturedFeeFinding_about hf
    · obtain ⟨fee, _, hf⟩ := List.mem_flatMap.mp hf
      exact unexpectedFeeFinding_about hf
  · obtain ⟨o, _, hf⟩ := List.mem_flatMap.mp hf
    exact orderFindings_about hf

/-! ## Settlement and payout findings -/

def linesOfMovement (records : CanonicalRecords) (key : MovementType × Text) :
    List SettlementLine := records.settlementLines.filter fun line => line.movementKey = key

theorem mem_linesOfMovement {records : CanonicalRecords} {key : MovementType × Text}
    {line : SettlementLine} : line ∈ linesOfMovement records key ↔
      line ∈ records.settlementLines ∧ line.movementKey = key := by
  simp [linesOfMovement]

def duplicateMovementException (b : Books) (key : MovementType × Text) :
    ReconciliationException :=
  newException b.run (txt "settlement.unique_movement_allocation") .duplicateSettlementMovement
    (txt "SETTLEMENT_MOVEMENT") (movementText key) none
    (some (.count (linesOfMovement b.records key).length))
    ((linesOfMovement b.records key).map fun line => sourceReference (.settlementLine line))

/-- Every movement with two lines is reported once its report is complete. -/
theorem mem_duplicateMovementFindings (hcomplete : b.states .settlementLines = .complete)
    {x : ReconciliationException} :
    (∃ f ∈ b.duplicateMovementFindings, f.exception = x) ↔
      ∃ key, 2 ≤ (linesOfMovement b.records key).length ∧
        duplicateMovementException b key = x := by
  have hgroup : ∀ key group, (key, group) ∈ (PyDict.groupBy SettlementLine.movementKey
      b.records.settlementLines).items → group = linesOfMovement b.records key := by
    intro key group hmem
    rw [linesOfMovement, ← PyDict.getD_groupBy, PyDict.getD, PyDict.mem_items_iff.mp hmem,
      Option.getD_some]
  rw [duplicateMovementFindings, if_pos hcomplete]
  constructor
  · rintro ⟨f, hf, rfl⟩
    obtain ⟨⟨key, group⟩, hmem, hf⟩ := List.mem_flatMap.mp hf
    obtain rfl := hgroup key group ((mem_sortedBy _).mp hmem)
    unfold duplicateMovementFinding at hf
    split_ifs at hf with hlen
    · cases hf
    · rw [List.mem_singleton.mp hf]
      exact ⟨key, not_le.mp hlen, rfl⟩
  · rintro ⟨key, hlen, rfl⟩
    obtain ⟨line, hline⟩ := List.exists_mem_of_ne_nil (linesOfMovement b.records key)
      (List.ne_nil_of_length_pos (by omega))
    obtain ⟨hline, hkey⟩ := mem_linesOfMovement.mp hline
    obtain ⟨group, hget⟩ := PyDict.mem_keys_iff.mp
      (PyDict.mem_keys_groupBy.mpr ⟨line, hline, hkey⟩)
    have hmem := PyDict.mem_items_iff.mpr hget
    obtain rfl := hgroup key group hmem
    let f : Finding := ⟨duplicateMovementException b key, [],
      (linesOfMovement b.records key).map SettlementLine.payoutId⟩
    refine ⟨f, List.mem_flatMap.mpr ⟨_, (mem_sortedBy _).mpr hmem, ?_⟩, rfl⟩
    unfold duplicateMovementFinding
    rw [if_neg (not_le.mpr hlen)]
    exact List.mem_singleton_self _

/-- The lines of a payout with the key of a movement. -/
def payoutLinesOfMovement (b : Books) (payout : Payout) (m : ExpectedMovement) :
    List SettlementLine :=
  (b.linesByPayout payout.payoutId).filter fun line => line.movementKey = m.movementKey

def missingLineException (b : Books) (m : ExpectedMovement) : ReconciliationException :=
  newException b.run (txt "settlement.expected_movement_exists") .missingSettlementLine
    (txt "EXPECTED_MOVEMENT") (movementText m.movementKey) (some (.money m.signedAmount))
    (some (.money 0)) m.supportingSourceRecordIds

theorem movementFinding_of_missing {payout : Payout} {m : ExpectedMovement}
    (h : payoutLinesOfMovement b payout m = []) :
    ∃ f ∈ b.movementFinding payout m, f.exception = missingLineException b m := by
  unfold movementFinding
  rw [PyDict.getD_groupBy, ← payoutLinesOfMovement, h]
  exact ⟨_, List.mem_singleton_self _, rfl⟩

/-- A finding about a movement misses its line or names one of the payout's lines. -/
theorem movementFinding_cases {payout : Payout} {m : ExpectedMovement} {f : Finding}
    (hf : f ∈ b.movementFinding payout m) :
    (payoutLinesOfMovement b payout m = [] ∧ f.exception = missingLineException b m) ∨
    ∃ line ∈ b.linesByPayout payout.payoutId,
      f.exception.entityType = EntityType.settlementLine.value ∧
      f.exception.entityId = line.settlementLineId ∧
      ∀ ref ∈ f.exception.supportingSourceRecordIds,
        ref ∈ m.supportingSourceRecordIds ∨ ref = sourceReference (.settlementLine line) := by
  unfold movementFinding at hf
  rw [PyDict.getD_groupBy, ← payoutLinesOfMovement] at hf
  split at hf
  next hnil =>
    rw [List.mem_singleton.mp hf]
    exact .inl ⟨hnil, rfl⟩
  next line hline =>
    split_ifs at hf
    · rw [List.mem_singleton.mp hf]
      have hm : line ∈ payoutLinesOfMovement b payout m := by rw [hline]; simp
      refine .inr ⟨line, List.mem_of_mem_filter hm, rfl, rfl, fun ref href => ?_⟩
      have href := mem_sortedSet.mp href
      simpa using href
    · cases hf
  next => cases hf

theorem payoutTotalFinding_refs {payout : Payout} {f : Finding}
    (hf : f ∈ b.payoutTotalFinding payout) :
    f.exception.entityType = EntityType.payout.value ∧
      ∀ ref ∈ f.exception.supportingSourceRecordIds, ref = sourceReference (.payout payout) ∨
        ∃ line ∈ b.linesByPayout payout.payoutId, sourceReference (.settlementLine line) = ref := by
  unfold payoutTotalFinding at hf
  split_ifs at hf
  · rw [List.mem_singleton.mp hf]
    refine ⟨rfl, fun ref href => ?_⟩
    have href := mem_sortedSet.mp href
    simpa using href
  · cases hf

/-- A movement refers to its payment, its fees or its refund. -/
theorem movement_refs {movements : List ExpectedMovement}
    (h : b.expectedMovements = .ok movements) {m : ExpectedMovement} (hm : m ∈ movements) :
    ∀ ref ∈ m.supportingSourceRecordIds, TransactionRef ref := by
  rcases (mem_expectedMovements h).mp hm with ⟨p, _, d, _, hm⟩ | ⟨r, _, d, _, rfl⟩
  · simp only [captureMovements, List.mem_cons, List.not_mem_nil, or_false] at hm
    rcases hm with rfl | rfl <;> simp
  · simp [refundMovement]

/-! ## Where the exceptions come from -/

/-- The origin of an exception when all reports are complete. -/
inductive ExceptionOrigin (b : Books) (canonicalization : CanonicalizationResult)
    (movements : List ExpectedMovement) : ReconciliationException → Prop
  | conflict (conflict : CanonicalConflict) (hconflict : conflict ∈ canonicalization.conflicts) :
      ExceptionOrigin b canonicalization movements (conflictException b.run conflict)
  | transaction (x : ReconciliationException) (hx : AboutTransaction x) :
      ExceptionOrigin b canonicalization movements x
  | duplicate (key : MovementType × Text) (hlines : 2 ≤ (linesOfMovement b.records key).length) :
      ExceptionOrigin b canonicalization movements (duplicateMovementException b key)
  | missing (payout : Payout) (m : ExpectedMovement) (hpayout : payout ∈ b.records.payouts)
      (hm : m ∈ movements) (hdate : m.availableOn = payout.payoutDate)
      (hlines : payoutLinesOfMovement b payout m = []) :
      ExceptionOrigin b canonicalization movements (missingLineException b m)
  | payoutLine (x : ReconciliationException) (payout : Payout) (line : SettlementLine)
      (hpayout : payout ∈ b.records.payouts) (hline : line ∈ b.linesByPayout payout.payoutId)
      (htype : x.entityType = EntityType.settlementLine.value)
      (hid : x.entityId = line.settlementLineId)
      (hrefs : ∀ ref ∈ x.supportingSourceRecordIds,
        TransactionRef ref ∨ ref = sourceReference (.settlementLine line)) :
      ExceptionOrigin b canonicalization movements x
  | payoutTotal (x : ReconciliationException) (payout : Payout)
      (hpayout : payout ∈ b.records.payouts) (htype : x.entityType = EntityType.payout.value)
      (hrefs : ∀ ref ∈ x.supportingSourceRecordIds, ref = sourceReference (.payout payout) ∨
        ∃ line ∈ b.linesByPayout payout.payoutId, sourceReference (.settlementLine line) = ref) :
      ExceptionOrigin b canonicalization movements x

section Origin

variable {runId : Text} {detectedAt : UtcDateTime} {canonicalization : CanonicalizationResult}
  {completenessResults : List CompletenessResult} {movements : List ExpectedMovement}

theorem payoutFindings_origin (hmovements : b.expectedMovements = .ok movements) {payout : Payout}
    (hpayout : payout ∈ b.records.payouts) {f : Finding}
    (hf : f ∈ b.payoutFindings movements payout) :
    ExceptionOrigin b canonicalization movements f.exception := by
  rcases List.mem_append.mp hf with hf | hf
  · obtain ⟨m, hm, hf⟩ := List.mem_flatMap.mp (mem_gate hf)
    rw [expectedForDate_eq, List.mem_filter, decide_eq_true_eq] at hm
    obtain ⟨hm, hdate⟩ := hm
    rcases movementFinding_cases hf with ⟨hlines, he⟩ | ⟨line, hline, htype, hid, hrefs⟩
    · rw [he]
      exact .missing payout m hpayout hm hdate hlines
    · refine .payoutLine _ payout line hpayout hline htype hid fun ref href => ?_
      exact (hrefs ref href).imp_left (movement_refs hmovements hm ref)
  · obtain ⟨htype, hrefs⟩ := payoutTotalFinding_refs hf
    exact .payoutTotal _ payout hpayout htype hrefs

theorem exception_origin
    (h : Opened runId detectedAt canonicalization completenessResults b movements)
    (hcomplete : ∀ t, ReportComplete completenessResults t) {f : Finding}
    (hf : f ∈ b.allFindings canonicalization
      (sortedBy CompletenessResult.sortKey completenessResults) movements) :
    ExceptionOrigin b canonicalization movements f.exception := by
  simp only [allFindings, middleFindings, earlyFindings, List.mem_append] at hf
  rcases hf with ((((((hf | hf) | hf) | hf) | hf) | hf) | hf) | hf
  · -- no report is incomplete
    exfalso
    obtain ⟨c, hc, -⟩ := List.mem_map.mp hf
    obtain ⟨hc, hstate⟩ := List.mem_filter.mp hc
    have hincomplete := (h.state_eq_iff c.status.reportType .incomplete).mpr
      ⟨c, (mem_sortedBy _).mp hc, rfl, by simpa using hstate⟩
    rw [(h.complete_iff _).mpr (hcomplete _)] at hincomplete
    cases hincomplete
  · obtain ⟨conflict, hconflict, rfl⟩ := List.mem_map.mp hf
    exact .conflict conflict hconflict
  · exact .transaction _ (transactionFindings_about (.inl hf))
  · exact .transaction _ (transactionFindings_about (.inr (.inl hf)))
  · exact .transaction _ (transactionFindings_about (.inr (.inr (.inl hf))))
  · exact .transaction _ (transactionFindings_about (.inr (.inr (.inr hf))))
  · have hlines := (h.complete_iff .settlementLines).mpr (hcomplete _)
    obtain ⟨key, hkey, he⟩ := (mem_duplicateMovementFindings hlines).mp ⟨f, hf, rfl⟩
    rw [← he]
    exact .duplicate key hkey
  · obtain ⟨payout, hpayout, hf⟩ := List.mem_flatMap.mp hf
    exact payoutFindings_origin h.movements_eq hpayout hf

end Origin

end Books

/-! ## Citations -/

/-- The exception names the movement. -/
def CitesMovement (x : ReconciliationException) (key : MovementType × Text) : Prop :=
  (x.entityType = txt "EXPECTED_MOVEMENT" ∨ x.entityType = txt "SETTLEMENT_MOVEMENT") ∧
    x.entityId = movementText key

/-- The exception is about the line or lists its reference. A conflict lists receipt IDs. -/
def CitesLine (x : ReconciliationException) (line : SettlementLine) : Prop :=
  (x.entityType = EntityType.settlementLine.value ∧ x.entityId = line.settlementLineId) ∨
    x.exceptionType ≠ .conflictingSourceVersion ∧
      sourceReference (.settlementLine line) ∈ x.supportingSourceRecordIds

theorem entityType_ne_movement (t : EntityType) :
    ¬ (t.value = txt "EXPECTED_MOVEMENT" ∨ t.value = txt "SETTLEMENT_MOVEMENT") := by
  cases t <;> decide

section Citations

variable {runId : Text} {detectedAt : UtcDateTime} {canonicalization : CanonicalizationResult}
  {completenessResults : List CompletenessResult} {b : Books} {movements : List ExpectedMovement}

theorem mem_result_exceptions
    (h : Opened runId detectedAt canonicalization completenessResults b movements)
    (hcomplete : ∀ t, ReportComplete completenessResults t)
    {quarantineRecords : List QuarantinedRecord} {x : ReconciliationException}
    (hx : x ∈ (b.result canonicalization (sortedBy CompletenessResult.sortKey completenessResults)
      quarantineRecords movements).exceptions) :
    b.ExceptionOrigin canonicalization movements x := by
  obtain ⟨f, hf, rfl⟩ := List.mem_map.mp (mem_of_mem_uniqueExceptions hx)
  exact Books.exception_origin h hcomplete hf

/-- A finding is represented by an exception of the same key. -/
theorem exists_exception_of_finding {results : List CompletenessResult}
    {quarantineRecords : List QuarantinedRecord} {f : Finding}
    (hf : f ∈ b.allFindings canonicalization results movements) :
    ∃ x ∈ (b.result canonicalization results quarantineRecords movements).exceptions,
      exceptionKey x = exceptionKey f.exception := by
  obtain ⟨x, hx, -, hkey⟩ := exists_mem_uniqueExceptions (List.mem_map_of_mem hf)
  exact ⟨x, hx, hkey⟩

theorem duplicateMovement_mem_findings {results : List CompletenessResult}
    (hstate : b.states .settlementLines = .complete) {key : MovementType × Text}
    (hlines : 2 ≤ (Books.linesOfMovement b.records key).length) :
    ∃ f ∈ b.allFindings canonicalization results movements,
      f.exception = b.duplicateMovementException key := by
  obtain ⟨f, hf, he⟩ := (Books.mem_duplicateMovementFindings hstate).mpr ⟨key, hlines, rfl⟩
  refine ⟨f, ?_, he⟩
  simp only [Books.allFindings, Books.middleFindings, List.mem_append]
  exact .inl (.inr hf)

/-- A movement is named when it has two lines, or when a payout of its date misses its line. -/
theorem movement_cited_iff
    (h : Opened runId detectedAt canonicalization completenessResults b movements)
    (hcomplete : ∀ t, ReportComplete completenessResults t)
    (quarantineRecords : List QuarantinedRecord) (key : MovementType × Text) :
    (∃ x ∈ (b.result canonicalization (sortedBy CompletenessResult.sortKey completenessResults)
      quarantineRecords movements).exceptions, CitesMovement x key) ↔
    2 ≤ (Books.linesOfMovement b.records key).length ∨
      ∃ payout ∈ b.records.payouts, ∃ m ∈ movements, m.availableOn = payout.payoutDate ∧
        m.movementKey = key ∧ b.payoutLinesOfMovement payout m = [] := by
  constructor
  · rintro ⟨x, hx, htype, hid⟩
    cases mem_result_exceptions h hcomplete hx with
    | conflict conflict => exact absurd htype (entityType_ne_movement _)
    | transaction _ hx =>
      obtain ⟨t, -, ht⟩ := hx.entityType
      exact absurd (ht ▸ htype) (entityType_ne_movement t)
    | duplicate key' hlines =>
      obtain rfl := movementText_injective hid
      exact .inl hlines
    | missing payout m hpayout hm hdate hlines =>
      exact .inr ⟨payout, hpayout, m, hm, hdate, movementText_injective hid, hlines⟩
    | payoutLine _ _ _ _ _ ht => exact absurd (ht ▸ htype) (entityType_ne_movement _)
    | payoutTotal _ _ _ ht => exact absurd (ht ▸ htype) (entityType_ne_movement _)
  · rintro (hlines | ⟨payout, hpayout, m, hm, hdate, rfl, hlines⟩)
    · obtain ⟨f, hf, he⟩ := duplicateMovement_mem_findings
        ((h.complete_iff _).mpr (hcomplete _)) hlines
      obtain ⟨x, hx, hkey⟩ := exists_exception_of_finding hf
      rw [he] at hkey
      simp only [exceptionKey, Prod.mk.injEq] at hkey
      exact ⟨x, hx, .inr hkey.2.2.1, hkey.2.2.2⟩
    · obtain ⟨f, hf, he⟩ := Books.movementFinding_of_missing hlines
      have hgate : reportsComplete b.states [.payments, .refunds, .fees, .settlementLines] :=
        reportsComplete_iff.mpr fun t _ => (h.complete_iff t).mpr (hcomplete t)
      have hmem : f ∈ b.allFindings canonicalization
          (sortedBy CompletenessResult.sortKey completenessResults) movements := by
        refine List.mem_append_right _ (List.mem_flatMap.mpr ⟨payout, hpayout, ?_⟩)
        rw [Books.payoutFindings, if_pos hgate]
        refine List.mem_append_left _ (List.mem_flatMap.mpr ⟨m, ?_, hf⟩)
        rw [Books.expectedForDate_eq]
        exact List.mem_filter.mpr ⟨hm, decide_eq_true hdate⟩
      obtain ⟨x, hx, hkey⟩ := exists_exception_of_finding hmem
      rw [he] at hkey
      simp only [exceptionKey, Prod.mk.injEq] at hkey
      exact ⟨x, hx, .inl hkey.2.2.1, hkey.2.2.2⟩

theorem line_eq_of_reference {line line' : SettlementLine}
    (hline : line ∈ b.records.settlementLines) (hline' : line' ∈ b.records.settlementLines)
    (h : sourceReference (.settlementLine line) = sourceReference (.settlementLine line')) :
    line = line' :=
  List.inj_on_of_nodup_map b.records.settlementLines_nodup hline hline' (sourceReference_eq_iff.mp h).2

/-- A line that no conflict names is cited only for its payout or for a second line of its
movement. -/
theorem line_cited
    (h : Opened runId detectedAt canonicalization completenessResults b movements)
    (hcomplete : ∀ t, ReportComplete completenessResults t)
    {quarantineRecords : List QuarantinedRecord} {line : SettlementLine}
    (hline : line ∈ b.records.settlementLines) {x : ReconciliationException}
    (hx : x ∈ (b.result canonicalization (sortedBy CompletenessResult.sortKey completenessResults)
      quarantineRecords movements).exceptions) (hcites : CitesLine x line) :
    (∃ payout ∈ b.records.payouts, payout.payoutId = line.payoutId) ∨
      2 ≤ (Books.linesOfMovement b.records line.movementKey).length ∨
      ∃ conflict ∈ canonicalization.conflicts, conflict.identity.entityType = .settlementLine ∧
        conflict.identity.sourceId = line.settlementLineId := by
  have hlines : ∀ {payout : Payout} {line' : SettlementLine},
      line' ∈ b.linesByPayout payout.payoutId →
        line' ∈ b.records.settlementLines ∧ line'.payoutId = payout.payoutId := by
    intro payout line' hline'
    rw [Books.linesByPayout_eq, List.mem_filter, decide_eq_true_eq] at hline'
    exact hline'
  cases mem_result_exceptions h hcomplete hx with
  | conflict conflict hconflict =>
    rcases hcites with ⟨htype, hid⟩ | ⟨hne, -⟩
    · exact .inr (.inr ⟨conflict, hconflict, EntityType.value_injective htype, hid⟩)
    · exact absurd rfl hne
  | transaction _ hx =>
    rcases hcites with ⟨htype, -⟩ | ⟨-, href⟩
    · obtain ⟨t, ht, he⟩ := hx.entityType
      rw [EntityType.value_injective (he.symm.trans htype)] at ht
      exact absurd ht (by decide)
    · exact absurd rfl ((hx.references _ href).ne_settlementLine line)
  | duplicate key hkey =>
    rcases hcites with ⟨htype, -⟩ | ⟨-, href⟩
    · exact absurd (.inr htype.symm) (entityType_ne_movement .settlementLine)
    · obtain ⟨line', hmem, he⟩ := List.mem_map.mp (mem_sortedSet.mp href)
      obtain ⟨hline', rfl⟩ := Books.mem_linesOfMovement.mp hmem
      rw [line_eq_of_reference hline' hline he] at hkey
      exact .inr (.inl hkey)
  | missing payout m hpayout hm =>
    rcases hcites with ⟨htype, -⟩ | ⟨-, href⟩
    · exact absurd (.inl htype.symm) (entityType_ne_movement .settlementLine)
    · have href := Books.movement_refs h.movements_eq hm _ (mem_sortedSet.mp href)
      exact absurd rfl (href.ne_settlementLine line)
  | payoutLine _ payout line' hpayout hline' htype hid hrefs =>
    obtain ⟨hmem, hpayoutId⟩ := hlines hline'
    have heq : line' = line := by
      rcases hcites with ⟨-, hid'⟩ | ⟨-, href⟩
      · exact List.inj_on_of_nodup_map b.records.settlementLines_nodup hmem hline
          (hid.symm.trans hid')
      · rcases hrefs _ href with href | href
        · exact absurd rfl (href.ne_settlementLine line)
        · exact line_eq_of_reference hmem hline href.symm
    exact .inl ⟨payout, hpayout, by rw [← hpayoutId, heq]⟩
  | payoutTotal _ payout hpayout htype hrefs =>
    rcases hcites with ⟨htype', -⟩ | ⟨-, href⟩
    · exact absurd (EntityType.value_injective (htype.symm.trans htype')) (by decide)
    · rcases hrefs _ href with href | ⟨line', hline', he⟩
      · exact absurd (sourceReference_eq_iff.mp href).1
          (by decide : EntityType.settlementLine ≠ .payout)
      · obtain ⟨hmem, hpayoutId⟩ := hlines hline'
        rw [line_eq_of_reference hmem hline he] at hpayoutId
        exact .inl ⟨payout, hpayout, hpayoutId.symm⟩

/-- The lines of a movement that has two are all cited. -/
theorem line_cited_of_duplicate
    (h : Opened runId detectedAt canonicalization completenessResults b movements)
    (hcomplete : ∀ t, ReportComplete completenessResults t)
    (quarantineRecords : List QuarantinedRecord) {line : SettlementLine}
    (hline : line ∈ b.records.settlementLines)
    (hlines : 2 ≤ (Books.linesOfMovement b.records line.movementKey).length) :
    ∃ x ∈ (b.result canonicalization (sortedBy CompletenessResult.sortKey completenessResults)
      quarantineRecords movements).exceptions, CitesLine x line := by
  obtain ⟨f, hf, he⟩ := duplicateMovement_mem_findings
    ((h.complete_iff _).mpr (hcomplete _)) hlines
  obtain ⟨x, hx, hkey⟩ := exists_exception_of_finding hf
  rw [he] at hkey
  simp only [exceptionKey, Prod.mk.injEq] at hkey
  obtain ⟨-, hcode, htype, hid⟩ := hkey
  have htype : x.entityType = txt "SETTLEMENT_MOVEMENT" := htype
  refine ⟨x, hx, .inr ⟨by rw [hcode]; exact (by decide : ExceptionCode.duplicateSettlementMovement ≠
    .conflictingSourceVersion), ?_⟩⟩
  -- the exception that stands is the one of this movement
  cases mem_result_exceptions h hcomplete hx with
  | conflict conflict => exact absurd (.inr htype) (entityType_ne_movement _)
  | transaction _ hx =>
    obtain ⟨t, -, ht⟩ := hx.entityType
    exact absurd (.inr (ht.symm.trans htype)) (entityType_ne_movement t)
  | duplicate key' =>
    obtain rfl := movementText_injective hid
    exact mem_sortedSet.mpr (List.mem_map_of_mem (Books.mem_linesOfMovement.mpr ⟨hline, rfl⟩))
  | missing => exact absurd htype (by decide : txt "EXPECTED_MOVEMENT" ≠ txt "SETTLEMENT_MOVEMENT")
  | payoutLine _ _ _ _ _ ht =>
    exact absurd (.inr (ht.symm.trans htype)) (entityType_ne_movement _)
  | payoutTotal _ _ _ ht => exact absurd (.inr (ht.symm.trans htype)) (entityType_ne_movement _)

theorem line_cited_of_conflict {results : List CompletenessResult}
    {quarantineRecords : List QuarantinedRecord} {line : SettlementLine}
    {conflict : CanonicalConflict} (hconflict : conflict ∈ canonicalization.conflicts)
    (htype : conflict.identity.entityType = .settlementLine)
    (hid : conflict.identity.sourceId = line.settlementLineId) :
    ∃ x ∈ (b.result canonicalization results quarantineRecords movements).exceptions,
      CitesLine x line := by
  have hf : ⟨conflictException b.run conflict, [], []⟩ ∈
      b.allFindings canonicalization results movements := by
    simp only [Books.allFindings, Books.middleFindings, Books.earlyFindings, List.mem_append]
    iterate 6 left
    exact .inr (List.mem_map_of_mem hconflict)
  obtain ⟨x, hx, hkey⟩ := exists_exception_of_finding hf
  simp only [exceptionKey, Prod.mk.injEq] at hkey
  refine ⟨x, hx, .inl ⟨hkey.2.2.1.trans ?_, hkey.2.2.2.trans hid⟩⟩
  rw [← htype]
  rfl

end Citations

/-! ## Expected movements of the records -/

namespace CanonicalRecords

variable (records : CanonicalRecords)

/-- The movement ID of the fee of a capture. -/
def feeIdOf (payment : Payment) : Text :=
  match records.feesOf payment with
  | [fee] => fee.feeId
  | _ => txt "expected-fee:" ++ payment.paymentId

/-- The expected movements with the day each becomes available. -/
def movementDays : List ((MovementType × Text) × Date) :=
  (records.capturedPayments.flatMap fun p => p.availableOn.toList.flatMap fun d =>
    [((.capture, p.paymentId), d), ((.fee, records.feeIdOf p), d)]) ++
  records.successfulRefunds.flatMap fun r => r.availableOn.toList.map fun d =>
    ((.refund, r.refundId), d)

end CanonicalRecords

theorem Books.feeMovementId_eq (b : Books) (p : Payment) :
    b.feeMovementId p = b.records.feeIdOf p := by
  rw [Books.feeMovementId, Books.feesByPayment_eq]
  rfl

theorem mem_movementDays {b : Books} {movements : List ExpectedMovement}
    (h : b.expectedMovements = .ok movements) {key : MovementType × Text} {day : Date} :
    (key, day) ∈ b.records.movementDays ↔
      ∃ m ∈ movements, m.movementKey = key ∧ m.availableOn = day := by
  simp only [CanonicalRecords.movementDays, List.mem_append, List.mem_flatMap, List.mem_map,
    Option.mem_toList, Books.mem_expectedMovements h]
  constructor
  · rintro (⟨p, hp, d, hd, hmem⟩ | ⟨r, hr, d, hd, hmem⟩)
    · simp only [List.mem_cons, List.not_mem_nil, or_false, Prod.mk.injEq] at hmem
      rcases hmem with ⟨rfl, rfl⟩ | ⟨rfl, rfl⟩
      · exact ⟨_, .inl ⟨p, hp, day, hd, List.mem_cons_self ..⟩, rfl, rfl⟩
      · refine ⟨_, .inl ⟨p, hp, day, hd, List.mem_cons_of_mem _ (List.mem_cons_self ..)⟩, ?_, rfl⟩
        rw [ExpectedMovement.movementKey, b.feeMovementId_eq]
    · obtain ⟨rfl, rfl⟩ := Prod.mk.inj hmem
      exact ⟨_, .inr ⟨r, hr, d, hd, rfl⟩, rfl, rfl⟩
  · rintro ⟨m, ⟨p, hp, d, hd, hm⟩ | ⟨r, hr, d, hd, rfl⟩, rfl, rfl⟩
    · refine .inl ⟨p, hp, d, hd, ?_⟩
      simp only [Books.captureMovements, List.mem_cons, List.not_mem_nil, or_false] at hm
      rcases hm with rfl | rfl
      · exact List.mem_cons_self ..
      · rw [ExpectedMovement.movementKey, b.feeMovementId_eq]
        exact List.mem_cons_of_mem _ (List.mem_cons_self ..)
    · exact .inr ⟨r, hr, d, hd, rfl⟩

/-! ## Coverage -/

/-- Each movement due by the deadline is in a payout row or named by an exception. Each settlement
line is in the total of exactly one payout row or cited by an exception. -/
structure PayoutCoverage (records : CanonicalRecords) (result : ReconciliationResult)
    (deadline : Date) : Prop where
  movements : ∀ m ∈ result.expectedMovements, m.availableOn ≤ deadline →
    (∃ row ∈ result.payouts, row.payoutDate = m.availableOn) ∨
      ∃ x ∈ result.exceptions, CitesMovement x m.movementKey
  lines : ∀ line ∈ records.settlementLines,
    (∃! row, row ∈ result.payouts ∧ row.payoutId = line.payoutId ∧
      row.reportedLineTotal = ((records.settlementLines.filter fun l =>
        l.payoutId = row.payoutId).map SettlementLine.signedAmount).sum) ∨
      ∃ x ∈ result.exceptions, CitesLine x line

/-- Each due movement has a payout on its day, two settlement lines, or a namesake that a payout of
the namesake's day misses. Each line has a payout, a second line of its movement, or a conflict. -/
structure PayoutsMeetMovements (records : CanonicalRecords) (conflicts : List CanonicalConflict)
    (deadline : Date) : Prop where
  movements : ∀ due ∈ records.movementDays, due.2 ≤ deadline →
    (∃ payout ∈ records.payouts, payout.payoutDate = due.2) ∨
      2 ≤ (Books.linesOfMovement records due.1).length ∨
      ∃ payout ∈ records.payouts, (due.1, payout.payoutDate) ∈ records.movementDays ∧
        ∀ line ∈ Books.linesOfMovement records due.1, line.payoutId ≠ payout.payoutId
  lines : ∀ line ∈ records.settlementLines,
    (∃ payout ∈ records.payouts, payout.payoutId = line.payoutId) ∨
      2 ≤ (Books.linesOfMovement records line.movementKey).length ∨
      ∃ conflict ∈ conflicts, conflict.identity.entityType = .settlementLine ∧
        conflict.identity.sourceId = line.settlementLineId

theorem payoutLinesOfMovement_eq_nil {b : Books} {payout : Payout} {m : ExpectedMovement} :
    b.payoutLinesOfMovement payout m = [] ↔
      ∀ line ∈ Books.linesOfMovement b.records m.movementKey,
        line.payoutId ≠ payout.payoutId := by
  simp only [Books.payoutLinesOfMovement, Books.linesByPayout_eq, List.filter_eq_nil_iff,
    List.mem_filter, Books.mem_linesOfMovement, decide_eq_true_eq]
  exact ⟨fun h line hline hid => h line ⟨hline.1, hid⟩ hline.2,
    fun h line hline hkey => h line ⟨hline.1, hkey⟩ hline.2⟩

section Rows

variable {b : Books} {canonicalization : CanonicalizationResult}
  {results : List CompletenessResult} {quarantineRecords : List QuarantinedRecord}
  {movements : List ExpectedMovement}

theorem exists_row_of_date {day : Date} :
    (∃ row ∈ (b.result canonicalization results quarantineRecords movements).payouts,
      row.payoutDate = day) ↔ ∃ payout ∈ b.records.payouts, payout.payoutDate = day := by
  simp only [Books.result, mem_sortedBy, mem_payoutRows]
  constructor
  · rintro ⟨_, ⟨payout, hpayout, rfl⟩, hdate⟩
    exact ⟨payout, hpayout, hdate⟩
  · rintro ⟨payout, hpayout, hdate⟩
    exact ⟨_, ⟨payout, hpayout, rfl⟩, hdate⟩

/-- A payout has one row, and its line total is that of its settlement lines. -/
theorem existsUnique_row_of_payoutId {payoutId : Text} :
    (∃! row, row ∈ (b.result canonicalization results quarantineRecords movements).payouts ∧
      row.payoutId = payoutId ∧ row.reportedLineTotal = ((b.records.settlementLines.filter fun l =>
        l.payoutId = row.payoutId).map SettlementLine.signedAmount).sum) ↔
    ∃ payout ∈ b.records.payouts, payout.payoutId = payoutId := by
  simp only [Books.result, mem_sortedBy, mem_payoutRows]
  constructor
  · rintro ⟨_, ⟨⟨payout, hpayout, rfl⟩, hid, -⟩, -⟩
    exact ⟨payout, hpayout, hid⟩
  · rintro ⟨payout, hpayout, rfl⟩
    refine ⟨_, ⟨⟨payout, hpayout, rfl⟩, rfl, ?_⟩, ?_⟩
    · simp only [Books.payoutRow, Books.reportedLineTotal, Books.linesByPayout_eq]
    · rintro _ ⟨⟨payout', hpayout', rfl⟩, hid, -⟩
      rw [List.inj_on_of_nodup_map b.records.payouts_nodup hpayout' hpayout hid]

end Rows

/-- With all reports complete, no money falls between payouts exactly when the payouts meet the
movements and the lines. -/
theorem payoutCoverage_iff {runId : Text} {detectedAt : UtcDateTime}
    {canonicalization : CanonicalizationResult} {completenessResults : List CompletenessResult}
    {quarantineRecords : List QuarantinedRecord} {result : ReconciliationResult}
    (h : reconcile runId detectedAt canonicalization completenessResults quarantineRecords =
      .ok result)
    (hcomplete : ∀ t, ReportComplete completenessResults t) (deadline : Date) :
    PayoutCoverage (splitCanonicalRecords canonicalization) result deadline ↔
      PayoutsMeetMovements (splitCanonicalRecords canonicalization) canonicalization.conflicts
        deadline := by
  obtain ⟨b, movements, hopened, rfl⟩ := reconcile_ok h
  rw [← hopened.records_eq]
  have hmovement : ∀ m ∈ movements, ((∃ row ∈ (b.result canonicalization (sortedBy
      CompletenessResult.sortKey completenessResults) quarantineRecords movements).payouts,
        row.payoutDate = m.availableOn) ∨ ∃ x ∈ (b.result canonicalization (sortedBy
      CompletenessResult.sortKey completenessResults) quarantineRecords movements).exceptions,
        CitesMovement x m.movementKey) ↔ _ := fun m _ =>
    or_congr exists_row_of_date (movement_cited_iff hopened hcomplete quarantineRecords _)
  constructor
  · rintro ⟨hmovements, hlines⟩
    refine ⟨?_, ?_⟩
    · rintro ⟨key, day⟩ hdue hdeadline
      obtain ⟨m, hm, rfl, rfl⟩ := (mem_movementDays hopened.movements_eq).mp hdue
      refine ((hmovement m hm).mp (hmovements m hm hdeadline)).imp_right (Or.imp_right ?_)
      rintro ⟨payout, hpayout, m', hm', hdate, hkey, hnil⟩
      refine ⟨payout, hpayout, ?_, ?_⟩
      · exact (mem_movementDays hopened.movements_eq).mpr ⟨m', hm', hkey, hdate⟩
      · rw [← hkey]
        exact payoutLinesOfMovement_eq_nil.mp hnil
    · intro line hline
      rcases hlines line hline with hrow | ⟨x, hx, hcites⟩
      · exact .inl (existsUnique_row_of_payoutId.mp hrow)
      · exact line_cited hopened hcomplete hline hx hcites
  · rintro ⟨hmovements, hlines⟩
    refine ⟨?_, ?_⟩
    · intro m hm hdeadline
      have hdue := (mem_movementDays hopened.movements_eq).mpr ⟨m, hm, rfl, rfl⟩
      refine (hmovement m hm).mpr ((hmovements _ hdue hdeadline).imp_right (Or.imp_right ?_))
      rintro ⟨payout, hpayout, hdue', hnone⟩
      obtain ⟨m', hm', hkey, hdate⟩ := (mem_movementDays hopened.movements_eq).mp hdue'
      refine ⟨payout, hpayout, m', hm', hdate, hkey, payoutLinesOfMovement_eq_nil.mpr ?_⟩
      rw [hkey]
      exact hnone
    · intro line hline
      rcases hlines line hline with hpayout | htwo | ⟨conflict, hconflict, htype, hid⟩
      · exact .inl (existsUnique_row_of_payoutId.mpr hpayout)
      · exact .inr (line_cited_of_duplicate hopened hcomplete quarantineRecords hline htwo)
      · exact .inr (line_cited_of_conflict hconflict htype hid)

/-! ## A captured payment without a payout -/

namespace PaidDay

theorem completeReports_complete (t : ReportType) : ReportComplete completeReports t := by
  cases t <;> decide +kernel

/-- On a day without a payout no row or exception names the captured payment that is due. -/
theorem paidDay_uncovered : (∀ t, ReportComplete completeReports t) ∧
    completeReport .settlementLines ∈ completeReports ∧
    ¬ PayoutCoverage (splitCanonicalRecords paidDay.canonicalization) paidDay.result
      (completeReport .settlementLines).status.businessDate := by
  refine ⟨completeReports_complete, by decide +kernel, fun hcoverage => ?_⟩
  have hdue : ∃ m ∈ paidDay.result.expectedMovements,
      m.availableOn ≤ (completeReport .settlementLines).status.businessDate := by decide +kernel
  have hpayouts : paidDay.result.payouts = [] := by decide +kernel
  have hexceptions : paidDay.result.exceptions = [] := by decide +kernel
  obtain ⟨m, hm, hdeadline⟩ := hdue
  rcases hcoverage.movements m hm hdeadline with ⟨row, hrow, -⟩ | ⟨x, hx, -⟩
  · rw [hpayouts] at hrow
    cases hrow
  · rw [hexceptions] at hx
    cases hx

/-- The settled day is covered. -/
theorem payoutCoverage_iff_settledDay :
    PayoutCoverage (splitCanonicalRecords settledDay.canonicalization) settledDay.result
      (completeReport .settlementLines).status.businessDate := by
  refine (payoutCoverage_iff settledDay.reconcile_eq completeReports_complete _).mpr ⟨?_, ?_⟩
  · have hdays : ∀ due ∈ (splitCanonicalRecords settledDay.canonicalization).movementDays,
        ∃ payout ∈ (splitCanonicalRecords settledDay.canonicalization).payouts,
          payout.payoutDate = due.2 := by decide +kernel
    exact fun due hdue _ => .inl (hdays due hdue)
  · have hlines : ∀ line ∈ (splitCanonicalRecords settledDay.canonicalization).settlementLines,
        ∃ payout ∈ (splitCanonicalRecords settledDay.canonicalization).payouts,
          payout.payoutId = line.payoutId := by decide +kernel
    exact fun line hline => .inl (hlines line hline)

end PaidDay

end Threadline
