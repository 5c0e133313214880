import Threadline.Reconcile

/-!
# A run of the reconciler

The loops of `reconcile` in closed form: each row is built from the findings of
the earlier passes and its own. A run returns exactly when its checks pass.
-/

open PyText PyCalendar PySorted

namespace Threadline

/-! ## Codes -/

theorem mem_codesOf {keys : Finding → List Text} {findings : List Finding} {key : Text}
    {code : ExceptionCode} : code ∈ codesOf keys findings key ↔
      ∃ f ∈ findings, key ∈ keys f ∧ f.exception.exceptionType = code := by
  simp [codesOf, and_assoc]

/-- A code list depends only on the findings that carry the key. -/
theorem codesOf_eq_of_mem {keys : Finding → List Text} {findings findings' : List Finding}
    {key : Text} (h : ∀ f, key ∈ keys f → (f ∈ findings ↔ f ∈ findings')) :
    codesOf keys findings key = codesOf keys findings' key := by
  unfold codesOf
  apply sortedBy_eq_of_perm
  · refine (List.perm_ext_iff_of_nodup (List.nodup_dedup _) (List.nodup_dedup _)).mpr fun code => ?_
    simp only [List.mem_dedup, List.mem_map, List.mem_filter, decide_eq_true_eq]
    exact exists_congr fun f => and_congr_left fun _ => and_congr_left fun hf => h f hf
  · exact fun a _ b _ hab => ExceptionCode.value_injective hab

/-- No finding adds a code to the key. -/
def Unmarked (keys : Finding → List Text) (findings : List Finding) (key : Text) : Prop :=
  ∀ f ∈ findings, key ∉ keys f

section Unmarked

variable {keys : Finding → List Text} {key : Text}

theorem codesOf_eq_nil {findings : List Finding} :
    codesOf keys findings key = [] ↔ Unmarked keys findings key := by
  rw [List.eq_nil_iff_forall_not_mem]
  simp only [mem_codesOf, not_exists, not_and]
  constructor
  · intro h f hf hk
    exact h f.exception.exceptionType f hf hk rfl
  · intro h code f hf hk
    exact absurd hk (h f hf)

theorem unmarked_nil : Unmarked keys [] key := by simp [Unmarked]

theorem unmarked_append {xs ys : List Finding} :
    Unmarked keys (xs ++ ys) key ↔ Unmarked keys xs key ∧ Unmarked keys ys key := by
  simp only [Unmarked, List.mem_append, or_imp, forall_and]

theorem unmarked_flatMap {α : Type*} {xs : List α} {g : α → List Finding} :
    Unmarked keys (xs.flatMap g) key ↔ ∀ x ∈ xs, Unmarked keys (g x) key := by
  simp only [Unmarked, List.mem_flatMap]
  constructor
  · intro h x hx f hf
    exact h f ⟨x, hx, hf⟩
  · rintro h f ⟨x, hx, hf⟩
    exact h x hx f hf

theorem unmarked_singleton {f : Finding} : Unmarked keys [f] key ↔ key ∉ keys f := by
  simp [Unmarked]

/-- A rule marks a row when it is broken. -/
theorem unmarked_rule {broken : Prop} [Decidable broken] {f : Finding} {rest : List Finding}
    {marked : Text} (hf : keys f = [marked]) :
    Unmarked keys (if broken then [f] else rest) key ↔
      if broken then marked ≠ key else Unmarked keys rest key := by
  split_ifs
  · rw [unmarked_singleton, hf, List.mem_singleton, ne_eq, eq_comm]
  · exact Iff.rfl

end Unmarked

/-- Findings without the key add no code to it. -/
theorem codesOf_append_of_not_mem {keys : Finding → List Text} {before other own : List Finding}
    {key : Text} (h : ∀ f ∈ other, key ∉ keys f) :
    codesOf keys (before ++ other ++ own) key = codesOf keys (before ++ own) key := by
  have hfilter : (other.filter fun f => key ∈ keys f) = [] :=
    List.filter_eq_nil_iff.mpr fun f hf => by simpa using h f hf
  simp only [codesOf, List.filter_append, hfilter, List.append_nil]

/-- A loop that adds the findings of each item and builds its row from the codes so far. Where the
findings of an item carry only its own key, a row depends on no other item. -/
theorem rowLoop_eq {α ρ : Type*} {keys : Finding → List Text} {itemKey : α → Text}
    {own : α → List Finding} (row : List ExceptionCode → α → ρ)
    (hown : ∀ x, ∀ f ∈ own x, ∀ k ∈ keys f, k = itemKey x) {xs : List α}
    (hn : (xs.map itemKey).Nodup) (before : List Finding) :
    xs.foldl (fun state x => (state.1 ++ own x,
      state.2 ++ [row (codesOf keys (state.1 ++ own x) (itemKey x)) x])) (before, ([] : List ρ)) =
      (before ++ xs.flatMap own,
        xs.map fun x => row (codesOf keys (before ++ own x) (itemKey x)) x) := by
  induction xs using List.reverseRecOn with
  | nil => simp
  | append_singleton xs x ih =>
    rw [List.map_append, List.nodup_append] at hn
    obtain ⟨hxs, -, hdisjoint⟩ := hn
    have hcodes : codesOf keys (before ++ xs.flatMap own ++ own x) (itemKey x) =
        codesOf keys (before ++ own x) (itemKey x) := by
      apply codesOf_append_of_not_mem
      intro f hf hk
      obtain ⟨y, hy, hf⟩ := List.mem_flatMap.mp hf
      exact hdisjoint (itemKey y) (List.mem_map_of_mem hy) (itemKey x) (by simp)
        (hown y f hf _ hk).symm
    rw [List.foldl_append, ih hxs, List.foldl_cons, List.foldl_nil, hcodes]
    simp

/-! ## Rows -/

theorem resultState_eq_reconciled {states : ReportType → SourceCompleteness}
    {required : List ReportType} {blocking : Bool} :
    resultState states required blocking = .reconciled ↔
      (∀ t ∈ required, states t = .complete) ∧ blocking = false := by
  have hstate : ∀ s : SourceCompleteness, s = .complete ↔ s ≠ .incomplete ∧ s ≠ .pending := by
    intro s
    cases s <;> decide
  unfold resultState
  split_ifs with hi hp hb
  · simp only [List.any_eq_true, decide_eq_true_eq] at hi
    obtain ⟨t, ht, hs⟩ := hi
    refine iff_of_false (by decide) fun h => ?_
    rw [h.1 t ht] at hs
    cases hs
  · simp only [List.any_eq_true, decide_eq_true_eq] at hp
    obtain ⟨t, ht, hs⟩ := hp
    refine iff_of_false (by decide) fun h => ?_
    rw [h.1 t ht] at hs
    cases hs
  · simp [hb]
  · simp only [List.any_eq_true, decide_eq_true_eq, not_exists, not_and] at hi hp
    refine iff_of_true rfl ⟨fun t ht => (hstate _).mpr ⟨hi t ht, hp t ht⟩, ?_⟩
    simpa using hb

theorem reportsComplete_iff {states : ReportType → SourceCompleteness}
    {required : List ReportType} :
    reportsComplete states required = true ↔ ∀ t ∈ required, states t = .complete := by
  simp [reportsComplete]

namespace Books

variable (b : Books)

theorem collectionFinding_orderIds (order : Order) :
    ∀ f ∈ b.collectionFinding order, ∀ k ∈ f.orderIds, k = order.orderId := by
  intro f hf k hk
  unfold collectionFinding at hf
  simp only at hf
  split_ifs at hf
  · obtain rfl := List.mem_singleton.mp hf
    simpa using hk
  · obtain rfl := List.mem_singleton.mp hf
    simpa using hk
  · simp at hf

theorem multipleCaptureFinding_orderIds (order : Order) :
    ∀ f ∈ b.multipleCaptureFinding order, ∀ k ∈ f.orderIds, k = order.orderId := by
  intro f hf k hk
  unfold multipleCaptureFinding at hf
  simp only at hf
  split_ifs at hf
  · obtain rfl := List.mem_singleton.mp hf
    simpa using hk
  · simp at hf

theorem orderFindings_orderIds (order : Order) :
    ∀ f ∈ b.orderFindings order, ∀ k ∈ f.orderIds, k = order.orderId := by
  intro f hf
  unfold orderFindings at hf
  split_ifs at hf
  · rcases List.mem_append.mp hf with hf | hf
    · exact b.collectionFinding_orderIds order f hf
    · exact b.multipleCaptureFinding_orderIds order f hf
  · simp at hf

theorem movementFinding_payoutIds (payout : Payout) (m : ExpectedMovement) :
    ∀ f ∈ b.movementFinding payout m, ∀ k ∈ f.payoutIds, k = payout.payoutId := by
  intro f hf k hk
  unfold movementFinding at hf
  split at hf
  · obtain rfl := List.mem_singleton.mp hf
    simpa using hk
  · split_ifs at hf
    · obtain rfl := List.mem_singleton.mp hf
      simpa using hk
    · simp at hf
  · simp at hf

theorem payoutTotalFinding_payoutIds (payout : Payout) :
    ∀ f ∈ b.payoutTotalFinding payout, ∀ k ∈ f.payoutIds, k = payout.payoutId := by
  intro f hf k hk
  unfold payoutTotalFinding at hf
  split_ifs at hf
  · obtain rfl := List.mem_singleton.mp hf
    simpa using hk
  · simp at hf

theorem payoutFindings_payoutIds (movements : List ExpectedMovement) (payout : Payout) :
    ∀ f ∈ b.payoutFindings movements payout, ∀ k ∈ f.payoutIds, k = payout.payoutId := by
  intro f hf
  rcases List.mem_append.mp hf with hf | hf
  · split_ifs at hf
    · obtain ⟨m, _, hf⟩ := List.mem_flatMap.mp hf
      exact b.movementFinding_payoutIds payout m f hf
    · simp at hf
  · exact b.payoutTotalFinding_payoutIds payout f hf

/-- The rows of the transaction loop after the findings of the earlier passes. -/
def transactionRows (before : List Finding) : List TransactionReconciliation :=
  b.records.orders.map fun order =>
    b.transactionRow (codesOf Finding.orderIds (before ++ b.orderFindings order) order.orderId) order

def payoutRows (movements : List ExpectedMovement) (before : List Finding) :
    List PayoutReconciliation :=
  b.records.payouts.map fun payout => b.payoutRow movements
    (codesOf Finding.payoutIds (before ++ b.payoutFindings movements payout) payout.payoutId) payout

theorem transactionLoop_eq (before : List Finding) :
    b.records.orders.foldl b.transactionStep (before, []) =
      (before ++ b.records.orders.flatMap b.orderFindings, b.transactionRows before) :=
  rowLoop_eq b.transactionRow b.orderFindings_orderIds b.records.orders_nodup before

theorem payoutLoop_eq (movements : List ExpectedMovement) (before : List Finding) :
    b.records.payouts.foldl (b.payoutStep movements) (before, []) =
      (before ++ b.records.payouts.flatMap (b.payoutFindings movements),
        b.payoutRows movements before) :=
  rowLoop_eq (b.payoutRow movements) (b.payoutFindings_payoutIds movements) b.records.payouts_nodup
    before

/-- The findings of the passes before the transaction loop. -/
def earlyFindings (canonicalization : CanonicalizationResult)
    (completenessResults : List CompletenessResult) : List Finding :=
  sourceCompletenessFindings b.run completenessResults ++
    canonicalConflictFindings b.run canonicalization ++ b.paymentFindings ++ b.refundFindings ++
    b.feeFindings

/-- The findings before the payout loop. -/
def middleFindings (canonicalization : CanonicalizationResult)
    (completenessResults : List CompletenessResult) : List Finding :=
  b.earlyFindings canonicalization completenessResults ++
    b.records.orders.flatMap b.orderFindings ++ b.duplicateMovementFindings

def allFindings (canonicalization : CanonicalizationResult)
    (completenessResults : List CompletenessResult) (movements : List ExpectedMovement) :
    List Finding :=
  b.middleFindings canonicalization completenessResults ++
    b.records.payouts.flatMap (b.payoutFindings movements)

/-- What a run with these books returns. -/
def result (canonicalization : CanonicalizationResult)
    (completenessResults : List CompletenessResult) (quarantineRecords : List QuarantinedRecord)
    (movements : List ExpectedMovement) : ReconciliationResult where
  runId := b.run.runId
  contractVersion := contractVersion
  detectedAtUtc := b.run.detectedAtUtc
  transactions := sortedBy TransactionReconciliation.orderId
    (b.transactionRows (b.earlyFindings canonicalization completenessResults))
  expectedMovements := movements
  payouts := sortedBy PayoutReconciliation.sortKey
    (b.payoutRows movements (b.middleFindings canonicalization completenessResults))
  exceptions := uniqueExceptions
    ((b.allFindings canonicalization completenessResults movements).map Finding.exception)
  sourceCompleteness := completenessResults.map CompletenessResult.status
  quarantineRecords := sortedBy QuarantinedRecord.sortKey quarantineRecords

end Books

/-! ## Unique exceptions -/

def exceptionKey (x : ReconciliationException) : Text × ExceptionCode × Text × Text :=
  (x.ruleId, x.exceptionType, x.entityType, x.entityId)

theorem mem_of_mem_uniqueExceptions {xs : List ReconciliationException}
    {x : ReconciliationException} (h : x ∈ uniqueExceptions xs) : x ∈ xs := by
  obtain ⟨k, hk⟩ := PyDict.mem_values_iff.mp ((mem_sortedBy _).mp h)
  obtain ⟨y, hy, he⟩ := List.mem_map.mp (PyDict.mem_of_get?_ofPairs hk)
  exact (Prod.mk.inj he).2 ▸ hy

/-- Every exception is represented by one of its key. -/
theorem exists_mem_uniqueExceptions {xs : List ReconciliationException}
    {x : ReconciliationException} (h : x ∈ xs) :
    ∃ y ∈ uniqueExceptions xs, y ∈ xs ∧ exceptionKey y = exceptionKey x := by
  have hpair : (exceptionKey x, x) ∈ xs.map fun x => (exceptionKey x, x) :=
    List.mem_map_of_mem h
  obtain ⟨y, hy⟩ := PyDict.get?_ofPairs_isSome hpair
  obtain ⟨z, hz, he⟩ := List.mem_map.mp (PyDict.mem_of_get?_ofPairs hy)
  obtain ⟨hkey, rfl⟩ := Prod.mk.inj he
  exact ⟨z, (mem_sortedBy _).mpr (PyDict.mem_values_iff.mpr ⟨_, hy⟩), hz, hkey⟩

/-- A change of the amounts or of the support does not affect which exceptions stand. -/
theorem uniqueExceptions_map {f : ReconciliationException → ReconciliationException}
    (hkey : ∀ x, exceptionKey (f x) = exceptionKey x) (xs : List ReconciliationException) :
    uniqueExceptions (xs.map f) = (uniqueExceptions xs).map f := by
  have hpairs : (xs.map f).map (fun x => (exceptionKey x, x)) =
      (xs.map fun x => (exceptionKey x, x)).map (Prod.map id f) := by
    rw [List.map_map, List.map_map]
    refine List.map_congr_left fun x _ => ?_
    simp [hkey]
  have hsort : ReconciliationException.sortKey ∘ f = ReconciliationException.sortKey := by
    funext x
    obtain ⟨h1, h2⟩ := Prod.mk.inj (hkey x)
    obtain ⟨h2, h3⟩ := Prod.mk.inj h2
    obtain ⟨h3, h4⟩ := Prod.mk.inj h3
    simp [ReconciliationException.sortKey, h1, h2, h3, h4]
  change sortedBy _ (PyDict.ofPairs ((xs.map f).map fun x => (exceptionKey x, x))).values = _
  rw [hpairs, PyDict.values_ofPairs_map, sortedBy_map, hsort]
  rfl

/-! ## Checks -/

/-- The checks that a run passes. -/
structure Opened (runId : Text) (detectedAt : UtcDateTime)
    (canonicalization : CanonicalizationResult) (completenessResults : List CompletenessResult)
    (b : Books) (movements : List ExpectedMovement) : Prop where
  runId_ok : requireRunId runId = .ok runId
  run_eq : b.run = ⟨runId, detectedAt⟩
  states_eq : buildReportStateMap (sortedBy CompletenessResult.sortKey completenessResults) =
    .ok b.states
  records_eq : b.records = splitCanonicalRecords canonicalization
  expectedFees_eq : expectedFeeByPayment b.capturedPayments = .ok b.expectedFees
  movements_eq : b.expectedMovements = .ok movements
  payoutDates : b.duplicatePayoutDates = []

theorem requireRunId_ok {runId checked : Text} (h : requireRunId runId = .ok checked) :
    checked = runId := by
  unfold requireRunId at h
  split_ifs at h
  exact (Except.ok.inj h).symm

/-- A run returns when its checks pass, with the rows in closed form. -/
theorem reconcile_ok {runId : Text} {detectedAt : UtcDateTime}
    {canonicalization : CanonicalizationResult} {completenessResults : List CompletenessResult}
    {quarantineRecords : List QuarantinedRecord} {result : ReconciliationResult}
    (h : reconcile runId detectedAt canonicalization completenessResults quarantineRecords =
      .ok result) :
    ∃ b movements, Opened runId detectedAt canonicalization completenessResults b movements ∧
      result = b.result canonicalization (sortedBy CompletenessResult.sortKey completenessResults)
        quarantineRecords movements := by
  unfold reconcile at h
  cases hr : requireRunId runId with
  | error err => simp [hr, bind, Except.bind] at h
  | ok checked =>
    obtain rfl := requireRunId_ok hr
    cases hs : buildReportStateMap (sortedBy CompletenessResult.sortKey completenessResults) with
    | error err => simp [hr, hs, bind, Except.bind] at h
    | ok states =>
      cases hf : expectedFeeByPayment (splitCanonicalRecords canonicalization).capturedPayments with
      | error err => simp [hr, hs, hf, bind, Except.bind] at h
      | ok fees =>
        simp only [hr, hs, hf, bind, Except.bind] at h
        refine ⟨⟨⟨checked, detectedAt⟩, states, splitCanonicalRecords canonicalization, fees⟩, ?_⟩
        generalize hb : Books.mk ⟨checked, detectedAt⟩ states
          (splitCanonicalRecords canonicalization) fees = b at h ⊢
        have hrecords : b.records = splitCanonicalRecords canonicalization := by rw [← hb]
        cases hm : b.expectedMovements with
        | error err => simp [hm] at h
        | ok movements =>
          simp only [hm] at h
          split_ifs at h with hd
          rw [← hrecords, b.transactionLoop_eq, b.payoutLoop_eq] at h
          refine ⟨movements, ⟨hr, by rw [← hb], ?_, hrecords, ?_, hm, not_not.mp hd⟩, ?_⟩
          · rw [← hb]
            exact hs
          · rw [← hb]
            exact hf
          · rw [← Except.ok.inj h]
            subst hb
            rfl

/-- Checks that pass let the run return. -/
theorem Opened.reconcile_eq {runId : Text} {detectedAt : UtcDateTime}
    {canonicalization : CanonicalizationResult} {completenessResults : List CompletenessResult}
    {b : Books} {movements : List ExpectedMovement}
    (h : Opened runId detectedAt canonicalization completenessResults b movements)
    (quarantineRecords : List QuarantinedRecord) :
    reconcile runId detectedAt canonicalization completenessResults quarantineRecords =
      .ok (b.result canonicalization (sortedBy CompletenessResult.sortKey completenessResults)
        quarantineRecords movements) := by
  obtain ⟨run, states, records, fees⟩ := b
  obtain ⟨hrun, hruneq, hstates, hrecords, hfees, hmovements, hdates⟩ := h
  dsimp only at hruneq hstates hrecords
  subst hruneq hrecords
  have hfees : expectedFeeByPayment (splitCanonicalRecords canonicalization).capturedPayments =
      .ok fees := hfees
  unfold reconcile
  simp only [hrun, hstates, hfees, hmovements, hdates, bind, Except.bind, ne_eq, not_true_eq_false,
    if_false]
  generalize hb : Books.mk ⟨runId, detectedAt⟩ states (splitCanonicalRecords canonicalization) fees =
    b at *
  have hrecords : splitCanonicalRecords canonicalization = b.records := by rw [← hb]
  rw [hrecords, b.transactionLoop_eq, b.payoutLoop_eq]
  subst hb
  rfl

end Threadline
