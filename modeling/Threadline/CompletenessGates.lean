import Threadline.StableEvidence
import Threadline.UnmergedExceptions

/-!
# Completeness gates

A report that arrives only opens rules. Each code belongs to one set of reports,
and the findings of a run are those of the run with every rule open whose
reports are complete.
-/

open PyText PyCalendar PySorted

namespace Threadline

/-- The reports that must be complete before the rule of a code applies. -/
def ExceptionCode.reports : ExceptionCode → List ReportType
  | .sourceReportMissing | .sourceReportInvalid | .conflictingSourceVersion | .batchConflict => []
  | .orphanPayment | .captureForNonPayableOrder => [.orders, .payments]
  | .missingPayment | .paymentAmountMismatch | .multipleCapture => [.orders, .payments]
  | .orphanRefund | .refundCurrencyMismatch | .excessRefund => [.payments, .refunds]
  | .missingFee | .feeMismatch | .unexpectedFee => [.payments, .fees]
  | .duplicateSettlementMovement => [.settlementLines]
  | .missingSettlementLine | .settlementLineAmountMismatch =>
    [.payments, .refunds, .fees, .settlementLines]
  | .payoutTotalMismatch => [.settlementLines, .payouts]

def reportCodes : List ExceptionCode := [.sourceReportMissing, .sourceReportInvalid]

/-- The rule of the finding applies. -/
def IsOpen (states : ReportType → SourceCompleteness) (f : Finding) : Bool :=
  reportsComplete states f.exception.exceptionType.reports

theorem filter_isOpen {states : ReportType → SourceCompleteness} {codes : List ExceptionCode}
    {findings : List Finding} (h : CodesIn codes findings) (required : List ReportType)
    (hcodes : ∀ code ∈ codes, code.reports = required) :
    findings.filter (IsOpen states) =
      if reportsComplete states required then findings else [] := by
  have hopen : ∀ f ∈ findings, IsOpen states f = reportsComplete states required := by
    intro f hf
    rw [IsOpen, hcodes _ (h f hf)]
  split_ifs with hgate
  · exact List.filter_eq_self.mpr fun f hf => (hopen f hf).trans hgate
  · exact List.filter_eq_nil_iff.mpr fun f hf => by rwa [hopen f hf]

/-! ## The books with every rule open -/

namespace Books

variable (b : Books)

def withStates (states : ReportType → SourceCompleteness) : Books := { b with states }

/-- The same books once every report is complete. -/
def opened : Books := b.withStates fun _ => .complete

theorem opened_reportsComplete (required : List ReportType) :
    reportsComplete b.opened.states required = true :=
  reportsComplete_iff.mpr fun _ _ => rfl

theorem paymentFindings_eq_filter :
    b.paymentFindings = b.opened.paymentFindings.filter (IsOpen b.states) := by
  rw [filter_isOpen codesIn_paymentFindings [.orders, .payments] (by decide), paymentFindings, paymentFindings,
    if_pos (b.opened_reportsComplete _)]
  rfl

theorem refundFindings_eq_filter :
    b.refundFindings = b.opened.refundFindings.filter (IsOpen b.states) := by
  rw [filter_isOpen codesIn_refundFindings [.payments, .refunds] (by decide), refundFindings, refundFindings,
    if_pos (b.opened_reportsComplete _)]
  rfl

theorem feeFindings_eq_filter :
    b.feeFindings = b.opened.feeFindings.filter (IsOpen b.states) := by
  rw [filter_isOpen codesIn_feeFindings [.payments, .fees] (by decide), feeFindings, feeFindings,
    if_pos (b.opened_reportsComplete _)]
  rfl

theorem orderFindings_eq_filter (order : Order) :
    b.orderFindings order = (b.opened.orderFindings order).filter (IsOpen b.states) := by
  rw [filter_isOpen (about_orderFindings order).codes [.orders, .payments] (by decide), orderFindings,
    orderFindings]
  by_cases hpaid : order.status = .paid
  · by_cases hgate : reportsComplete b.states [.orders, .payments]
    · rw [if_pos ⟨hpaid, hgate⟩, if_pos hgate, if_pos ⟨hpaid, b.opened_reportsComplete _⟩]
      rfl
    · rw [if_neg fun h => hgate h.2, if_neg hgate]
  · rw [if_neg fun h => hpaid h.1, if_neg fun h : _ ∧ _ => hpaid h.1, ite_self]

theorem duplicateMovementFindings_eq_filter :
    b.duplicateMovementFindings =
      b.opened.duplicateMovementFindings.filter (IsOpen b.states) := by
  have hopened : b.opened.states .settlementLines = .complete := rfl
  rw [filter_isOpen codesIn_duplicateMovementFindings [.settlementLines] (by decide),
    duplicateMovementFindings, duplicateMovementFindings, if_pos hopened]
  simp only [reportsComplete_iff, List.mem_singleton, forall_eq]
  rfl

theorem payoutTotalFinding_eq_filter (payout : Payout) :
    b.payoutTotalFinding payout = (b.opened.payoutTotalFinding payout).filter (IsOpen b.states) := by
  rw [filter_isOpen (about_payoutTotalFinding payout).codes [.settlementLines, .payouts] (by decide),
    payoutTotalFinding, payoutTotalFinding]
  by_cases hgate : reportsComplete b.states [.settlementLines, .payouts]
  · simp only [hgate, b.opened_reportsComplete, true_and]
    rfl
  · rw [if_neg fun h => hgate h.1, if_neg hgate]

theorem payoutFindings_eq_filter (movements : List ExpectedMovement) (payout : Payout) :
    b.payoutFindings movements payout =
      (b.opened.payoutFindings movements payout).filter (IsOpen b.states) := by
  have hcodes : CodesIn [.missingSettlementLine, .settlementLineAmountMismatch]
      ((expectedForDate movements payout.payoutDate).flatMap (b.opened.movementFinding payout)) :=
    CodesIn.flatMap fun m _ => codesIn_movementFinding
  rw [payoutFindings, payoutFindings, if_pos (b.opened_reportsComplete _), List.filter_append,
    filter_isOpen hcodes [.payments, .refunds, .fees, .settlementLines] (by decide), ← payoutTotalFinding_eq_filter]
  rfl

/-- The rules that apply report what they report once every report is complete. -/
theorem ruleFindings_eq_filter (movements : List ExpectedMovement) :
    b.ruleFindings movements = (b.opened.ruleFindings movements).filter (IsOpen b.states) := by
  simp only [ruleFindings, List.filter_append, List.filter_flatMap]
  rw [← paymentFindings_eq_filter, ← refundFindings_eq_filter, ← feeFindings_eq_filter,
    ← duplicateMovementFindings_eq_filter]
  congr 1
  · congr 2
    exact List.flatMap_congr fun order _ => b.orderFindings_eq_filter order
  · exact List.flatMap_congr fun payout _ => b.payoutFindings_eq_filter movements payout

end Books

/-! ## What stays -/

theorem mem_uniqueExceptions_iff {xs : List ReconciliationException}
    {x : ReconciliationException} : x ∈ uniqueExceptions xs ↔
      (PyDict.ofPairs (xs.map fun x => (exceptionKey x, x))).get? (exceptionKey x) = some x := by
  rw [uniqueExceptions, mem_sortedBy, PyDict.mem_values_iff]
  constructor
  · intro ⟨k, hk⟩
    obtain ⟨y, -, he⟩ := List.mem_map.mp (PyDict.mem_of_get?_ofPairs hk)
    obtain ⟨hkey, rfl⟩ := Prod.mk.inj he
    rw [← hkey] at hk
    exact hk
  · intro hx
    exact ⟨_, hx⟩

/-- Whether an exception stands depends on those of its code. -/
theorem mem_uniqueExceptions_filter {q : ExceptionCode → Bool} (xs : List ReconciliationException)
    {x : ReconciliationException} (hx : q x.exceptionType) :
    x ∈ uniqueExceptions (xs.filter fun x => q x.exceptionType) ↔ x ∈ uniqueExceptions xs := by
  have hpairs : (xs.filter fun x => q x.exceptionType).map (fun x => (exceptionKey x, x)) =
      (xs.map fun x => (exceptionKey x, x)).filter fun p => q p.1.2.1 := by
    rw [List.filter_map]
    rfl
  rw [mem_uniqueExceptions_iff, mem_uniqueExceptions_iff, hpairs]
  have hget := PyDict.get?_ofPairs_filter
    (q := fun k : Text × ExceptionCode × Text × Text => q k.2.1)
    (xs.map fun x => (exceptionKey x, x)) (k := exceptionKey x) hx
  rw [hget]

/-- A row without its state and its codes. -/
def TransactionReconciliation.figures (row : TransactionReconciliation) :
    TransactionReconciliation := { row with state := .pending, exceptionCodes := [] }

def PayoutReconciliation.figures (row : PayoutReconciliation) : PayoutReconciliation :=
  { row with state := .pending, exceptionCodes := [] }

def ReconciliationState.IsSettled (state : ReconciliationState) : Prop :=
  state = .reconciled ∨ state = .exception

/-- The second run has the figures of the first one, and its settled rows and its exceptions on
records. -/
structure OnlyGated (result result' : ReconciliationResult) : Prop where
  transactions : List.Forall₂ (fun row row' => row'.figures = row.figures ∧
    (row.state.IsSettled → row' = row)) result.transactions result'.transactions
  expectedMovements : result'.expectedMovements = result.expectedMovements
  payouts : List.Forall₂ (fun row row' => row'.figures = row.figures ∧
    (row.state.IsSettled → row' = row)) result.payouts result'.payouts
  exceptions : ∀ x ∈ result.exceptions, x.exceptionType ∉ reportCodes → x ∈ result'.exceptions

/-! ## States that advance -/

/-- The report states name every report type once. -/
theorem exists_reportStates_iff {results : List CompletenessResult} :
    (∃ states, buildReportStateMap results = .ok states) ↔
      (results.map fun c => c.status.reportType).Nodup ∧
        ∀ t, t ∈ results.map fun c => c.status.reportType := by
  constructor
  · intro ⟨states, h⟩
    obtain ⟨dict, hdict, -⟩ := PyExcept.bind_eq_ok.mp h
    refine ⟨reportTypes_nodup hdict, fun t => ?_⟩
    obtain ⟨c, hc, htype, -⟩ := (buildReportStateMap_ok h t (states t)).mp rfl
    exact List.mem_map.mpr ⟨c, hc, htype⟩
  · intro ⟨hnodup, hall⟩
    have hdict : ∃ dict, results.foldlM addReportState ∅ = .ok dict := by
      clear hall
      induction results using List.reverseRecOn with
      | nil => exact ⟨_, rfl⟩
      | append_singleton results c ih =>
        rw [List.map_append, List.nodup_append] at hnodup
        obtain ⟨hnodup, -, hfresh⟩ := hnodup
        obtain ⟨dict, hdict⟩ := ih hnodup
        refine ⟨_, PyExcept.foldlM_concat_eq_ok.mpr ⟨dict, hdict, addReportState_eq_ok.mpr ⟨?_, rfl⟩⟩⟩
        -- a state under this type would come from an earlier result
        rw [Option.eq_none_iff_forall_ne_some]
        intro state hstate
        obtain ⟨c', hc', htype, -⟩ := (addReportState_foldlM hdict _ state).mp hstate
        exact hfresh _ (List.mem_map_of_mem hc') _ (List.mem_singleton_self _) htype
    obtain ⟨dict, hdict⟩ := hdict
    have hmissing : (ReportType.all.filter fun t => (dict.get? t).isNone) = [] := by
      refine List.filter_eq_nil_iff.mpr fun t _ => ?_
      obtain ⟨c, hc, htype⟩ := List.mem_map.mp (hall t)
      rw [(addReportState_foldlM hdict t c.status.state).mpr ⟨c, hc, htype, rfl⟩]
      simp
    refine ⟨fun t => dict.getD t .pending, PyExcept.bind_eq_ok.mpr ⟨dict, hdict, ?_⟩⟩
    simp only [hmissing, sortedBy_nil, ne_eq, not_true_eq_false, if_false]

section Advance

variable {runId : Text} {detectedAt : UtcDateTime} {canonicalization : CanonicalizationResult}
  {results results' : List CompletenessResult} {b : Books} {movements : List ExpectedMovement}
  {states : ReportType → SourceCompleteness}

/-- Results for the same report types let the same run return. -/
theorem Opened.withStates (h : Opened runId detectedAt canonicalization results b movements)
    (hreports : (results.map fun c => c.status.reportType).Perm
      (results'.map fun c => c.status.reportType)) :
    ∃ states, Opened runId detectedAt canonicalization results' (b.withStates states) movements := by
  have hsorted := (sortedBy_perm CompletenessResult.sortKey results).map
    fun c => c.status.reportType
  have hsorted' := (sortedBy_perm CompletenessResult.sortKey results').map
    fun c => c.status.reportType
  have hperm := hsorted.trans (hreports.trans hsorted'.symm)
  obtain ⟨hnodup, hall⟩ := exists_reportStates_iff.mp ⟨b.states, h.states_eq⟩
  obtain ⟨states, hstates⟩ := exists_reportStates_iff.mpr
    ⟨hperm.nodup_iff.mp hnodup, fun t => hperm.mem_iff.mp (hall t)⟩
  exact ⟨states, h.runId_ok, h.run_eq, hstates, h.records_eq, h.expectedFees_eq, h.movements_eq,
    h.payoutDates⟩

/-- The codes of findings about records whose rules apply. -/
def openCode (states : ReportType → SourceCompleteness) (code : ExceptionCode) : Bool :=
  code ∉ reportCodes ∧ reportsComplete states code.reports

theorem openCode_of_mem {f : Finding} (hf : f ∈ b.allFindings canonicalization results movements)
    (hcode : f.exception.exceptionType ∉ reportCodes) : openCode b.states f.exception.exceptionType := by
  refine decide_eq_true ⟨hcode, ?_⟩
  rw [b.allFindings_eq, List.mem_append, List.mem_append, b.ruleFindings_eq_filter] at hf
  rcases hf with hf | hf | hf
  · exact absurd (codesIn_sourceCompletenessFindings f hf) hcode
  · rw [List.mem_singleton.mp (codesIn_canonicalConflictFindings f hf)]
    rfl
  · exact (List.mem_filter.mp hf).2

/-- Of these codes the run has the exceptions that it has once every report is complete. -/
theorem filter_openCode {q : ExceptionCode → Bool} (hq : ∀ code, q code → openCode b.states code) :
    ((b.allFindings canonicalization results movements).map Finding.exception).filter
        (fun x => q x.exceptionType) =
      ((canonicalConflictFindings b.run canonicalization ++ b.opened.ruleFindings movements).map
        Finding.exception).filter fun x => q x.exceptionType := by
  have hsource : (sourceCompletenessFindings b.run results).filter
      (fun f => q f.exception.exceptionType) = [] := by
    refine List.filter_eq_nil_iff.mpr fun f hf hcode => ?_
    exact (of_decide_eq_true (hq _ hcode)).1 (codesIn_sourceCompletenessFindings f hf)
  have hrules : ((b.opened.ruleFindings movements).filter (IsOpen b.states)).filter
      (fun f => q f.exception.exceptionType) =
      (b.opened.ruleFindings movements).filter fun f => q f.exception.exceptionType := by
    rw [List.filter_filter]
    refine List.filter_congr fun f _ => ?_
    cases hcode : q f.exception.exceptionType with
    | false => rfl
    | true => exact (of_decide_eq_true (hq _ hcode)).2
  rw [b.allFindings_eq, b.ruleFindings_eq_filter, List.filter_map, List.filter_map]
  simp only [Function.comp_def, List.filter_append, hsource, hrules, List.nil_append]

/-- The exceptions on records stay. -/
theorem exceptions_mono (hadvance : ∀ t, b.states t = .complete → states t = .complete)
    {quarantineRecords : List QuarantinedRecord} {x : ReconciliationException}
    (hx : x ∈ (b.result canonicalization results quarantineRecords movements).exceptions)
    (hcode : x.exceptionType ∉ reportCodes) :
    x ∈ ((b.withStates states).result canonicalization results' quarantineRecords
      movements).exceptions := by
  have hopened : openCode b.states x.exceptionType := by
    obtain ⟨f, hf, rfl⟩ := List.mem_map.mp (mem_of_mem_uniqueExceptions hx)
    exact openCode_of_mem hf hcode
  have hmono : ∀ code, openCode b.states code → openCode states code := by
    intro code h
    obtain ⟨hrecord, hgate⟩ := of_decide_eq_true h
    exact decide_eq_true ⟨hrecord, reportsComplete_iff.mpr fun t ht =>
      hadvance t (reportsComplete_iff.mp hgate t ht)⟩
  apply (mem_uniqueExceptions_filter _ hopened).mp
  rw [filter_openCode (b := b.withStates states) hmono]
  have hx := (mem_uniqueExceptions_filter _ hopened).mpr hx
  rw [filter_openCode fun _ h => h] at hx
  exact hx

end Advance

/-! ## Settled rows -/

theorem resultState_of_complete {states : ReportType → SourceCompleteness}
    {required : List ReportType} (h : ∀ t ∈ required, states t = .complete) (blocking : Bool) :
    resultState states required blocking = if blocking then .exception else .reconciled := by
  have hnone : ∀ state ≠ SourceCompleteness.complete,
      ¬ (required.any fun t => states t = state) = true := by
    intro state hstate hany
    obtain ⟨t, ht, he⟩ := List.any_eq_true.mp hany
    exact hstate ((of_decide_eq_true he).symm.trans (h t ht))
  rw [resultState, if_neg (hnone _ (by decide)), if_neg (hnone _ (by decide))]

theorem resultState_congr {states states' : ReportType → SourceCompleteness}
    {required : List ReportType} (h : ∀ t ∈ required, states t = .complete)
    (h' : ∀ t ∈ required, states' t = .complete) (blocking : Bool) :
    resultState states required blocking = resultState states' required blocking := by
  rw [resultState_of_complete h, resultState_of_complete h']

/-- A row is settled when its reports are complete. -/
theorem complete_of_isSettled {states : ReportType → SourceCompleteness}
    {required : List ReportType} {blocking : Bool}
    (h : (resultState states required blocking).IsSettled) :
    ∀ t ∈ required, states t = .complete := by
  intro t ht
  unfold resultState at h
  split_ifs at h with hincomplete hpending hblocking
  · rcases h with h | h <;> cases h
  · rcases h with h | h <;> cases h
  all_goals
    cases hstate : states t with
    | complete => rfl
    | incomplete => exact absurd (List.any_eq_true.mpr ⟨t, ht, decide_eq_true hstate⟩) hincomplete
    | pending => exact absurd (List.any_eq_true.mpr ⟨t, ht, decide_eq_true hstate⟩) hpending

theorem filter_isOpen_eq_self {states : ReportType → SourceCompleteness}
    {required : List ReportType} (hcomplete : ∀ t ∈ required, states t = .complete)
    {codes : List ExceptionCode} {findings : List Finding} (h : CodesIn codes findings)
    (hcodes : ∀ code ∈ codes, ∀ t ∈ code.reports, t ∈ required) :
    findings.filter (IsOpen states) = findings :=
  List.filter_eq_self.mpr fun f hf =>
    reportsComplete_iff.mpr fun t ht => hcomplete t (hcodes _ (h f hf) t ht)

namespace Books

variable {b : Books}

/-- The row of an order. -/
def orderRow (b : Books) (order : Order) : TransactionReconciliation :=
  b.transactionRow (codesOf Finding.orderIds
    (b.paymentFindings ++ b.refundFindings ++ b.feeFindings ++ b.orderFindings order)
    order.orderId) order

/-- A row whose reports are complete does not depend on the other ones. -/
theorem orderRow_of_complete (h : ∀ t ∈ transactionRequiredReports, b.states t = .complete)
    (order : Order) : b.orderRow order = b.opened.orderRow order := by
  have hfindings : b.paymentFindings ++ b.refundFindings ++ b.feeFindings ++
      b.orderFindings order = b.opened.paymentFindings ++ b.opened.refundFindings ++
      b.opened.feeFindings ++ b.opened.orderFindings order := by
    rw [b.paymentFindings_eq_filter, b.refundFindings_eq_filter, b.feeFindings_eq_filter,
      b.orderFindings_eq_filter, filter_isOpen_eq_self h codesIn_paymentFindings (by decide),
      filter_isOpen_eq_self h codesIn_refundFindings (by decide),
      filter_isOpen_eq_self h codesIn_feeFindings (by decide),
      filter_isOpen_eq_self h (about_orderFindings order).codes (by decide)]
  rw [orderRow, orderRow, hfindings, transactionRow, resultState_congr h fun _ _ => rfl]
  rfl

/-- The row of a payout. -/
def payoutRowOf (b : Books) (movements : List ExpectedMovement) (payout : Payout) :
    PayoutReconciliation :=
  b.payoutRow movements (codesOf Finding.payoutIds
    (b.duplicateMovementFindings ++ b.payoutFindings movements payout) payout.payoutId) payout

theorem payoutRowOf_of_complete {movements : List ExpectedMovement}
    (h : ∀ t ∈ payoutRequiredReports, b.states t = .complete) (payout : Payout) :
    b.payoutRowOf movements payout = b.opened.payoutRowOf movements payout := by
  have hmovements : CodesIn [.missingSettlementLine, .settlementLineAmountMismatch]
      ((expectedForDate movements payout.payoutDate).flatMap (b.opened.movementFinding payout)) :=
    CodesIn.flatMap fun m _ => codesIn_movementFinding
  have hgated : CodesIn [.missingSettlementLine, .settlementLineAmountMismatch]
      (if reportsComplete b.opened.states [.payments, .refunds, .fees, .settlementLines] then
        (expectedForDate movements payout.payoutDate).flatMap (b.opened.movementFinding payout)
      else []) := codesIn_gate hmovements
  have hcodes := hgated.append (about_payoutTotalFinding (b := b.opened) payout).codes
  have hpayout : b.payoutFindings movements payout = b.opened.payoutFindings movements payout :=
    (b.payoutFindings_eq_filter movements payout).trans
      (filter_isOpen_eq_self h hcodes (by decide))
  have hfindings : b.duplicateMovementFindings ++ b.payoutFindings movements payout =
      b.opened.duplicateMovementFindings ++ b.opened.payoutFindings movements payout := by
    rw [b.duplicateMovementFindings_eq_filter, hpayout,
      filter_isOpen_eq_self h codesIn_duplicateMovementFindings (by decide)]
  rw [payoutRowOf, payoutRowOf, hfindings, payoutRow, resultState_congr h fun _ _ => rfl]
  rfl

variable {canonicalization : CanonicalizationResult} {results results' : List CompletenessResult}
  {quarantineRecords : List QuarantinedRecord} {movements : List ExpectedMovement}
  {states : ReportType → SourceCompleteness}

theorem result_transactions :
    (b.result canonicalization results quarantineRecords movements).transactions =
      (sortedBy Order.orderId b.records.orders).map b.orderRow := by
  change sortedBy _ (b.transactionRows _) = _
  rw [b.transactionRows_early]
  exact sortedBy_map _ _ _

theorem result_payouts :
    (b.result canonicalization results quarantineRecords movements).payouts =
      (sortedBy (fun payout : Payout => toLex (payout.payoutDate.isoformat, payout.payoutId))
        b.records.payouts).map (b.payoutRowOf movements) := by
  change sortedBy _ (b.payoutRows _ _) = _
  rw [b.payoutRows_middle]
  exact sortedBy_map _ _ _

/-- States that advance only open rules. -/
theorem onlyGated (hadvance : ∀ t, b.states t = .complete → states t = .complete) :
    OnlyGated (b.result canonicalization results quarantineRecords movements)
      ((b.withStates states).result canonicalization results' quarantineRecords movements) where
  transactions := by
    rw [result_transactions, result_transactions]
    apply List.forall₂_map_left_iff.mpr
    apply List.forall₂_map_right_iff.mpr
    refine List.forall₂_same.mpr fun order _ => ⟨rfl, fun hsettled => ?_⟩
    have hcomplete := complete_of_isSettled hsettled
    rw [orderRow_of_complete hcomplete]
    exact orderRow_of_complete (b := b.withStates states)
      (fun t ht => hadvance t (hcomplete t ht)) order
  expectedMovements := rfl
  payouts := by
    rw [result_payouts, result_payouts]
    apply List.forall₂_map_left_iff.mpr
    apply List.forall₂_map_right_iff.mpr
    refine List.forall₂_same.mpr fun payout _ => ⟨rfl, fun hsettled => ?_⟩
    have hcomplete := complete_of_isSettled hsettled
    rw [payoutRowOf_of_complete hcomplete]
    exact payoutRowOf_of_complete (b := b.withStates states)
      (fun t ht => hadvance t (hcomplete t ht)) payout
  exceptions _ hx hcode := exceptions_mono hadvance hx hcode

end Books

/-! ## Two runs -/

/-- Completeness only gates: a run with report states that advance returns the same figures, keeps
its settled rows and adds exceptions. -/
theorem completeness_only_gates {runId : Text} {detectedAt : UtcDateTime}
    {canonicalization : CanonicalizationResult} {results results' : List CompletenessResult}
    {quarantineRecords : List QuarantinedRecord}
    (hreports : (results.map fun c => c.status.reportType).Perm
      (results'.map fun c => c.status.reportType)) :
    ((∃ result, reconcile runId detectedAt canonicalization results quarantineRecords =
        .ok result) ↔
      ∃ result', reconcile runId detectedAt canonicalization results' quarantineRecords =
        .ok result') ∧
    ((∀ t, ReportComplete results t → ReportComplete results' t) → ∀ result result',
      reconcile runId detectedAt canonicalization results quarantineRecords = .ok result →
      reconcile runId detectedAt canonicalization results' quarantineRecords = .ok result' →
      OnlyGated result result') := by
  have hreturns : ∀ {results results' : List CompletenessResult},
      (results.map fun c => c.status.reportType).Perm
        (results'.map fun c => c.status.reportType) →
      ∀ {result}, reconcile runId detectedAt canonicalization results quarantineRecords =
        .ok result →
      ∃ b movements states, Opened runId detectedAt canonicalization results b movements ∧
        Opened runId detectedAt canonicalization results' (b.withStates states) movements ∧
        result = b.result canonicalization (sortedBy CompletenessResult.sortKey results)
          quarantineRecords movements := by
    intro results results' hreports result h
    obtain ⟨b, movements, hopened, hresult⟩ := reconcile_ok h
    obtain ⟨states, hopened'⟩ := hopened.withStates hreports
    exact ⟨b, movements, states, hopened, hopened', hresult⟩
  constructor
  · constructor
    · intro ⟨result, h⟩
      obtain ⟨b, movements, states, -, hopened', -⟩ := hreturns hreports h
      exact ⟨_, hopened'.reconcile_eq quarantineRecords⟩
    · intro ⟨result, h⟩
      obtain ⟨b, movements, states, -, hopened', -⟩ := hreturns hreports.symm h
      exact ⟨_, hopened'.reconcile_eq quarantineRecords⟩
  · intro hadvance result result' h h'
    obtain ⟨b, movements, states, hopened, hopened', rfl⟩ := hreturns hreports h
    obtain rfl := Except.ok.inj (h'.symm.trans (hopened'.reconcile_eq quarantineRecords))
    apply Books.onlyGated
    intro t ht
    exact (hopened'.complete_iff t).mpr (hadvance t ((hopened.complete_iff t).mp ht))

namespace PaidDay

/-- The reports of the settled day before the settlement lines arrive. -/
def beforeLines : List CompletenessResult := ReportType.all.map fun reportType =>
  let result := completeReport reportType
  if reportType = .settlementLines then
    { result with status := { result.status with state := .pending } }
  else result

theorem completeness_only_gates_settledDay :
    ∃ result, reconcile (txt "run-1") (atTen (september 18 rfl)) settledDay.canonicalization
      beforeLines [] = .ok result ∧ OnlyGated result settledDay.result := by
  have hreports : (beforeLines.map fun c => c.status.reportType).Perm
      (settledDay.completenessResults.map fun c => c.status.reportType) := .of_eq (by decide)
  obtain ⟨hreturns, hgates⟩ := @completeness_only_gates (txt "run-1") (atTen (september 18 rfl))
    settledDay.canonicalization _ _ [] hreports
  obtain ⟨result, h⟩ := hreturns.mpr ⟨_, settledDay.reconcile_eq⟩
  refine ⟨result, h, hgates (fun t _ => ?_) result _ h settledDay.reconcile_eq⟩
  cases t <;> decide

end PaidDay

end Threadline
