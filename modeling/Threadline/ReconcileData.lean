import Mathlib.Algebra.Ring.Int.Defs
import Threadline.Canonicalize
import Threadline.Completeness

/-!
# Inputs and rows of the reconciler

The canonical records by type, the report states, the result rows and the
exceptions. Each exception of a rule comes with the rows whose codes it joins.
-/

open PyText PyCalendar PySorted

namespace Threadline

inductive ReconciliationError
  | runId
  | duplicateCompleteness (reportType : ReportType)
  | missingCompleteness (reportTypes : List ReportType)
  | fee (error : MoneyError)
  | captureWithoutAvailableOn (paymentId : Text)
  | refundWithoutAvailableOn (refundId : Text)
  | multiplePayouts (dates : List Date)
  deriving DecidableEq

/-! ## Canonical records by type -/

namespace FinancialRecord

def asOrder? : FinancialRecord → Option Order
  | .order r => some r
  | _ => none

def asPayment? : FinancialRecord → Option Payment
  | .payment r => some r
  | _ => none

def asRefund? : FinancialRecord → Option Refund
  | .refund r => some r
  | _ => none

def asFee? : FinancialRecord → Option Fee
  | .fee r => some r
  | _ => none

def asSettlementLine? : FinancialRecord → Option SettlementLine
  | .settlementLine r => some r
  | _ => none

def asPayout? : FinancialRecord → Option Payout
  | .payout r => some r
  | _ => none

end FinancialRecord

/-- The canonical records by type, each type with distinct record IDs. -/
structure CanonicalRecords where
  orders : List Order
  payments : List Payment
  refunds : List Refund
  fees : List Fee
  settlementLines : List SettlementLine
  payouts : List Payout
  orders_nodup : (orders.map Order.orderId).Nodup
  payments_nodup : (payments.map Payment.paymentId).Nodup
  refunds_nodup : (refunds.map Refund.refundId).Nodup
  fees_nodup : (fees.map Fee.feeId).Nodup
  settlementLines_nodup : (settlementLines.map SettlementLine.settlementLineId).Nodup
  payouts_nodup : (payouts.map Payout.payoutId).Nodup

/-- Distinct identities of one type have distinct record IDs. -/
theorem filterMap_ids_nodup {α : Type*} {cast : FinancialRecord → Option α} {recordId : α → Text}
    {source : SourceSystem} {type : EntityType}
    (hcast : ∀ r a, cast r = some a → r.identity = ⟨source, type, recordId a⟩)
    {records : List FinancialRecord} (hn : (records.map FinancialRecord.identity).Nodup) :
    ((records.filterMap cast).map recordId).Nodup := by
  induction records with
  | nil => exact List.nodup_nil
  | cons r records ih =>
    obtain ⟨hr, hn⟩ := List.nodup_cons.mp hn
    cases hc : cast r with
    | none =>
      rw [List.filterMap_cons_none hc]
      exact ih hn
    | some a =>
      rw [List.filterMap_cons_some hc, List.map_cons, List.nodup_cons]
      refine ⟨fun hm => hr ?_, ih hn⟩
      obtain ⟨b, hb, hab⟩ := List.mem_map.mp hm
      obtain ⟨s, hs, hsb⟩ := List.mem_filterMap.mp hb
      rw [hcast r a hc, ← hab, ← hcast s b hsb]
      exact List.mem_map_of_mem hs

theorem sortedBy_ids_nodup {α κ : Type*} [LinearOrder κ] {key : α → κ} {recordId : α → Text}
    {xs : List α} (hn : (xs.map recordId).Nodup) : ((sortedBy key xs).map recordId).Nodup :=
  ((sortedBy_perm key xs).map recordId).nodup_iff.mpr hn

/-- `_split_canonical_records`. -/
def splitCanonicalRecords (canonicalization : CanonicalizationResult) : CanonicalRecords where
  orders := sortedBy Order.orderId
    (canonicalization.canonicalRecords.filterMap FinancialRecord.asOrder?)
  payments := sortedBy Payment.paymentId
    (canonicalization.canonicalRecords.filterMap FinancialRecord.asPayment?)
  refunds := sortedBy Refund.refundId
    (canonicalization.canonicalRecords.filterMap FinancialRecord.asRefund?)
  fees := sortedBy Fee.feeId (canonicalization.canonicalRecords.filterMap FinancialRecord.asFee?)
  settlementLines := sortedBy SettlementLine.settlementLineId
    (canonicalization.canonicalRecords.filterMap FinancialRecord.asSettlementLine?)
  payouts := sortedBy (fun p : Payout => toLex (p.payoutDate, p.payoutId))
    (canonicalization.canonicalRecords.filterMap FinancialRecord.asPayout?)
  orders_nodup := sortedBy_ids_nodup (filterMap_ids_nodup
    (by rintro (_ | _ | _ | _ | _ | _) a h <;> cases h; rfl) canonicalization.identities_nodup)
  payments_nodup := sortedBy_ids_nodup (filterMap_ids_nodup
    (by rintro (_ | _ | _ | _ | _ | _) a h <;> cases h; rfl) canonicalization.identities_nodup)
  refunds_nodup := sortedBy_ids_nodup (filterMap_ids_nodup
    (by rintro (_ | _ | _ | _ | _ | _) a h <;> cases h; rfl) canonicalization.identities_nodup)
  fees_nodup := sortedBy_ids_nodup (filterMap_ids_nodup
    (by rintro (_ | _ | _ | _ | _ | _) a h <;> cases h; rfl) canonicalization.identities_nodup)
  settlementLines_nodup := sortedBy_ids_nodup (filterMap_ids_nodup
    (by rintro (_ | _ | _ | _ | _ | _) a h <;> cases h; rfl) canonicalization.identities_nodup)
  payouts_nodup := sortedBy_ids_nodup (filterMap_ids_nodup
    (by rintro (_ | _ | _ | _ | _ | _) a h <;> cases h; rfl) canonicalization.identities_nodup)

/-! ## Result rows -/

/-- A two-place amount in cents, or the `Decimal` of a count. -/
inductive Amount
  | money (cents : ℤ)
  | count (n : ℕ)
  deriving DecidableEq

def Amount.cents : Amount → ℤ
  | .money cents => cents
  | .count n => 100 * n

structure ExpectedMovement where
  movementType : MovementType
  movementId : Text
  availableOn : Date
  signedAmount : ℤ
  supportingSourceRecordIds : List Text
  deriving DecidableEq

def ExpectedMovement.movementKey (m : ExpectedMovement) : MovementType × Text :=
  (m.movementType, m.movementId)

def ExpectedMovement.sortKey (m : ExpectedMovement) : Text ×ₗ Text ×ₗ Text :=
  toLex (m.availableOn.isoformat, toLex (m.movementType.value, m.movementId))

def SettlementLine.movementKey (line : SettlementLine) : MovementType × Text :=
  (line.movementType, line.movementId)

/-- `f"{movement_type.value}:{movement_id}"`. -/
def movementText (key : MovementType × Text) : Text := key.1.value ++ (ofChar ':' :: key.2)

structure ReconciliationException where
  runId : Text
  contractVersion : Text
  ruleId : Text
  exceptionType : ExceptionCode
  entityType : Text
  entityId : Text
  expectedAmount : Option Amount
  actualAmount : Option Amount
  variance : Option Amount
  detectedAtUtc : UtcDateTime
  status : Text
  supportingSourceRecordIds : List Text
  deriving DecidableEq

def ReconciliationException.sortKey (x : ReconciliationException) :
    Text ×ₗ Text ×ₗ Text ×ₗ Text :=
  toLex (x.exceptionType.value, toLex (x.entityType, toLex (x.entityId, x.ruleId)))

structure TransactionReconciliation where
  runId : Text
  contractVersion : Text
  orderId : Text
  orderStatus : OrderStatus
  currency : Text
  expectedCollection : ℤ
  capturedTotal : ℤ
  collectionVariance : ℤ
  successfulRefundTotal : ℤ
  expectedFeeTotal : ℤ
  reportedFeeTotal : ℤ
  lifetimeNetCollection : ℤ
  capturedPaymentCount : ℕ
  successfulRefundCount : ℕ
  state : ReconciliationState
  exceptionCodes : List ExceptionCode
  deriving DecidableEq

structure PayoutReconciliation where
  runId : Text
  contractVersion : Text
  payoutId : Text
  payoutDate : Date
  currency : Text
  expectedPayout : ℤ
  reportedLineTotal : ℤ
  reportedNetAmount : ℤ
  providerReportVariance : ℤ
  endToEndPayoutVariance : ℤ
  expectedMovementCount : ℕ
  settlementLineCount : ℕ
  state : ReconciliationState
  exceptionCodes : List ExceptionCode
  deriving DecidableEq

def PayoutReconciliation.sortKey (row : PayoutReconciliation) : Text ×ₗ Text :=
  toLex (row.payoutDate.isoformat, row.payoutId)

structure QuarantinedRecord where
  entityType : Text
  sourceId : Option Text
  reasonCode : Text
  reasonDetail : Text
  rawPayloadJson : Text
  deriving DecidableEq

def QuarantinedRecord.sortKey (q : QuarantinedRecord) : Text ×ₗ Text ×ₗ Text :=
  toLex (q.entityType, toLex (q.sourceId.getD [], q.reasonCode))

structure ReconciliationResult where
  runId : Text
  contractVersion : Text
  detectedAtUtc : UtcDateTime
  transactions : List TransactionReconciliation
  expectedMovements : List ExpectedMovement
  payouts : List PayoutReconciliation
  exceptions : List ReconciliationException
  sourceCompleteness : List SourceReportStatus
  quarantineRecords : List QuarantinedRecord
  deriving DecidableEq

/-! ## Run inputs -/

structure Run where
  runId : Text
  detectedAtUtc : UtcDateTime

def requireRunId (runId : Text) : Except ReconciliationError Text :=
  if runId = [] ∨ runId ≠ strip runId then .error .runId else .ok runId

/-- `f"{entity_type.value}:{record_id}"`. -/
def sourceReference (r : FinancialRecord) : Text := r.entityType.value ++ (ofChar ':' :: r.recordId)

def addReportState (states : PyDict ReportType SourceCompleteness) (result : CompletenessResult) :
    Except ReconciliationError (PyDict ReportType SourceCompleteness) :=
  if (states.get? result.status.reportType).isSome then
    .error (.duplicateCompleteness result.status.reportType)
  else .ok (states.set result.status.reportType result.status.state)

/-- `_build_report_state_map`, which has a state for every report type. -/
def buildReportStateMap (results : List CompletenessResult) :
    Except ReconciliationError (ReportType → SourceCompleteness) := do
  let states ← results.foldlM addReportState ∅
  let missing := sortedBy ReportType.value
    (ReportType.all.filter fun reportType => (states.get? reportType).isNone)
  if missing ≠ [] then .error (.missingCompleteness missing)
  else .ok fun reportType => states.getD reportType .pending

def reportsComplete (states : ReportType → SourceCompleteness) (required : List ReportType) :
    Bool := required.all fun reportType => states reportType = .complete

def transactionRequiredReports : List ReportType := [.orders, .payments, .refunds, .fees]

def payoutRequiredReports : List ReportType :=
  [.payments, .refunds, .fees, .settlementLines, .payouts]

/-- `_result_state`. -/
def resultState (states : ReportType → SourceCompleteness) (required : List ReportType)
    (hasBlockingException : Bool) : ReconciliationState :=
  if required.any fun reportType => states reportType = .incomplete then .incomplete
  else if required.any fun reportType => states reportType = .pending then .pending
  else if hasBlockingException then .exception
  else .reconciled

/-- `_new_exception`. -/
def newException (run : Run) (ruleId : Text) (exceptionType : ExceptionCode)
    (entityType entityId : Text) (expectedAmount actualAmount : Option Amount)
    (supportingSourceRecordIds : List Text) : ReconciliationException where
  runId := run.runId
  contractVersion := contractVersion
  ruleId := ruleId
  exceptionType := exceptionType
  entityType := entityType
  entityId := entityId
  expectedAmount := expectedAmount
  actualAmount := actualAmount
  variance := do
    let expected ← expectedAmount
    let actual ← actualAmount
    pure (.money (actual.cents - expected.cents))
  detectedAtUtc := run.detectedAtUtc
  status := txt "OPEN"
  supportingSourceRecordIds := sortedSet supportingSourceRecordIds

/-- An exception, and the orders and payouts whose codes its type joins. -/
structure Finding where
  exception : ReconciliationException
  orderIds : List Text
  payoutIds : List Text

def missingCompletenessIssues : List CompletenessIssueCode := [.dataFileMissing, .manifestMissing]

def sourceCompletenessException (run : Run) (result : CompletenessResult) :
    ReconciliationException :=
  let onlyMissing := result.issues.all fun issue => issue.code ∈ missingCompletenessIssues
  newException run (txt "source.report_completeness")
    (if onlyMissing then .sourceReportMissing else .sourceReportInvalid) (txt "SOURCE_REPORT")
    (result.status.sourceSystem.value ++ (ofChar ':' :: (result.status.reportType.value ++
      (ofChar ':' :: result.status.businessDate.isoformat))))
    none none (result.status.batchId.toList.filter fun batchId => batchId ≠ [])

/-- `_source_completeness_exceptions`. -/
def sourceCompletenessFindings (run : Run) (results : List CompletenessResult) : List Finding :=
  (results.filter fun result => result.status.state = .incomplete).map fun result =>
    ⟨sourceCompletenessException run result, [], []⟩

def conflictException (run : Run) (conflict : CanonicalConflict) : ReconciliationException :=
  newException run (txt "canonicalization.same_version_conflict") .conflictingSourceVersion
    conflict.identity.entityType.value conflict.identity.sourceId none none conflict.receiptIds

/-- `_canonical_conflict_exceptions`. -/
def canonicalConflictFindings (run : Run) (canonicalization : CanonicalizationResult) :
    List Finding :=
  canonicalization.conflicts.map fun conflict => ⟨conflictException run conflict, [], []⟩

end Threadline
