import Threadline.PyExcept
import Threadline.RecoveryFingerprint

/-!
# Checks before publication

A candidate is checked twice: as a result, and as the JSON document that will be
stored.
-/

open PyText PyJson PyExcept

namespace Threadline

/-- `json_value` gives documents the equality of their texts. -/
instance : DecidableEq Json := fun _ _ => decidable_of_iff _ render_injective.eq_iff

/-- A `PublicationValidationError`, with the row at fault. -/
inductive PublicationError
  | runId
  | contractVersion (version : Text)
  | duplicate (description : Text)
  | transaction (orderId defect : Text)
  | payout (payoutId defect : Text)
  | exceptionRun (entityId : Text)
  | exceptionAmounts (ruleId defect : Text)
  deriving DecidableEq

/-- `raise error` unless the check holds. -/
def require {ε : Type} (check : Prop) [Decidable check] (error : ε) : Except ε Unit :=
  if check then .ok () else .error error

theorem require_eq_ok {ε : Type} {check : Prop} [Decidable check] {error : ε} {u : Unit} :
    require check error = .ok u ↔ check := by
  unfold require
  split_ifs with h <;> simp [h]

def requireUnique {α : Type} [DecidableEq α] (values : List α) (description : Text) :
    Except PublicationError Unit := require values.Nodup (.duplicate description)

def validateTransaction (runId : Text) (t : TransactionReconciliation) :
    Except PublicationError Unit := do
  require (t.runId = runId) (.transaction t.orderId (txt "a different run_id"))
  require (t.contractVersion = contractVersion)
    (.transaction t.orderId (txt "a different contract version"))
  require (t.collectionVariance = t.capturedTotal - t.expectedCollection)
    (.transaction t.orderId (txt "an invalid collection variance"))
  require (t.lifetimeNetCollection =
      t.capturedTotal - t.successfulRefundTotal - t.expectedFeeTotal)
    (.transaction t.orderId (txt "an invalid lifetime net collection"))
  require (¬ (t.state = .reconciled ∧ t.exceptionCodes ≠ []))
    (.transaction t.orderId (txt "contains exceptions"))

def validatePayout (runId : Text) (p : PayoutReconciliation) : Except PublicationError Unit := do
  require (p.runId = runId) (.payout p.payoutId (txt "a different run_id"))
  require (p.providerReportVariance = p.reportedNetAmount - p.reportedLineTotal)
    (.payout p.payoutId (txt "an invalid provider report variance"))
  require (p.endToEndPayoutVariance = p.reportedNetAmount - p.expectedPayout)
    (.payout p.payoutId (txt "an invalid end-to-end variance"))
  require (¬ (p.state = .reconciled ∧ (p.exceptionCodes ≠ [] ∨ p.providerReportVariance ≠ 0 ∨
      p.endToEndPayoutVariance ≠ 0)))
    (.payout p.payoutId (txt "contains unresolved variance"))

def validateException (runId : Text) (x : ReconciliationException) :
    Except PublicationError Unit := do
  require (x.runId = runId) (.exceptionRun x.entityId)
  match x.expectedAmount, x.actualAmount with
  | some expected, some actual =>
    require (x.variance.map Amount.cents = some (actual.cents - expected.cents))
      (.exceptionAmounts x.ruleId (txt "an invalid variance"))
  | _, _ =>
    require (x.variance = none)
      (.exceptionAmounts x.ruleId (txt "variance without both expected and actual amounts"))

/-- Validate the candidate before it replaces published state. -/
def validateForPublication (r : ReconciliationResult) : Except PublicationError Unit := do
  require (r.runId ≠ [] ∧ r.runId = strip r.runId) .runId
  require (r.contractVersion = contractVersion) (.contractVersion r.contractVersion)
  requireUnique (r.transactions.map TransactionReconciliation.orderId)
    (txt "transaction order IDs")
  requireUnique (r.payouts.map PayoutReconciliation.payoutId) (txt "payout IDs")
  requireUnique (r.expectedMovements.map ExpectedMovement.movementKey)
    (txt "expected movement keys")
  requireUnique (r.exceptions.map fun x => (x.ruleId, x.exceptionType, x.entityType, x.entityId))
    (txt "exception rule/entity keys")
  requireUnique (r.sourceCompleteness.map fun s => (s.sourceSystem, s.reportType, s.businessDate))
    (txt "source-completeness keys")
  forM r.transactions (validateTransaction r.runId)
  forM r.payouts (validatePayout r.runId)
  forM r.exceptions (validateException r.runId)

/-! ## The stored document -/

inductive ArithmeticError
  | missing (key : Text)
  | duplicateTransaction
  | duplicatePayout
  | amount (key : Text)
  | collectionVariance
  | lifetimeNetCollection
  | providerVariance
  | endToEndVariance
  deriving DecidableEq

/-- `document[key]`. -/
def item (document : Json) (key : Text) : Except ArithmeticError Json :=
  match document with
  | .obj members =>
    match members.find? fun m => m.1 = key with
    | some m => .ok m.2
    | none => .error (.missing key)
  | _ => .error (.missing key)

def items (document : Json) (key : Text) : Except ArithmeticError (List Json) := do
  match ← item document key with
  | .arr rows => .ok rows
  | _ => .error (.missing key)

/-- `Decimal(str(row[key]))`, which has to be finite. -/
def amountOf (row : Json) (key : Text) : Except ArithmeticError ℚ := do
  match ← item row key with
  | .str s =>
    match decimalText? s with
    | some q => .ok q
    | none => .error (.amount key)
  | .num (.int n) => .ok n
  | _ => .error (.amount key)

def checkTransaction (row : Json) : Except ArithmeticError Unit := do
  let collectionVariance ← amountOf row (txt "collection_variance")
  let capturedTotal ← amountOf row (txt "captured_total")
  let expectedCollection ← amountOf row (txt "expected_collection")
  require (collectionVariance = capturedTotal - expectedCollection) .collectionVariance
  let lifetimeNet ← amountOf row (txt "lifetime_net_collection")
  let refundTotal ← amountOf row (txt "successful_refund_total")
  let feeTotal ← amountOf row (txt "expected_fee_total")
  require (lifetimeNet = capturedTotal - refundTotal - feeTotal) .lifetimeNetCollection

def checkPayout (row : Json) : Except ArithmeticError Unit := do
  let providerVariance ← amountOf row (txt "provider_report_variance")
  let netAmount ← amountOf row (txt "reported_net_amount")
  let lineTotal ← amountOf row (txt "reported_line_total")
  require (providerVariance = netAmount - lineTotal) .providerVariance
  let endToEndVariance ← amountOf row (txt "end_to_end_payout_variance")
  let expectedPayout ← amountOf row (txt "expected_payout")
  require (endToEndVariance = netAmount - expectedPayout) .endToEndVariance

/-- Additional invariants around the existing domain validator. -/
def validateArithmetic (document : Json) : Except ArithmeticError Unit := do
  let transactions ← items document (txt "transactions")
  let payouts ← items document (txt "payouts")
  let orderIds ← transactions.mapM fun row => item row (txt "order_id")
  let payoutIds ← payouts.mapM fun row => item row (txt "payout_id")
  require orderIds.Nodup .duplicateTransaction
  require payoutIds.Nodup .duplicatePayout
  forM transactions checkTransaction
  forM payouts checkPayout

end Threadline
