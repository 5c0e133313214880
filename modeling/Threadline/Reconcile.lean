import Threadline.ReconcileData

/-!
# Reconciliation

The rules run in passes over payments, refunds, fees, orders, settlement lines
and payouts. The order and payout loops build a row from the findings so far.
-/

open PyText PyCalendar PySorted

namespace Threadline

def paymentFee (payment : Payment) : Except ReconciliationError (Text × ℤ) :=
  match calculateFee payment.paymentMethod.value payment.amount payment.currency with
  | .ok fee => .ok (payment.paymentId, fee)
  | .error error => .error (.fee error)

/-- `calculate_fee` for every captured payment, by payment ID. -/
def expectedFeeByPayment (capturedPayments : List Payment) :
    Except ReconciliationError (PyDict Text ℤ) := do
  let fees ← capturedPayments.mapM paymentFee
  .ok (PyDict.ofPairs fees)

def CanonicalRecords.capturedPayments (records : CanonicalRecords) : List Payment :=
  records.payments.filter fun payment => payment.status = .captured

def CanonicalRecords.successfulRefunds (records : CanonicalRecords) : List Refund :=
  records.refunds.filter fun refund => refund.status = .succeeded

/-- `sorted(codes[key])` of the findings so far. -/
def codesOf (keys : Finding → List Text) (findings : List Finding) (key : Text) :
    List ExceptionCode :=
  sortedBy ExceptionCode.value
    ((findings.filter fun finding => key ∈ keys finding).map fun finding =>
      finding.exception.exceptionType).dedup

/-- What the rules read: the run, the report states, the records and the fee schedule. -/
structure Books where
  run : Run
  states : ReportType → SourceCompleteness
  records : CanonicalRecords
  expectedFees : PyDict Text ℤ

namespace Books

variable (b : Books)

def capturedPayments : List Payment := b.records.capturedPayments

def successfulRefunds : List Refund := b.records.successfulRefunds

/-- `orders_by_id.get(order_id)`. -/
def orderById (orderId : Text) : Option Order :=
  (PyDict.ofPairs (b.records.orders.map fun order => (order.orderId, order))).get? orderId

/-- `payments_by_id.get(payment_id)`. -/
def paymentById (paymentId : Text) : Option Payment :=
  (PyDict.ofPairs (b.records.payments.map fun payment => (payment.paymentId, payment))).get?
    paymentId

/-- `fees_by_id.get(fee_id)`. -/
def feeById (feeId : Text) : Option Fee :=
  (PyDict.ofPairs (b.records.fees.map fun fee => (fee.feeId, fee))).get? feeId

/-- `captured_by_order.get(order_id, [])`. -/
def capturedByOrder (orderId : Text) : List Payment :=
  (PyDict.groupBy Payment.orderId b.capturedPayments).getD orderId []

/-- `successful_refunds_by_payment.get(payment_id, [])`. -/
def refundsByPayment (paymentId : Text) : List Refund :=
  (PyDict.groupBy Refund.paymentId b.successfulRefunds).getD paymentId []

/-- `fees_by_payment.get(payment_id, [])`. -/
def feesByPayment (paymentId : Text) : List Fee :=
  (PyDict.groupBy Fee.paymentId b.records.fees).getD paymentId []

/-- `expected_fee_by_payment[payment_id]`. -/
def expectedFee (paymentId : Text) : ℤ := b.expectedFees.getD paymentId 0

/-! ## Orphan and non-payable payment rules -/

def paymentFinding (payment : Payment) : List Finding :=
  match b.orderById payment.orderId with
  | none =>
    [⟨newException b.run (txt "payment.order_exists") .orphanPayment EntityType.payment.value
      payment.paymentId none (some (.money payment.amount)) [sourceReference (.payment payment)],
      [], []⟩]
  | some order =>
    if order.status = .cancelled then
      [⟨newException b.run (txt "payment.order_is_payable") .captureForNonPayableOrder
        EntityType.order.value order.orderId (some (.money 0)) (some (.money payment.amount))
        [sourceReference (.order order), sourceReference (.payment payment)],
        [order.orderId], []⟩]
    else []

def paymentFindings : List Finding :=
  if reportsComplete b.states [.orders, .payments] then
    b.capturedPayments.flatMap b.paymentFinding
  else []

/-! ## Refund integrity -/

/-- A payment that is missing or not captured. -/
def capturedPaymentById (paymentId : Text) : Option Payment :=
  (b.paymentById paymentId).filter fun payment => payment.status = .captured

def refundFinding (refund : Refund) : List Finding :=
  match b.capturedPaymentById refund.paymentId with
  | none =>
    [⟨newException b.run (txt "refund.captured_payment_exists") .orphanRefund
      EntityType.refund.value refund.refundId none (some (.money refund.amount))
      [sourceReference (.refund refund)], [], []⟩]
  | some payment =>
    if refund.currency ≠ payment.currency then
      [⟨newException b.run (txt "refund.currency_matches_payment") .refundCurrencyMismatch
        EntityType.refund.value refund.refundId none none
        [sourceReference (.payment payment), sourceReference (.refund refund)],
        [payment.orderId], []⟩]
    else []

def excessRefundFinding (payment : Payment) : List Finding :=
  let relatedRefunds := b.refundsByPayment payment.paymentId
  let refundTotal := (relatedRefunds.map Refund.amount).sum
  if refundTotal > payment.amount then
    [⟨newException b.run (txt "refund.total_within_capture") .excessRefund EntityType.payment.value
      payment.paymentId (some (.money payment.amount)) (some (.money refundTotal))
      (sourceReference (.payment payment) ::
        relatedRefunds.map fun refund => sourceReference (.refund refund)),
      [payment.orderId], []⟩]
  else []

def refundFindings : List Finding :=
  if reportsComplete b.states [.payments, .refunds] then
    b.successfulRefunds.flatMap b.refundFinding ++ b.capturedPayments.flatMap b.excessRefundFinding
  else []

/-! ## Fee integrity -/

def capturedFeeFinding (payment : Payment) : List Finding :=
  let relatedFees := b.feesByPayment payment.paymentId
  let expectedFee := b.expectedFee payment.paymentId
  let reportedFee := (relatedFees.map Fee.amount).sum
  if relatedFees = [] then
    [⟨newException b.run (txt "fee.processing_fee_exists") .missingFee EntityType.payment.value
      payment.paymentId (some (.money expectedFee)) (some (.money 0))
      [sourceReference (.payment payment)], [payment.orderId], []⟩]
  else if reportedFee ≠ expectedFee then
    [⟨newException b.run (txt "fee.amount_matches_schedule") .feeMismatch EntityType.payment.value
      payment.paymentId (some (.money expectedFee)) (some (.money reportedFee))
      (sourceReference (.payment payment) ::
        relatedFees.map fun fee => sourceReference (.fee fee)),
      [payment.orderId], []⟩]
  else []

def unexpectedFeeFinding (fee : Fee) : List Finding :=
  match b.capturedPaymentById fee.paymentId with
  | none =>
    [⟨newException b.run (txt "fee.belongs_to_capture") .unexpectedFee EntityType.fee.value
      fee.feeId (some (.money 0)) (some (.money fee.amount)) [sourceReference (.fee fee)], [], []⟩]
  | some _ => []

def feeFindings : List Finding :=
  if reportsComplete b.states [.payments, .fees] then
    b.capturedPayments.flatMap b.capturedFeeFinding ++
      b.records.fees.flatMap b.unexpectedFeeFinding
  else []

/-! ## Transaction reconciliation -/

def capturedTotal (order : Order) : ℤ := ((b.capturedByOrder order.orderId).map Payment.amount).sum

def expectedCollection (order : Order) : ℤ := if order.status = .paid then order.orderTotal else 0

def collectionFinding (order : Order) : List Finding :=
  let orderPayments := b.capturedByOrder order.orderId
  let collectionVariance := b.capturedTotal order - expectedCollection order
  if orderPayments = [] then
    [⟨newException b.run (txt "order.payment_exists") .missingPayment EntityType.order.value
      order.orderId (some (.money order.orderTotal)) (some (.money 0))
      [sourceReference (.order order)], [order.orderId], []⟩]
  else if collectionVariance ≠ 0 then
    [⟨newException b.run (txt "order.collection_matches_total") .paymentAmountMismatch
      EntityType.order.value order.orderId (some (.money order.orderTotal))
      (some (.money (b.capturedTotal order)))
      (sourceReference (.order order) ::
        orderPayments.map fun payment => sourceReference (.payment payment)),
      [order.orderId], []⟩]
  else []

def multipleCaptureFinding (order : Order) : List Finding :=
  let orderPayments := b.capturedByOrder order.orderId
  if orderPayments.length > 1 then
    [⟨newException b.run (txt "order.maximum_one_capture") .multipleCapture EntityType.order.value
      order.orderId (some (.money 100)) (some (.count orderPayments.length))
      (sourceReference (.order order) ::
        orderPayments.map fun payment => sourceReference (.payment payment)),
      [order.orderId], []⟩]
  else []

def orderFindings (order : Order) : List Finding :=
  if order.status = .paid ∧ reportsComplete b.states [.orders, .payments] then
    b.collectionFinding order ++ b.multipleCaptureFinding order
  else []

def orderPaymentIds (order : Order) : List Text :=
  ((b.capturedByOrder order.orderId).map Payment.paymentId).dedup

def orderRefunds (order : Order) : List Refund :=
  b.successfulRefunds.filter fun refund => refund.paymentId ∈ b.orderPaymentIds order

def orderFees (order : Order) : List Fee :=
  b.records.fees.filter fun fee => fee.paymentId ∈ b.orderPaymentIds order

def transactionRow (codes : List ExceptionCode) (order : Order) : TransactionReconciliation :=
  let refundTotal := ((b.orderRefunds order).map Refund.amount).sum
  let expectedFeeTotal := ((b.orderPaymentIds order).map b.expectedFee).sum
  { runId := b.run.runId
    contractVersion := contractVersion
    orderId := order.orderId
    orderStatus := order.status
    currency := order.currency
    expectedCollection := expectedCollection order
    capturedTotal := b.capturedTotal order
    collectionVariance := b.capturedTotal order - expectedCollection order
    successfulRefundTotal := refundTotal
    expectedFeeTotal := expectedFeeTotal
    reportedFeeTotal := ((b.orderFees order).map Fee.amount).sum
    lifetimeNetCollection := b.capturedTotal order - refundTotal - expectedFeeTotal
    capturedPaymentCount := (b.capturedByOrder order.orderId).length
    successfulRefundCount := (b.orderRefunds order).length
    state := resultState b.states transactionRequiredReports (codes ≠ [])
    exceptionCodes := codes }

/-- One round of the transaction loop. -/
def transactionStep (state : List Finding × List TransactionReconciliation) (order : Order) :
    List Finding × List TransactionReconciliation :=
  let findings := state.1 ++ b.orderFindings order
  (findings, state.2 ++ [b.transactionRow (codesOf Finding.orderIds findings order.orderId) order])

/-! ## Expected payout movements -/

def feeMovementId (payment : Payment) : Text :=
  match b.feesByPayment payment.paymentId with
  | [fee] => fee.feeId
  | _ => txt "expected-fee:" ++ payment.paymentId

def captureMovements (payment : Payment) (availableOn : Date) : List ExpectedMovement :=
  [⟨.capture, payment.paymentId, availableOn, payment.amount, [sourceReference (.payment payment)]⟩,
   ⟨.fee, b.feeMovementId payment, availableOn, -b.expectedFee payment.paymentId,
     sourceReference (.payment payment) ::
       (b.feesByPayment payment.paymentId).map fun fee => sourceReference (.fee fee)⟩]

def capturedMovements (payment : Payment) : Except ReconciliationError (List ExpectedMovement) :=
  match payment.availableOn with
  | none => .error (.captureWithoutAvailableOn payment.paymentId)
  | some availableOn => .ok (b.captureMovements payment availableOn)

def refundMovement (refund : Refund) (availableOn : Date) : ExpectedMovement :=
  ⟨.refund, refund.refundId, availableOn, -refund.amount, [sourceReference (.refund refund)]⟩

def refundedMovement (refund : Refund) : Except ReconciliationError ExpectedMovement :=
  match refund.availableOn with
  | none => .error (.refundWithoutAvailableOn refund.refundId)
  | some availableOn => .ok (refundMovement refund availableOn)

def expectedMovements : Except ReconciliationError (List ExpectedMovement) := do
  let captures ← b.capturedPayments.mapM b.capturedMovements
  let refunds ← b.successfulRefunds.mapM refundedMovement
  .ok (sortedBy ExpectedMovement.sortKey (captures.flatten ++ refunds))

/-! ## Settlement line integrity -/

def duplicateMovementFinding (item : (MovementType × Text) × List SettlementLine) : List Finding :=
  if item.2.length ≤ 1 then []
  else
    [⟨newException b.run (txt "settlement.unique_movement_allocation") .duplicateSettlementMovement
      (txt "SETTLEMENT_MOVEMENT") (movementText item.1) none (some (.count item.2.length))
      (item.2.map fun line => sourceReference (.settlementLine line)),
      [], item.2.map SettlementLine.payoutId⟩]

def duplicateMovementFindings : List Finding :=
  if b.states .settlementLines = .complete then
    (sortedBy (fun item : (MovementType × Text) × List SettlementLine =>
      toLex (item.1.1.value, item.1.2))
      (PyDict.groupBy SettlementLine.movementKey b.records.settlementLines).items).flatMap
        b.duplicateMovementFinding
  else []

def linesByPayout (payoutId : Text) : List SettlementLine :=
  (PyDict.groupBy SettlementLine.payoutId b.records.settlementLines).getD payoutId []

/-! ## Payout reconciliation -/

def duplicatePayoutDates : List Date :=
  sortedBy id (((PyDict.groupBy Payout.payoutDate b.records.payouts).items.filter fun item =>
    item.2.length > 1).map Prod.fst)

/-- The amount a settlement line must carry: of a fee, the one that was reported. -/
def expectedLineAmount (movement : ExpectedMovement) : ℤ :=
  if movement.movementType = .fee then
    match b.feeById movement.movementId with
    | some reportedFee => -reportedFee.amount
    | none => movement.signedAmount
  else movement.signedAmount

def movementFinding (payout : Payout) (movement : ExpectedMovement) : List Finding :=
  match (PyDict.groupBy SettlementLine.movementKey (b.linesByPayout payout.payoutId)).getD
      movement.movementKey [] with
  | [] =>
    [⟨newException b.run (txt "settlement.expected_movement_exists") .missingSettlementLine
      (txt "EXPECTED_MOVEMENT") (movementText movement.movementKey)
      (some (.money movement.signedAmount)) (some (.money 0)) movement.supportingSourceRecordIds,
      [], [payout.payoutId]⟩]
  | [line] =>
    if line.signedAmount ≠ b.expectedLineAmount movement then
      [⟨newException b.run (txt "settlement.amount_matches_reported_source_movement")
        .settlementLineAmountMismatch EntityType.settlementLine.value line.settlementLineId
        (some (.money (b.expectedLineAmount movement))) (some (.money line.signedAmount))
        (movement.supportingSourceRecordIds ++ [sourceReference (.settlementLine line)]),
        [], [payout.payoutId]⟩]
    else []
  | _ => []

def reportedLineTotal (payout : Payout) : ℤ :=
  ((b.linesByPayout payout.payoutId).map SettlementLine.signedAmount).sum

def payoutTotalFinding (payout : Payout) : List Finding :=
  if reportsComplete b.states [.settlementLines, .payouts] ∧
      payout.reportedNetAmount - b.reportedLineTotal payout ≠ 0 then
    [⟨newException b.run (txt "payout.header_matches_settlement_lines") .payoutTotalMismatch
      EntityType.payout.value payout.payoutId (some (.money (b.reportedLineTotal payout)))
      (some (.money payout.reportedNetAmount))
      (sourceReference (.payout payout) ::
        (b.linesByPayout payout.payoutId).map fun line => sourceReference (.settlementLine line)),
      [], [payout.payoutId]⟩]
  else []

/-- `expected_by_date.get(payout_date, [])`. -/
def expectedForDate (movements : List ExpectedMovement) (payoutDate : Date) :
    List ExpectedMovement :=
  (PyDict.groupBy ExpectedMovement.availableOn movements).getD payoutDate []

def payoutFindings (movements : List ExpectedMovement) (payout : Payout) : List Finding :=
  (if reportsComplete b.states [.payments, .refunds, .fees, .settlementLines] then
    (expectedForDate movements payout.payoutDate).flatMap (b.movementFinding payout)
  else []) ++ b.payoutTotalFinding payout

def payoutRow (movements : List ExpectedMovement) (codes : List ExceptionCode) (payout : Payout) :
    PayoutReconciliation :=
  let expected := expectedForDate movements payout.payoutDate
  let expectedPayout := (expected.map ExpectedMovement.signedAmount).sum
  let reportedLineTotal := b.reportedLineTotal payout
  let endToEndVariance := payout.reportedNetAmount - expectedPayout
  { runId := b.run.runId
    contractVersion := contractVersion
    payoutId := payout.payoutId
    payoutDate := payout.payoutDate
    currency := payout.currency
    expectedPayout := expectedPayout
    reportedLineTotal := reportedLineTotal
    reportedNetAmount := payout.reportedNetAmount
    providerReportVariance := payout.reportedNetAmount - reportedLineTotal
    endToEndPayoutVariance := endToEndVariance
    expectedMovementCount := expected.length
    settlementLineCount := (b.linesByPayout payout.payoutId).length
    state := resultState b.states payoutRequiredReports (codes ≠ [] ∨ endToEndVariance ≠ 0)
    exceptionCodes := codes }

/-- One round of the payout loop. -/
def payoutStep (movements : List ExpectedMovement)
    (state : List Finding × List PayoutReconciliation) (payout : Payout) :
    List Finding × List PayoutReconciliation :=
  let findings := state.1 ++ b.payoutFindings movements payout
  (findings,
    state.2 ++ [b.payoutRow movements (codesOf Finding.payoutIds findings payout.payoutId) payout])

end Books

/-- One failed rule per entity per run: the last one stands. -/
def uniqueExceptions (exceptions : List ReconciliationException) : List ReconciliationException :=
  sortedBy ReconciliationException.sortKey
    (PyDict.ofPairs (exceptions.map fun x =>
      ((x.ruleId, x.exceptionType, x.entityType, x.entityId), x))).values

/-- Run deterministic transaction and payout reconciliation. -/
def reconcile (runId : Text) (detectedAt : UtcDateTime) (canonicalization : CanonicalizationResult)
    (completenessResults : List CompletenessResult) (quarantineRecords : List QuarantinedRecord) :
    Except ReconciliationError ReconciliationResult := do
  let runId ← requireRunId runId
  let run : Run := ⟨runId, detectedAt⟩
  let completenessResults := sortedBy CompletenessResult.sortKey completenessResults
  let states ← buildReportStateMap completenessResults
  let records := splitCanonicalRecords canonicalization
  let expectedFees ← expectedFeeByPayment records.capturedPayments
  let b : Books := ⟨run, states, records, expectedFees⟩
  let findings := sourceCompletenessFindings run completenessResults ++
    canonicalConflictFindings run canonicalization ++ b.paymentFindings ++ b.refundFindings ++
    b.feeFindings
  let afterOrders := records.orders.foldl b.transactionStep (findings, [])
  let movements ← b.expectedMovements
  if b.duplicatePayoutDates ≠ [] then .error (.multiplePayouts b.duplicatePayoutDates)
  let afterPayouts := records.payouts.foldl (b.payoutStep movements)
    (afterOrders.1 ++ b.duplicateMovementFindings, [])
  .ok {
    runId := runId
    contractVersion := contractVersion
    detectedAtUtc := detectedAt
    transactions := sortedBy TransactionReconciliation.orderId afterOrders.2
    expectedMovements := movements
    payouts := sortedBy PayoutReconciliation.sortKey afterPayouts.2
    exceptions := uniqueExceptions (afterPayouts.1.map Finding.exception)
    sourceCompleteness := completenessResults.map CompletenessResult.status
    quarantineRecords := sortedBy QuarantinedRecord.sortKey quarantineRecords
  }

end Threadline
