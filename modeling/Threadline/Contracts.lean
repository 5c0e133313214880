import Mathlib.Data.List.Nodup
import Threadline.Money
import Threadline.PyCalendar

/-!
# Financial records

The enumerations and record classes of the financial contract. The value of an
enumeration member is its wire text.
-/

open PyText PyCalendar

namespace Threadline

def contractVersion : Text := txt "threadline_financial_contract_v1"

inductive SourceSystem
  | threadlineShop
  | mockpay
  deriving DecidableEq

def SourceSystem.value : SourceSystem → Text
  | .threadlineShop => txt "threadline_shop"
  | .mockpay => txt "mockpay"

theorem SourceSystem.value_injective : Function.Injective SourceSystem.value := by
  intro a b
  cases a <;> cases b <;> decide

inductive EntityType
  | order
  | payment
  | refund
  | fee
  | settlementLine
  | payout
  deriving DecidableEq

def EntityType.value : EntityType → Text
  | .order => txt "ORDER"
  | .payment => txt "PAYMENT"
  | .refund => txt "REFUND"
  | .fee => txt "FEE"
  | .settlementLine => txt "SETTLEMENT_LINE"
  | .payout => txt "PAYOUT"

theorem EntityType.value_injective : Function.Injective EntityType.value := by
  intro a b
  cases a <;> cases b <;> decide

inductive ReportType
  | orders
  | payments
  | refunds
  | fees
  | settlementLines
  | payouts
  deriving DecidableEq

def ReportType.value : ReportType → Text
  | .orders => txt "orders"
  | .payments => txt "payments"
  | .refunds => txt "refunds"
  | .fees => txt "fees"
  | .settlementLines => txt "settlement_lines"
  | .payouts => txt "payouts"

theorem ReportType.value_injective : Function.Injective ReportType.value := by
  intro a b
  cases a <;> cases b <;> decide

/-- The members of `ReportType`, in declaration order. -/
def ReportType.all : List ReportType :=
  [.orders, .payments, .refunds, .fees, .settlementLines, .payouts]

inductive OrderStatus
  | paymentPending
  | paid
  | cancelled
  deriving DecidableEq

def OrderStatus.value : OrderStatus → Text
  | .paymentPending => txt "PAYMENT_PENDING"
  | .paid => txt "PAID"
  | .cancelled => txt "CANCELLED"

theorem OrderStatus.value_injective : Function.Injective OrderStatus.value := by
  intro a b
  cases a <;> cases b <;> decide

inductive PaymentStatus
  | failed
  | captured
  deriving DecidableEq

def PaymentStatus.value : PaymentStatus → Text
  | .failed => txt "FAILED"
  | .captured => txt "CAPTURED"

theorem PaymentStatus.value_injective : Function.Injective PaymentStatus.value := by
  intro a b
  cases a <;> cases b <;> decide

inductive RefundStatus
  | failed
  | succeeded
  deriving DecidableEq

def RefundStatus.value : RefundStatus → Text
  | .failed => txt "FAILED"
  | .succeeded => txt "SUCCEEDED"

theorem RefundStatus.value_injective : Function.Injective RefundStatus.value := by
  intro a b
  cases a <;> cases b <;> decide

inductive PaymentMethod
  | card
  | wallet
  deriving DecidableEq

def PaymentMethod.value : PaymentMethod → Text
  | .card => txt "CARD"
  | .wallet => txt "WALLET"

theorem PaymentMethod.value_injective : Function.Injective PaymentMethod.value := by
  intro a b
  cases a <;> cases b <;> decide

inductive FeeType
  | processing
  deriving DecidableEq

def FeeType.value : FeeType → Text
  | .processing => txt "PROCESSING"

theorem FeeType.value_injective : Function.Injective FeeType.value := by
  intro a b _
  cases a
  cases b
  rfl

inductive MovementType
  | capture
  | refund
  | fee
  deriving DecidableEq

def MovementType.value : MovementType → Text
  | .capture => txt "CAPTURE"
  | .refund => txt "REFUND"
  | .fee => txt "FEE"

theorem MovementType.value_injective : Function.Injective MovementType.value := by
  intro a b
  cases a <;> cases b <;> decide

inductive SourceCompleteness
  | pending
  | incomplete
  | complete
  deriving DecidableEq

def SourceCompleteness.value : SourceCompleteness → Text
  | .pending => txt "PENDING"
  | .incomplete => txt "INCOMPLETE"
  | .complete => txt "COMPLETE"

inductive ReconciliationState
  | pending
  | incomplete
  | reconciled
  | exception
  deriving DecidableEq

def ReconciliationState.value : ReconciliationState → Text
  | .pending => txt "PENDING"
  | .incomplete => txt "INCOMPLETE"
  | .reconciled => txt "RECONCILED"
  | .exception => txt "EXCEPTION"

inductive EvidenceDisposition
  | accepted
  | stale
  | duplicate
  | conflicted
  | quarantined
  deriving DecidableEq

inductive ExceptionCode
  | batchConflict
  | captureForNonPayableOrder
  | conflictingSourceVersion
  | duplicateSettlementMovement
  | excessRefund
  | feeMismatch
  | missingFee
  | missingPayment
  | missingSettlementLine
  | multipleCapture
  | orphanPayment
  | orphanRefund
  | paymentAmountMismatch
  | payoutTotalMismatch
  | refundCurrencyMismatch
  | settlementLineAmountMismatch
  | sourceReportInvalid
  | sourceReportMissing
  | unexpectedFee
  deriving DecidableEq

def ExceptionCode.value : ExceptionCode → Text
  | .batchConflict => txt "BATCH_CONFLICT"
  | .captureForNonPayableOrder => txt "CAPTURE_FOR_NON_PAYABLE_ORDER"
  | .conflictingSourceVersion => txt "CONFLICTING_SOURCE_VERSION"
  | .duplicateSettlementMovement => txt "DUPLICATE_SETTLEMENT_MOVEMENT"
  | .excessRefund => txt "EXCESS_REFUND"
  | .feeMismatch => txt "FEE_MISMATCH"
  | .missingFee => txt "MISSING_FEE"
  | .missingPayment => txt "MISSING_PAYMENT"
  | .missingSettlementLine => txt "MISSING_SETTLEMENT_LINE"
  | .multipleCapture => txt "MULTIPLE_CAPTURE"
  | .orphanPayment => txt "ORPHAN_PAYMENT"
  | .orphanRefund => txt "ORPHAN_REFUND"
  | .paymentAmountMismatch => txt "PAYMENT_AMOUNT_MISMATCH"
  | .payoutTotalMismatch => txt "PAYOUT_TOTAL_MISMATCH"
  | .refundCurrencyMismatch => txt "REFUND_CURRENCY_MISMATCH"
  | .settlementLineAmountMismatch => txt "SETTLEMENT_LINE_AMOUNT_MISMATCH"
  | .sourceReportInvalid => txt "SOURCE_REPORT_INVALID"
  | .sourceReportMissing => txt "SOURCE_REPORT_MISSING"
  | .unexpectedFee => txt "UNEXPECTED_FEE"

/-- The members of `ExceptionCode`, in declaration order. -/
def ExceptionCode.all : List ExceptionCode :=
  [.batchConflict, .captureForNonPayableOrder, .conflictingSourceVersion,
    .duplicateSettlementMovement, .excessRefund, .feeMismatch, .missingFee, .missingPayment,
    .missingSettlementLine, .multipleCapture, .orphanPayment, .orphanRefund,
    .paymentAmountMismatch, .payoutTotalMismatch, .refundCurrencyMismatch,
    .settlementLineAmountMismatch, .sourceReportInvalid, .sourceReportMissing, .unexpectedFee]

theorem ExceptionCode.mem_all (code : ExceptionCode) : code ∈ ExceptionCode.all := by
  cases code <;> decide

theorem ExceptionCode.value_injective : Function.Injective ExceptionCode.value := by
  have hn : (ExceptionCode.all.map ExceptionCode.value).Nodup := by decide +kernel
  exact fun a b => List.inj_on_of_nodup_map hn (mem_all a) (mem_all b)

/-! ## Record classes -/

structure Order where
  sourceVersion : ℤ
  orderId : Text
  createdAtUtc : UtcDateTime
  status : OrderStatus
  currency : Text
  orderTotal : ℤ
  deriving DecidableEq

structure Payment where
  sourceVersion : ℤ
  paymentId : Text
  orderId : Text
  attemptNumber : ℤ
  paymentMethod : PaymentMethod
  status : PaymentStatus
  amount : ℤ
  currency : Text
  effectiveAtUtc : UtcDateTime
  availableOn : Option Date
  deriving DecidableEq

structure Refund where
  sourceVersion : ℤ
  refundId : Text
  paymentId : Text
  status : RefundStatus
  amount : ℤ
  currency : Text
  effectiveAtUtc : UtcDateTime
  availableOn : Option Date
  deriving DecidableEq

structure Fee where
  sourceVersion : ℤ
  feeId : Text
  paymentId : Text
  feeType : FeeType
  amount : ℤ
  currency : Text
  effectiveAtUtc : UtcDateTime
  availableOn : Date
  deriving DecidableEq

structure SettlementLine where
  sourceVersion : ℤ
  settlementLineId : Text
  payoutId : Text
  movementType : MovementType
  movementId : Text
  signedAmount : ℤ
  currency : Text
  deriving DecidableEq

structure Payout where
  sourceVersion : ℤ
  payoutId : Text
  payoutDate : Date
  currency : Text
  reportedNetAmount : ℤ
  deriving DecidableEq

inductive FinancialRecord
  | order (r : Order)
  | payment (r : Payment)
  | refund (r : Refund)
  | fee (r : Fee)
  | settlementLine (r : SettlementLine)
  | payout (r : Payout)
  deriving DecidableEq

/-- `(source_system, entity_type, source_id)`. -/
structure Identity where
  sourceSystem : SourceSystem
  entityType : EntityType
  sourceId : Text

namespace Identity

instance : DecidableEq Identity := fun a b =>
  decidable_of_iff (a.sourceSystem = b.sourceSystem ∧ a.entityType = b.entityType ∧
    a.sourceId = b.sourceId) (by cases a; cases b; simp)

/-- Identities are compared as tuples of their texts. -/
def key (i : Identity) : Text ×ₗ Text ×ₗ Text :=
  toLex (i.sourceSystem.value, toLex (i.entityType.value, i.sourceId))

theorem key_injective : Function.Injective key := by
  intro a b h
  obtain ⟨s, e, i⟩ := a
  obtain ⟨s', e', i'⟩ := b
  obtain ⟨hs, h⟩ := Prod.mk.inj (toLex.injective h)
  obtain ⟨he, hi⟩ := Prod.mk.inj (toLex.injective h)
  obtain rfl : s = s' := SourceSystem.value_injective hs
  obtain rfl : e = e' := EntityType.value_injective he
  obtain rfl : i = i' := hi
  rfl

instance : LinearOrder Identity := LinearOrder.lift' key key_injective

end Identity

namespace FinancialRecord

def sourceVersion : FinancialRecord → ℤ
  | .order r => r.sourceVersion
  | .payment r => r.sourceVersion
  | .refund r => r.sourceVersion
  | .fee r => r.sourceVersion
  | .settlementLine r => r.sourceVersion
  | .payout r => r.sourceVersion

def entityType : FinancialRecord → EntityType
  | .order _ => .order
  | .payment _ => .payment
  | .refund _ => .refund
  | .fee _ => .fee
  | .settlementLine _ => .settlementLine
  | .payout _ => .payout

def sourceSystem : FinancialRecord → SourceSystem
  | .order _ => .threadlineShop
  | _ => .mockpay

def recordId : FinancialRecord → Text
  | .order r => r.orderId
  | .payment r => r.paymentId
  | .refund r => r.refundId
  | .fee r => r.feeId
  | .settlementLine r => r.settlementLineId
  | .payout r => r.payoutId

def identity (r : FinancialRecord) : Identity := ⟨r.sourceSystem, r.entityType, r.recordId⟩

end FinancialRecord

end Threadline
