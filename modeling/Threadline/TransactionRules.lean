import Threadline.DigestTable
import Threadline.ReconcileLookup

/-!
# Which orders reconcile

An order reconciles when its reports are complete and no rule marks it. Each
rule marks the order exactly when the canonical records break it.
-/

open PyText PyCalendar PySorted

namespace Threadline

namespace CanonicalRecords

variable (records : CanonicalRecords)

def capturesOf (order : Order) : List Payment :=
  records.capturedPayments.filter fun p => p.orderId = order.orderId

def refundsOf (payment : Payment) : List Refund :=
  records.successfulRefunds.filter fun r => r.paymentId = payment.paymentId

def feesOf (payment : Payment) : List Fee :=
  records.fees.filter fun f => f.paymentId = payment.paymentId

/-- The financial rules that the canonical records of an order must pass. -/
structure PassesRules (order : Order) : Prop where
  nonPayable : order.status = .cancelled → records.capturesOf order = []
  collection : order.status = .paid →
    ∃ p, records.capturesOf order = [p] ∧ p.amount = order.orderTotal
  refundCurrency : ∀ p ∈ records.capturesOf order, ∀ r ∈ records.refundsOf p,
    r.currency = p.currency
  refundTotal : ∀ p ∈ records.capturesOf order,
    ((records.refundsOf p).map Refund.amount).sum ≤ p.amount
  fees : ∀ p ∈ records.capturesOf order, records.feesOf p ≠ [] ∧
    calculateFee p.paymentMethod.value p.amount eur =
      .ok ((records.feesOf p).map Fee.amount).sum

end CanonicalRecords

/-! ## Marks of the findings -/

namespace Books

variable {b : Books}

theorem unmarked_paymentFinding {o : Order} (ho : o ∈ b.records.orders) (p : Payment) :
    Unmarked Finding.orderIds (b.paymentFinding p) o.orderId ↔
      (p.orderId = o.orderId → o.status ≠ .cancelled) := by
  unfold paymentFinding
  cases h : b.orderById p.orderId with
  | none =>
    refine iff_of_true (by simp [Unmarked]) fun hp => ?_
    rw [hp, orderById_eq_some.mpr ⟨ho, rfl⟩] at h
    cases h
  | some o' =>
    obtain ⟨ho', hid⟩ := orderById_eq_some.mp h
    by_cases hp : p.orderId = o.orderId
    · obtain rfl : o' = o := List.inj_on_of_nodup_map b.records.orders_nodup ho' ho (hid.trans hp)
      by_cases hc : o'.status = .cancelled <;> simp [hc, hp, Unmarked]
    · have hne : o.orderId ≠ o'.orderId := fun he => hp (hid.symm.trans he.symm)
      by_cases hc : o'.status = .cancelled <;> simp [hc, hp, hne, Unmarked]

theorem unmarked_refundFinding (id : Text) (r : Refund) :
    Unmarked Finding.orderIds (b.refundFinding r) id ↔
      ∀ p ∈ b.capturedPayments, p.paymentId = r.paymentId → p.orderId = id →
        r.currency = p.currency := by
  unfold refundFinding
  cases h : b.capturedPaymentById r.paymentId with
  | none =>
    refine iff_of_true (by simp [Unmarked]) fun p hp hid _ => ?_
    rw [capturedPaymentById_eq_some.mpr ⟨hp, hid⟩] at h
    cases h
  | some p =>
    obtain ⟨hp, hid⟩ := capturedPaymentById_eq_some.mp h
    have honly : ∀ q ∈ b.capturedPayments, q.paymentId = r.paymentId → q = p := fun q hq hqr =>
      List.inj_on_of_nodup_map capturedPayments_nodup hq hp (hqr.trans hid.symm)
    by_cases hc : r.currency = p.currency
    · refine iff_of_true (by simp [hc, Unmarked]) fun q hq hqr _ => ?_
      rw [honly q hq hqr, hc]
    · simp only [ne_eq, hc, not_false_eq_true, if_true, unmarked_singleton, List.mem_singleton]
      constructor
      · intro hne q hq hqr hqo
        rw [honly q hq hqr] at hqo
        exact absurd hqo.symm hne
      · rintro hall rfl
        exact hc (hall p hp hid rfl)

theorem unmarked_excessRefundFinding (id : Text) (p : Payment) :
    Unmarked Finding.orderIds (b.excessRefundFinding p) id ↔
      (p.orderId = id → ((b.refundsByPayment p.paymentId).map Refund.amount).sum ≤ p.amount) := by
  refine (unmarked_rule rfl).trans ?_
  split_ifs with h
  · exact ⟨fun hne he => absurd he hne, fun hle he => absurd (hle he) (not_le.mpr h)⟩
  · exact iff_of_true (unmarked_nil) fun _ => not_lt.mp h

theorem unmarked_capturedFeeFinding (id : Text) (p : Payment) :
    Unmarked Finding.orderIds (b.capturedFeeFinding p) id ↔
      (p.orderId = id → b.feesByPayment p.paymentId ≠ [] ∧
        ((b.feesByPayment p.paymentId).map Fee.amount).sum = b.expectedFee p.paymentId) := by
  refine (unmarked_rule rfl).trans ?_
  rw [unmarked_rule rfl]
  split_ifs with hnil hne
  · exact ⟨fun hid he => absurd he hid, fun hfees he => (hfees he).1 hnil⟩
  · exact ⟨fun hid he => absurd he hid, fun hfees he => hne (hfees he).2⟩
  · exact iff_of_true (unmarked_nil) fun _ => ⟨hnil, not_not.mp hne⟩

theorem unmarked_unexpectedFeeFinding (id : Text) (f : Fee) :
    Unmarked Finding.orderIds (b.unexpectedFeeFinding f) id := by
  unfold unexpectedFeeFinding
  split <;> simp [Unmarked]

theorem unmarked_collectionFindings (o : Order) :
    Unmarked Finding.orderIds (b.collectionFinding o ++ b.multipleCaptureFinding o) o.orderId ↔
      b.capturedByOrder o.orderId ≠ [] ∧ b.capturedTotal o = expectedCollection o ∧
        (b.capturedByOrder o.orderId).length ≤ 1 := by
  have hcollection : Unmarked Finding.orderIds (b.collectionFinding o) o.orderId ↔
      b.capturedByOrder o.orderId ≠ [] ∧ b.capturedTotal o = expectedCollection o := by
    refine (unmarked_rule rfl).trans ?_
    rw [unmarked_rule rfl]
    split_ifs with hnil hne
    · exact iff_of_false (by simp) fun h => h.1 hnil
    · exact iff_of_false (by simp) fun h => hne (by rw [h.2, Int.sub_self])
    · exact iff_of_true (unmarked_nil) ⟨hnil, by omega⟩
  have hmultiple : Unmarked Finding.orderIds (b.multipleCaptureFinding o) o.orderId ↔
      (b.capturedByOrder o.orderId).length ≤ 1 := by
    refine (unmarked_rule rfl).trans ?_
    split_ifs with hlen
    · exact iff_of_false (by simp) (by omega)
    · exact iff_of_true (unmarked_nil) (by omega)
  rw [unmarked_append, hcollection, hmultiple, and_assoc]

theorem capturedByOrder_eq_capturesOf (o : Order) :
    b.capturedByOrder o.orderId = b.records.capturesOf o := capturedByOrder_eq o.orderId

theorem refundsByPayment_eq_refundsOf (p : Payment) :
    b.refundsByPayment p.paymentId = b.records.refundsOf p := refundsByPayment_eq p.paymentId

theorem feesByPayment_eq_feesOf (p : Payment) :
    b.feesByPayment p.paymentId = b.records.feesOf p := feesByPayment_eq p.paymentId

theorem mem_capturesOf {o : Order} {p : Payment} :
    p ∈ b.records.capturesOf o ↔ p ∈ b.capturedPayments ∧ p.orderId = o.orderId := by
  rw [← capturedByOrder_eq_capturesOf, mem_capturedByOrder]

theorem mem_refundsOf {p : Payment} {r : Refund} :
    r ∈ b.records.refundsOf p ↔ r ∈ b.successfulRefunds ∧ r.paymentId = p.paymentId := by
  simp [CanonicalRecords.refundsOf, successfulRefunds]

/-- One capture of the order total, told from the count and the total. -/
theorem collection_iff {o : Order} (hpaid : o.status = .paid) :
    (b.capturedByOrder o.orderId ≠ [] ∧ b.capturedTotal o = expectedCollection o ∧
      (b.capturedByOrder o.orderId).length ≤ 1) ↔
      ∃ p, b.records.capturesOf o = [p] ∧ p.amount = o.orderTotal := by
  rw [capturedTotal, expectedCollection, if_pos hpaid, ← capturedByOrder_eq_capturesOf]
  match b.capturedByOrder o.orderId with
  | [] => simp
  | [p] => simp
  | p :: q :: rest => simp

end Books

/-! ## The rows -/

section Rows

variable {runId : Text} {detectedAt : UtcDateTime} {canonicalization : CanonicalizationResult}
  {completenessResults : List CompletenessResult} {b : Books} {movements : List ExpectedMovement}

/-- With complete reports, an order without codes passes every rule. -/
theorem Opened.unmarked_iff
    (h : Opened runId detectedAt canonicalization completenessResults b movements)
    (results : List CompletenessResult) {o : Order} (ho : o ∈ b.records.orders)
    (hcomplete : ∀ t ∈ transactionRequiredReports, b.states t = .complete) :
    Unmarked Finding.orderIds (b.earlyFindings canonicalization results ++ b.orderFindings o) o.orderId ↔
      b.records.PassesRules o := by
  have hgate : ∀ required, required ⊆ transactionRequiredReports →
      reportsComplete b.states required = true := by
    intro required hsub
    exact reportsComplete_iff.mpr fun t ht => hcomplete t (hsub ht)
  have hsources : Unmarked Finding.orderIds (sourceCompletenessFindings b.run results) o.orderId ∧
      Unmarked Finding.orderIds (canonicalConflictFindings b.run canonicalization) o.orderId := by
    constructor
    · intro f hf
      obtain ⟨result, _, rfl⟩ := List.mem_map.mp hf
      exact List.not_mem_nil
    · intro f hf
      obtain ⟨conflict, _, rfl⟩ := List.mem_map.mp hf
      exact List.not_mem_nil
  have hpayments : Unmarked Finding.orderIds b.paymentFindings o.orderId ↔
      (o.status = .cancelled → b.records.capturesOf o = []) := by
    rw [Books.paymentFindings, if_pos (hgate _ (by decide)), unmarked_flatMap]
    simp only [Books.unmarked_paymentFinding ho, List.eq_nil_iff_forall_not_mem,
      Books.mem_capturesOf, not_and]
    constructor
    · intro hall hc p hp hpo
      exact hall p hp hpo hc
    · intro hall p hp hpo hc
      exact hall hc p hp hpo
  have hrefunds : Unmarked Finding.orderIds b.refundFindings o.orderId ↔
      (∀ p ∈ b.records.capturesOf o, ∀ r ∈ b.records.refundsOf p, r.currency = p.currency) ∧
        ∀ p ∈ b.records.capturesOf o,
          ((b.records.refundsOf p).map Refund.amount).sum ≤ p.amount := by
    rw [Books.refundFindings, if_pos (hgate _ (by decide)), unmarked_append, unmarked_flatMap,
      unmarked_flatMap]
    simp only [Books.unmarked_refundFinding, Books.unmarked_excessRefundFinding,
      Books.refundsByPayment_eq_refundsOf, Books.mem_capturesOf, Books.mem_refundsOf]
    refine and_congr ⟨?_, ?_⟩ ⟨?_, ?_⟩
    · rintro hall p ⟨hp, hpo⟩ r ⟨hr, hrp⟩
      exact hall r hr p hp hrp.symm hpo
    · intro hall r hr p hp hrp hpo
      exact hall p ⟨hp, hpo⟩ r ⟨hr, hrp.symm⟩
    · rintro hall p ⟨hp, hpo⟩
      exact hall p hp hpo
    · intro hall p hp hpo
      exact hall p ⟨hp, hpo⟩
  have hfees : Unmarked Finding.orderIds b.feeFindings o.orderId ↔
      ∀ p ∈ b.records.capturesOf o, b.records.feesOf p ≠ [] ∧
        calculateFee p.paymentMethod.value p.amount eur =
          .ok ((b.records.feesOf p).map Fee.amount).sum := by
    rw [Books.feeFindings, if_pos (hgate _ (by decide)), unmarked_append, unmarked_flatMap,
      unmarked_flatMap]
    have hunexpected : ∀ f ∈ b.records.fees, Unmarked Finding.orderIds (b.unexpectedFeeFinding f) o.orderId :=
      fun f _ => Books.unmarked_unexpectedFeeFinding _ f
    simp only [Books.unmarked_capturedFeeFinding, Books.feesByPayment_eq_feesOf,
      Books.mem_capturesOf, and_imp]
    rw [and_iff_left hunexpected]
    refine forall₂_congr fun p hp => imp_congr_right fun _ => and_congr_right fun _ => ?_
    rw [← h.currency_eq hp, h.expectedFee_eq hp, Except.ok.injEq]
    exact eq_comm
  have horder : Unmarked Finding.orderIds (b.orderFindings o) o.orderId ↔
      (o.status = .paid → ∃ p, b.records.capturesOf o = [p] ∧ p.amount = o.orderTotal) := by
    unfold Books.orderFindings
    by_cases hpaid : o.status = .paid
    · rw [if_pos ⟨hpaid, hgate _ (by decide)⟩, Books.unmarked_collectionFindings,
        Books.collection_iff hpaid]
      simp [hpaid]
    · simp [hpaid, Unmarked]
  rw [Books.earlyFindings, unmarked_append, unmarked_append, unmarked_append, unmarked_append,
    unmarked_append, hpayments, hrefunds, hfees, horder]
  constructor
  · rintro ⟨⟨⟨⟨_, hp⟩, hrc, hrt⟩, hf⟩, ho⟩
    exact ⟨hp, ho, hrc, hrt, hf⟩
  · rintro ⟨hp, ho, hrc, hrt, hf⟩
    exact ⟨⟨⟨⟨hsources, hp⟩, hrc, hrt⟩, hf⟩, ho⟩

/-- The state of an order's row, told from the evidence. -/
theorem Opened.row_reconciled_iff
    (h : Opened runId detectedAt canonicalization completenessResults b movements)
    (results : List CompletenessResult) {o : Order} (ho : o ∈ b.records.orders) :
    (b.transactionRow (codesOf Finding.orderIds
      (b.earlyFindings canonicalization results ++ b.orderFindings o) o.orderId) o).state =
        .reconciled ↔
      (∀ t ∈ transactionRequiredReports, ReportComplete completenessResults t) ∧
        b.records.PassesRules o := by
  have hrequired : (∀ t ∈ transactionRequiredReports, b.states t = .complete) ↔
      ∀ t ∈ transactionRequiredReports, ReportComplete completenessResults t :=
    forall₂_congr fun t _ => h.complete_iff t
  unfold Books.transactionRow
  simp only [resultState_eq_reconciled, decide_eq_false_iff_not, ne_eq, not_not, codesOf_eq_nil]
  rw [← hrequired]
  exact and_congr_right fun hcomplete => h.unmarked_iff results ho hcomplete

theorem transactions_orderIds_nodup (quarantineRecords : List QuarantinedRecord) :
    ((b.result canonicalization completenessResults quarantineRecords
      movements).transactions.map TransactionReconciliation.orderId).Nodup := by
  apply sortedBy_ids_nodup
  rw [Books.transactionRows, List.map_map]
  exact b.records.orders_nodup

/-- A run has one row for each canonical order. -/
theorem transactions_filter {o : Order} (ho : o ∈ b.records.orders)
    (quarantineRecords : List QuarantinedRecord) :
    ((b.result canonicalization completenessResults quarantineRecords movements).transactions.filter
      fun row => row.orderId = o.orderId) = [b.transactionRow (codesOf Finding.orderIds
        (b.earlyFindings canonicalization completenessResults ++ b.orderFindings o) o.orderId) o] :=
  PyDict.filter_key_eq_singleton (transactions_orderIds_nodup quarantineRecords)
    ((mem_sortedBy _).mpr (List.mem_map_of_mem ho))

variable {quarantineRecords : List QuarantinedRecord} {result : ReconciliationResult}

/-- The row of a canonical order reconciles exactly when its reports are complete and its
canonical records pass the rules. -/
theorem order_row_reconciled_iff
    (h : reconcile runId detectedAt canonicalization completenessResults quarantineRecords =
      .ok result) {o : Order} (ho : .order o ∈ canonicalization.canonicalRecords) :
    ∃ row, (result.transactions.filter fun row => row.orderId = o.orderId) = [row] ∧
      row.capturedPaymentCount = ((splitCanonicalRecords canonicalization).capturesOf o).length ∧
      row.collectionVariance = (((splitCanonicalRecords canonicalization).capturesOf o).map
        Payment.amount).sum - Books.expectedCollection o ∧
      (row.state = .reconciled ↔
        (∀ t ∈ transactionRequiredReports, ReportComplete completenessResults t) ∧
          (splitCanonicalRecords canonicalization).PassesRules o) := by
  obtain ⟨b, movements, hopened, rfl⟩ := reconcile_ok h
  have ho : o ∈ b.records.orders := by
    rw [hopened.records_eq]
    exact mem_orders_iff.mpr ho
  refine ⟨_, transactions_filter ho quarantineRecords, ?_, ?_, ?_⟩
  · rw [← hopened.records_eq, ← Books.capturedByOrder_eq_capturesOf]
    rfl
  · rw [← hopened.records_eq, ← Books.capturedByOrder_eq_capturesOf]
    rfl
  · rw [← hopened.records_eq]
    exact hopened.row_reconciled_iff _ ho

end Rows

/-- An order that expects no money: a cancelled one reconciles only without captures; captures of a
pending one must pass the fee and refund rules and stay visible in its count and variance. -/
theorem unpaid_order_reconciled_iff {runId : Text} {detectedAt : UtcDateTime}
    {canonicalization : CanonicalizationResult} {completenessResults : List CompletenessResult}
    {quarantineRecords : List QuarantinedRecord} {result : ReconciliationResult}
    (h : reconcile runId detectedAt canonicalization completenessResults quarantineRecords =
      .ok result)
    {o : Order} (ho : .order o ∈ canonicalization.canonicalRecords) (hunpaid : o.status ≠ .paid) :
    ∃ row, (result.transactions.filter fun row => row.orderId = o.orderId) = [row] ∧
      row.capturedPaymentCount = ((splitCanonicalRecords canonicalization).capturesOf o).length ∧
      row.collectionVariance =
        (((splitCanonicalRecords canonicalization).capturesOf o).map Payment.amount).sum ∧
      (o.status = .cancelled → (row.state = .reconciled ↔
        (∀ t ∈ transactionRequiredReports, ReportComplete completenessResults t) ∧
          (splitCanonicalRecords canonicalization).capturesOf o = [])) ∧
      (o.status = .cancelled → row.state = .reconciled →
        row.capturedPaymentCount = 0 ∧ row.collectionVariance = 0) ∧
      (o.status = .paymentPending → (row.state = .reconciled ↔
        (∀ t ∈ transactionRequiredReports, ReportComplete completenessResults t) ∧
          ∀ p ∈ (splitCanonicalRecords canonicalization).capturesOf o,
            (∀ r ∈ (splitCanonicalRecords canonicalization).refundsOf p, r.currency = p.currency) ∧
            (((splitCanonicalRecords canonicalization).refundsOf p).map Refund.amount).sum ≤
              p.amount ∧
            (splitCanonicalRecords canonicalization).feesOf p ≠ [] ∧
            calculateFee p.paymentMethod.value p.amount eur =
              .ok (((splitCanonicalRecords canonicalization).feesOf p).map Fee.amount).sum)) := by
  obtain ⟨row, hrow, hcount, hvariance, hiff⟩ := order_row_reconciled_iff h ho
  have hcollection : Books.expectedCollection o = 0 := if_neg hunpaid
  rw [hcollection, Int.sub_zero] at hvariance
  refine ⟨row, hrow, hcount, hvariance, ?_, ?_, ?_⟩
  · intro hc
    refine hiff.trans (and_congr_right fun _ => ⟨fun hpass => hpass.nonPayable hc, fun hnil => ?_⟩)
    constructor
    · intro _
      exact hnil
    · intro hpaid
      exact absurd hpaid hunpaid
    all_goals
      intro p hp
      rw [hnil] at hp
      cases hp
  · intro hc hr
    have hnil := (hiff.mp hr).2.nonPayable hc
    rw [hcount, hvariance, hnil]
    exact ⟨rfl, rfl⟩
  · intro hp
    refine hiff.trans (and_congr_right fun _ => ⟨fun hpass q hq => ?_, fun hall => ?_⟩)
    · exact ⟨hpass.refundCurrency q hq, hpass.refundTotal q hq, hpass.fees q hq⟩
    · constructor
      · intro hc
        rw [hp] at hc
        cases hc
      · intro hpaid
        exact absurd hpaid hunpaid
      · intro q hq
        exact (hall q hq).1
      · intro q hq
        exact (hall q hq).2.1
      · intro q hq
        exact (hall q hq).2.2

/-! ## A day with one paid order -/

namespace PaidDay

def september (day : ℕ) (h : (Date.ofYmd? 2026 9 day).isSome) : Date :=
  (Date.ofYmd? 2026 9 day).get h

theorem valid14 : (Date.ofYmd? 2026 9 14).isSome := rfl

theorem valid15 : (Date.ofYmd? 2026 9 15).isSome := rfl

theorem valid16 : (Date.ofYmd? 2026 9 16).isSome := rfl

theorem valid17 : (Date.ofYmd? 2026 9 17).isSome := rfl

theorem valid18 : (Date.ofYmd? 2026 9 18).isSome := rfl

/-- Ten o'clock UTC. -/
def atTen (day : Date) : UtcDateTime := ⟨day, 36000000000⟩

def order : Order where
  sourceVersion := 1
  orderId := txt "ORD-1"
  createdAtUtc := atTen (september 14 rfl)
  status := .paid
  currency := eur
  orderTotal := 10000

def payment : Payment where
  sourceVersion := 1
  paymentId := txt "PAY-1"
  orderId := txt "ORD-1"
  attemptNumber := 1
  paymentMethod := .card
  status := .captured
  amount := 10000
  currency := eur
  effectiveAtUtc := atTen (september 14 rfl)
  availableOn := some (september 16 rfl)

def fee : Fee where
  sourceVersion := 1
  feeId := txt "FEE-1"
  paymentId := txt "PAY-1"
  feeType := .processing
  amount := 200
  currency := eur
  effectiveAtUtc := atTen (september 14 rfl)
  availableOn := september 16 rfl

def orderRow : DigestRow where
  receiptId := txt "orders.json:1"
  record := .order order
  digest := txt "6b1aab78686a064594f2bbcfde3abaf6072d64d8d94742f2bd6907e8967b2256"

def paymentRow : DigestRow where
  receiptId := txt "payments.json:1"
  record := .payment payment
  digest := txt "10d2d1ff39762f807cd7505b955010c2bd47f1e678510621d9c034312d06b483"

def feeRow : DigestRow where
  receiptId := txt "fees.json:1"
  record := .fee fee
  digest := txt "b2bfa93ae5c1dba427c167ef4b7e288450eb0adb12049d0bb5cc61a8abf8ddf5"

def receipts : DigestTable where
  rows := [orderRow, paymentRow, feeRow]
  digest_iff := by decide +kernel
  receiptIds := by decide +kernel
  encodable := by decide +kernel

/-- A complete report of September 16. -/
def completeReport (reportType : ReportType) : CompletenessResult where
  status := {
    sourceSystem := reportSource reportType
    reportType := reportType
    businessDate := september 16 rfl
    state := .complete
    batchId := none
    reason := none
  }
  deadlineAtUtc := atTen (september 17 rfl)
  issues := []

def completeReports : List CompletenessResult := ReportType.all.map completeReport

/-- Receipts that canonicalize, and whose canonical records reconcile. -/
structure ReplayedDay where
  receipts : DigestTable
  completenessResults : List CompletenessResult
  canonicalizes : (canonicalize receipts.envelopes).toOption.isSome
  reconciles : (reconcile (txt "run-1") (atTen (september 18 rfl))
    ((canonicalize receipts.envelopes).toOption.get canonicalizes) completenessResults
    []).toOption.isSome

namespace ReplayedDay

variable (d : ReplayedDay)

def canonicalization : CanonicalizationResult :=
  (canonicalize d.receipts.envelopes).toOption.get d.canonicalizes

def result : ReconciliationResult :=
  (reconcile (txt "run-1") (atTen (september 18 rfl)) d.canonicalization d.completenessResults
    []).toOption.get d.reconciles

theorem canonicalize_eq : canonicalize d.receipts.envelopes = .ok d.canonicalization :=
  PyExcept.eq_ok_of_isSome d.canonicalizes

theorem reconcile_eq : reconcile (txt "run-1") (atTen (september 18 rfl)) d.canonicalization
    d.completenessResults [] = .ok d.result := PyExcept.eq_ok_of_isSome d.reconciles

end ReplayedDay

def paidDay : ReplayedDay where
  receipts := receipts
  completenessResults := completeReports
  canonicalizes := by decide +kernel
  reconciles := by decide +kernel

theorem paidDay_canonicalRecords : paidDay.canonicalization.canonicalRecords =
    [.fee fee, .payment payment, .order order] := by decide +kernel

def pendingOrder : Order := { order with status := .paymentPending }

def pendingOrderReceipts : DigestTable where
  rows := [⟨txt "orders.json:1", .order pendingOrder,
    txt "9bf0bc344dd68637589468385ad789061584756a90f8cea9be430d1a7e44f502"⟩, paymentRow, feeRow]
  digest_iff := by decide +kernel
  receiptIds := by decide +kernel
  encodable := by decide +kernel

def pendingDay : ReplayedDay where
  receipts := pendingOrderReceipts
  completenessResults := completeReports
  canonicalizes := by decide +kernel
  reconciles := by decide +kernel

/-- A pending order with a captured payment reconciles. -/
theorem pendingDay_reconciled :
    .order pendingOrder ∈ pendingDay.canonicalization.canonicalRecords ∧
    .payment payment ∈ pendingDay.canonicalization.canonicalRecords ∧
    payment.status = .captured ∧ payment.orderId = pendingOrder.orderId ∧
    ∃ row ∈ pendingDay.result.transactions, row.orderId = pendingOrder.orderId ∧
      row.state = .reconciled ∧ row.capturedPaymentCount = 1 ∧ row.collectionVariance = 10000 := by
  decide +kernel

/-- Its row counts the capture. -/
theorem unpaid_order_reconciled_iff_pendingDay :
    ∃ row, (pendingDay.result.transactions.filter
      fun row => row.orderId = pendingOrder.orderId) = [row] ∧ row.capturedPaymentCount = 1 := by
  have ho : .order pendingOrder ∈ pendingDay.canonicalization.canonicalRecords := by decide +kernel
  obtain ⟨row, hrow, hcount, -⟩ :=
    unpaid_order_reconciled_iff pendingDay.reconcile_eq ho (by decide)
  exact ⟨row, hrow, hcount.trans (by decide +kernel)⟩

end PaidDay

end Threadline
