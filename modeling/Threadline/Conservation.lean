import Threadline.KeyedLists
import Threadline.PayoutCoverage

/-!
# Conservation between orders and payouts

The order view sums captures, refunds and fees by order, and the payout view
lists them as movements. Both hold the same money, each piece of it once.
-/

open PyText PyCalendar PySorted KeyedLists

namespace Threadline

namespace ExpectedMovement

/-- The first source of a movement. -/
def ComesFrom (m : ExpectedMovement) (r : FinancialRecord) : Prop :=
  m.supportingSourceRecordIds.head? = some (sourceReference r)

def OfPayment (m : ExpectedMovement) (p : Payment) : Prop :=
  m.movementType ≠ .refund ∧ m.ComesFrom (.payment p)

def OfRefund (m : ExpectedMovement) (r : Refund) : Prop :=
  m.movementType = .refund ∧ m.ComesFrom (.refund r)

instance (m : ExpectedMovement) (p : Payment) : Decidable (m.OfPayment p) :=
  inferInstanceAs (Decidable (_ ∧ _ = _))

instance (m : ExpectedMovement) (r : Refund) : Decidable (m.OfRefund r) :=
  inferInstanceAs (Decidable (_ ∧ _ = _))

end ExpectedMovement

/-- The movements of the captured payments of an order and of their succeeded refunds. -/
def CanonicalRecords.Counts (records : CanonicalRecords) (orderId : Text) (m : ExpectedMovement) :
    Prop :=
  ∃ p ∈ records.capturedPayments, p.orderId = orderId ∧ (m.OfPayment p ∨
    ∃ r ∈ records.successfulRefunds, r.paymentId = p.paymentId ∧ m.OfRefund r)

instance (records : CanonicalRecords) (orderId : Text) (m : ExpectedMovement) :
    Decidable (records.Counts orderId m) :=
  inferInstanceAs (Decidable (∃ p ∈ _, _))

namespace Books

variable {b : Books}

/-! ## The movements of a record -/

def paymentMovements (b : Books) (p : Payment) : List ExpectedMovement :=
  p.availableOn.toList.flatMap (b.captureMovements p)

def refundMovements (r : Refund) : List ExpectedMovement :=
  r.availableOn.toList.map (refundMovement r)

theorem succeeded_mapM_eq_ok {succeeded : List Refund} {refunds : List ExpectedMovement}
    (h : succeeded.mapM refundedMovement = .ok refunds) :
    (∀ r ∈ succeeded, ∃ d, r.availableOn = some d) ∧
      refunds = succeeded.flatMap refundMovements := by
  rw [PyExcept.mapM_eq_ok] at h
  induction h with
  | nil => exact ⟨nofun, rfl⟩
  | cons hr _ ih =>
    obtain ⟨d, hd, rfl⟩ := refundedMovement_eq_ok.mp hr
    refine ⟨List.forall_mem_cons.mpr ⟨⟨d, hd⟩, ih.1⟩, ?_⟩
    rw [List.flatMap_cons, ← ih.2, refundMovements, hd]
    rfl

/-- Every captured payment and every succeeded refund has its movements, and there are no others. -/
theorem expectedMovements_perm {movements : List ExpectedMovement}
    (h : b.expectedMovements = .ok movements) :
    (∀ p ∈ b.capturedPayments, ∃ d, p.availableOn = some d) ∧
      (∀ r ∈ b.successfulRefunds, ∃ d, r.availableOn = some d) ∧
      movements.Perm (b.capturedPayments.flatMap b.paymentMovements ++
        b.successfulRefunds.flatMap refundMovements) := by
  have hcapture : ∀ (p : Payment) (ms : List ExpectedMovement), b.capturedMovements p = .ok ms ↔
      (∃ d, p.availableOn = some d) ∧ ms = b.paymentMovements p := by
    intro p ms
    rw [capturedMovements_eq_ok, paymentMovements]
    cases p.availableOn <;> simp [eq_comm]
  obtain ⟨captures, hcaptures, h⟩ := PyExcept.bind_eq_ok.mp h
  obtain ⟨refunds, hrefunds, h⟩ := PyExcept.bind_eq_ok.mp h
  obtain ⟨hcaptured, hcaptures⟩ := (PyExcept.mapM_eq_ok_iff_map hcapture).mp hcaptures
  obtain ⟨hsucceeded, hrefunds⟩ := succeeded_mapM_eq_ok hrefunds
  refine ⟨hcaptured, hsucceeded, ?_⟩
  rw [← Except.ok.inj h, hcaptures, hrefunds, List.flatMap]
  exact sortedBy_perm _ _

theorem mem_paymentMovements {p : Payment} {m : ExpectedMovement} :
    m ∈ b.paymentMovements p ↔ ∃ d, p.availableOn = some d ∧ m ∈ b.captureMovements p d := by
  simp [paymentMovements]

theorem ofPayment_paymentMovements {p q : Payment} {m : ExpectedMovement}
    (hm : m ∈ b.paymentMovements p) : m.OfPayment q ↔ q.paymentId = p.paymentId := by
  obtain ⟨d, -, hm⟩ := mem_paymentMovements.mp hm
  have href : sourceReference (.payment p) = sourceReference (.payment q) ↔
      q.paymentId = p.paymentId := by
    rw [sourceReference_eq_iff, eq_comm (a := q.paymentId)]
    exact and_iff_right rfl
  simp only [captureMovements, List.mem_cons, List.not_mem_nil, or_false] at hm
  rcases hm with rfl | rfl
  · simp [ExpectedMovement.OfPayment, ExpectedMovement.ComesFrom, href]
  · simp [ExpectedMovement.OfPayment, ExpectedMovement.ComesFrom, href]

theorem not_ofRefund_paymentMovements {p : Payment} {r : Refund} {m : ExpectedMovement}
    (hm : m ∈ b.paymentMovements p) : ¬ m.OfRefund r := by
  obtain ⟨d, -, hm⟩ := mem_paymentMovements.mp hm
  simp only [captureMovements, List.mem_cons, List.not_mem_nil, or_false] at hm
  rcases hm with rfl | rfl
  · intro h
    have htype : MovementType.capture = .refund := h.1
    cases htype
  · intro h
    have htype : MovementType.fee = .refund := h.1
    cases htype

theorem ofRefund_refundMovements {r r' : Refund} {m : ExpectedMovement}
    (hm : m ∈ refundMovements r) : m.OfRefund r' ↔ r'.refundId = r.refundId := by
  obtain ⟨d, -, rfl⟩ := List.mem_map.mp hm
  have href : sourceReference (.refund r) = sourceReference (.refund r') ↔
      r'.refundId = r.refundId := by
    rw [sourceReference_eq_iff, eq_comm (a := r'.refundId)]
    exact and_iff_right rfl
  simp [ExpectedMovement.OfRefund, ExpectedMovement.ComesFrom, refundMovement, href]

theorem not_ofPayment_refundMovements {r : Refund} {p : Payment} {m : ExpectedMovement}
    (hm : m ∈ refundMovements r) : ¬ m.OfPayment p := by
  obtain ⟨d, -, rfl⟩ := List.mem_map.mp hm
  exact fun h => h.1 rfl

theorem succeeded_eq_of_id {r r' : Refund} (hr : r ∈ b.successfulRefunds)
    (hr' : r' ∈ b.successfulRefunds) (hid : r.refundId = r'.refundId) : r = r' :=
  List.inj_on_of_nodup_map b.successfulRefunds_nodup hr hr' hid

/-! ## What an order counts -/

variable {orderId : Text}

theorem counts_paymentMovements {p : Payment} (hp : p ∈ b.capturedPayments) {m : ExpectedMovement}
    (hm : m ∈ b.paymentMovements p) : b.records.Counts orderId m ↔ p.orderId = orderId := by
  constructor
  · intro hcounts
    obtain ⟨q, hq, horder, hof | ⟨r, -, -, hof⟩⟩ := hcounts
    · rw [captured_eq_of_id hp hq ((ofPayment_paymentMovements hm).mp hof).symm, horder]
    · exact absurd hof (not_ofRefund_paymentMovements hm)
  · intro horder
    exact ⟨p, hp, horder, .inl ((ofPayment_paymentMovements hm).mpr rfl)⟩

theorem counts_refundMovements {r : Refund} (hr : r ∈ b.successfulRefunds) {m : ExpectedMovement}
    (hm : m ∈ refundMovements r) : b.records.Counts orderId m ↔
      ∃ p ∈ b.capturedPayments, p.orderId = orderId ∧ r.paymentId = p.paymentId := by
  constructor
  · intro hcounts
    obtain ⟨p, hp, horder, hof | ⟨r', hr', hid, hof⟩⟩ := hcounts
    · exact absurd hof (not_ofPayment_refundMovements hm)
    · rw [succeeded_eq_of_id hr hr' ((ofRefund_refundMovements hm).mp hof).symm]
      exact ⟨p, hp, horder, hid⟩
  · intro hpaid
    obtain ⟨p, hp, horder, hid⟩ := hpaid
    exact ⟨p, hp, horder, .inr ⟨r, hr, hid, (ofRefund_refundMovements hm).mpr rfl⟩⟩

/-- The amount of the counted movements of one record. -/
theorem sum_counts_paymentMovements {p : Payment} (hp : p ∈ b.capturedPayments)
    (hday : ∃ d, p.availableOn = some d) :
    (((b.paymentMovements p).filter fun m => b.records.Counts orderId m).map
      ExpectedMovement.signedAmount).sum =
      if p.orderId = orderId then p.amount - b.expectedFee p.paymentId else 0 := by
  obtain ⟨d, hd⟩ := hday
  have hsum : ((b.paymentMovements p).map ExpectedMovement.signedAmount).sum =
      p.amount - b.expectedFee p.paymentId := by
    simp only [paymentMovements, hd, captureMovements, Option.toList_some, List.flatMap_cons, List.flatMap_nil,
      List.append_nil, List.map_cons, List.map_nil, List.sum_cons, List.sum_nil]
    omega
  split_ifs with horder
  · rw [List.filter_eq_self.mpr fun m hm =>
      decide_eq_true ((counts_paymentMovements hp hm).mpr horder), hsum]
  · rw [List.filter_eq_nil_iff.mpr fun m hm hcounts =>
      horder ((counts_paymentMovements hp hm).mp (of_decide_eq_true hcounts))]
    rfl

theorem sum_counts_refundMovements {r : Refund} (hr : r ∈ b.successfulRefunds)
    (hday : ∃ d, r.availableOn = some d) :
    (((refundMovements r).filter fun m => b.records.Counts orderId m).map
      ExpectedMovement.signedAmount).sum =
      if ∃ p ∈ b.capturedPayments, p.orderId = orderId ∧ r.paymentId = p.paymentId then -r.amount
      else 0 := by
  obtain ⟨d, hd⟩ := hday
  have hsum : ((refundMovements r).map ExpectedMovement.signedAmount).sum = -r.amount := by
    simp [refundMovements, hd, refundMovement]
  split_ifs with hpaid
  · rw [List.filter_eq_self.mpr fun m hm =>
      decide_eq_true ((counts_refundMovements hr hm).mpr hpaid), hsum]
  · rw [List.filter_eq_nil_iff.mpr fun m hm hcounts =>
      hpaid ((counts_refundMovements hr hm).mp (of_decide_eq_true hcounts))]
    rfl

theorem mem_orderPaymentIds {o : Order} {id : Text} : id ∈ b.orderPaymentIds o ↔
    ∃ p ∈ b.capturedPayments, p.orderId = o.orderId ∧ id = p.paymentId := by
  simp only [orderPaymentIds, List.mem_dedup, List.mem_map, mem_capturedByOrder, and_assoc,
    eq_comm]

theorem orderPaymentIds_eq (o : Order) :
    b.orderPaymentIds o = (b.capturedByOrder o.orderId).map Payment.paymentId := by
  rw [orderPaymentIds, List.dedup_eq_self, capturedByOrder_eq]
  exact b.capturedPayments_nodup.sublist (List.filter_sublist.map _)

theorem sum_map_sub {α : Type*} (xs : List α) (f g : α → ℤ) :
    (xs.map fun x => f x - g x).sum = (xs.map f).sum - (xs.map g).sum := by
  induction xs with
  | nil => rfl
  | cons x xs ih =>
    simp only [List.map_cons, List.sum_cons, ih]
    omega

/-- The lifetime net collection of an order is the amount of the movements it counts. -/
theorem lifetimeNetCollection_eq {movements : List ExpectedMovement}
    (h : b.expectedMovements = .ok movements) (codes : List ExceptionCode) (o : Order) :
    (b.transactionRow codes o).lifetimeNetCollection =
      ((movements.filter fun m => b.records.Counts o.orderId m).map
        ExpectedMovement.signedAmount).sum := by
  obtain ⟨hcaptured, hsucceeded, hperm⟩ := expectedMovements_perm h
  have hpayments : (b.capturedPayments.map fun p =>
      (((b.paymentMovements p).filter fun m => b.records.Counts o.orderId m).map
        ExpectedMovement.signedAmount).sum).sum =
      b.capturedTotal o - ((b.orderPaymentIds o).map b.expectedFee).sum := by
    rw [List.map_congr_left fun p hp => sum_counts_paymentMovements hp (hcaptured p hp),
      List.sum_map_ite, orderPaymentIds_eq, capturedTotal, capturedByOrder_eq]
    simp [sum_map_sub, Function.comp_def]
  have hrefunds : (b.successfulRefunds.map fun r =>
      (((refundMovements r).filter fun m => b.records.Counts o.orderId m).map
        ExpectedMovement.signedAmount).sum).sum = - ((b.orderRefunds o).map Refund.amount).sum := by
    rw [List.map_congr_left fun r hr => sum_counts_refundMovements hr (hsucceeded r hr),
      List.sum_map_ite, orderRefunds]
    simp only [mem_orderPaymentIds]
    simp [List.sum_neg, Function.comp_def]
  rw [((hperm.filter _).map _).sum_eq, List.filter_append, List.map_append, List.sum_append,
    sum_filter_flatMap, sum_filter_flatMap, hpayments, hrefunds]
  show b.capturedTotal o - _ - _ = _
  omega

/-! ## One movement of each kind -/

theorem paymentMovements_filter {p : Payment} {d : Date} (hd : p.availableOn = some d)
    (kind : MovementType) :
    ((b.paymentMovements p).filter fun m => m.movementType = kind ∧ m.OfPayment p) =
      (b.captureMovements p d).filter fun m => m.movementType = kind := by
  have hmovements : b.paymentMovements p = b.captureMovements p d := by
    simp [paymentMovements, hd]
  rw [hmovements]
  apply List.filter_congr
  intro m hm
  have hof : m.OfPayment p := (ofPayment_paymentMovements (hmovements ▸ hm)).mpr rfl
  simp [hof]

/-- The movements of one kind that come from one payment. -/
theorem filter_movements_payment {movements : List ExpectedMovement}
    (h : b.expectedMovements = .ok movements) {p : Payment} (hp : p ∈ b.capturedPayments)
    {kind : MovementType} {m : ExpectedMovement}
    (hm : ((b.paymentMovements p).filter fun m => m.movementType = kind ∧ m.OfPayment p) = [m]) :
    (movements.filter fun m => m.movementType = kind ∧ m.OfPayment p) = [m] := by
  obtain ⟨-, -, hperm⟩ := expectedMovements_perm h
  have hrefunds : ((b.successfulRefunds.flatMap refundMovements).filter fun m =>
      m.movementType = kind ∧ m.OfPayment p) = [] := by
    apply List.filter_eq_nil_iff.mpr
    intro m hm hof
    obtain ⟨r, -, hm⟩ := List.mem_flatMap.mp hm
    exact not_ofPayment_refundMovements hm (of_decide_eq_true hof).2
  have hothers : ∀ q ∈ b.capturedPayments, q.paymentId ≠ p.paymentId →
      ((b.paymentMovements q).filter fun m => m.movementType = kind ∧ m.OfPayment p) = [] := by
    intro q _ hid
    apply List.filter_eq_nil_iff.mpr
    intro m hm hof
    exact hid ((ofPayment_paymentMovements hm).mp (of_decide_eq_true hof).2).symm
  apply List.perm_singleton.mp
  have hfilter := hperm.filter fun m => m.movementType = kind ∧ m.OfPayment p
  rwa [List.filter_append, hrefunds, List.append_nil, List.filter_flatMap,
    flatMap_eq_of_others b.capturedPayments_nodup hp hothers, hm] at hfilter

theorem filter_movements_refund {movements : List ExpectedMovement}
    (h : b.expectedMovements = .ok movements) {r : Refund} (hr : r ∈ b.successfulRefunds) {d : Date}
    (hd : r.availableOn = some d) :
    (movements.filter fun m => m.OfRefund r) = [refundMovement r d] := by
  obtain ⟨-, -, hperm⟩ := expectedMovements_perm h
  have hpayments : ((b.capturedPayments.flatMap b.paymentMovements).filter fun m =>
      m.OfRefund r) = [] := by
    apply List.filter_eq_nil_iff.mpr
    intro m hm hof
    obtain ⟨p, -, hm⟩ := List.mem_flatMap.mp hm
    exact not_ofRefund_paymentMovements hm (of_decide_eq_true hof)
  have hothers : ∀ r' ∈ b.successfulRefunds, r'.refundId ≠ r.refundId →
      ((refundMovements r').filter fun m => m.OfRefund r) = [] := by
    intro r' _ hid
    apply List.filter_eq_nil_iff.mpr
    intro m hm hof
    exact hid ((ofRefund_refundMovements hm).mp (of_decide_eq_true hof)).symm
  have hm : refundMovement r d ∈ refundMovements r := by simp [refundMovements, hd]
  have hown : ((refundMovements r).filter fun m => m.OfRefund r) = [refundMovement r d] := by
    have hself := (ofRefund_refundMovements hm).mpr rfl
    simp [refundMovements, hd, hself]
  apply List.perm_singleton.mp
  have hfilter := hperm.filter fun m => m.OfRefund r
  rwa [List.filter_append, hpayments, List.nil_append, List.filter_flatMap,
    flatMap_eq_of_others b.successfulRefunds_nodup hr hothers, hown] at hfilter

end Books

/-- Each captured payment has one CAPTURE and one FEE movement, each succeeded refund one REFUND
movement, and every movement comes from one of them. -/
structure MovedOnce (records : CanonicalRecords) (movements : List ExpectedMovement) : Prop where
  captures : ∀ p ∈ records.capturedPayments, ∃ d, p.availableOn = some d ∧
    (movements.filter fun m => m.movementType = .capture ∧ m.OfPayment p) =
      [⟨.capture, p.paymentId, d, p.amount, [sourceReference (.payment p)]⟩]
  fees : ∀ p ∈ records.capturedPayments, ∃ d fee, p.availableOn = some d ∧
    calculateFee p.paymentMethod.value p.amount p.currency = .ok fee ∧
    (movements.filter fun m => m.movementType = .fee ∧ m.OfPayment p) =
      [⟨.fee, records.feeIdOf p, d, -fee, sourceReference (.payment p) ::
        (records.feesOf p).map fun fee => sourceReference (.fee fee)⟩]
  refunds : ∀ r ∈ records.successfulRefunds, ∃ d, r.availableOn = some d ∧
    (movements.filter fun m => m.OfRefund r) =
      [⟨.refund, r.refundId, d, -r.amount, [sourceReference (.refund r)]⟩]
  origins : ∀ m ∈ movements, (∃ p ∈ records.capturedPayments, m.OfPayment p) ∨
    ∃ r ∈ records.successfulRefunds, m.OfRefund r

section Run

variable {runId : Text} {detectedAt : UtcDateTime} {canonicalization : CanonicalizationResult}
  {completenessResults : List CompletenessResult} {quarantineRecords : List QuarantinedRecord}
  {b : Books} {movements : List ExpectedMovement} {result : ReconciliationResult}

theorem Opened.movedOnce
    (h : Opened runId detectedAt canonicalization completenessResults b movements) :
    MovedOnce b.records movements := by
  obtain ⟨hcaptured, hsucceeded, hperm⟩ := Books.expectedMovements_perm h.movements_eq
  refine ⟨fun p hp => ?_, fun p hp => ?_, fun r hr => ?_, fun m hm => ?_⟩
  · obtain ⟨d, hd⟩ := hcaptured p hp
    refine ⟨d, hd, ?_⟩
    apply Books.filter_movements_payment h.movements_eq hp
    rw [Books.paymentMovements_filter hd]
    simp [Books.captureMovements]
  · obtain ⟨d, hd⟩ := hcaptured p hp
    refine ⟨d, b.expectedFee p.paymentId, hd, h.expectedFee_eq hp, ?_⟩
    apply Books.filter_movements_payment h.movements_eq hp
    rw [Books.paymentMovements_filter hd]
    simp [Books.captureMovements, b.feeMovementId_eq, b.feesByPayment_eq_feesOf]
  · obtain ⟨d, hd⟩ := hsucceeded r hr
    exact ⟨d, hd, Books.filter_movements_refund h.movements_eq hr hd⟩
  · rcases List.mem_append.mp (hperm.mem_iff.mp hm) with hm | hm
    · obtain ⟨p, hp, hm⟩ := List.mem_flatMap.mp hm
      exact .inl ⟨p, hp, (Books.ofPayment_paymentMovements hm).mpr rfl⟩
    · obtain ⟨r, hr, hm⟩ := List.mem_flatMap.mp hm
      exact .inr ⟨r, hr, (Books.ofRefund_refundMovements hm).mpr rfl⟩

/-- A movement is counted for one order. -/
theorem counts_unique
    (h : Opened runId detectedAt canonicalization completenessResults b movements)
    {m : ExpectedMovement} (hm : m ∈ movements) {id id' : Text} (hid : b.records.Counts id m)
    (hid' : b.records.Counts id' m) : id = id' := by
  obtain ⟨-, -, hperm⟩ := Books.expectedMovements_perm h.movements_eq
  rcases List.mem_append.mp (hperm.mem_iff.mp hm) with hm | hm
  · obtain ⟨p, hp, hm⟩ := List.mem_flatMap.mp hm
    rw [← (Books.counts_paymentMovements hp hm).mp hid]
    exact (Books.counts_paymentMovements hp hm).mp hid'
  · obtain ⟨r, hr, hm⟩ := List.mem_flatMap.mp hm
    obtain ⟨p, hp, rfl, hpaid⟩ := (Books.counts_refundMovements hr hm).mp hid
    obtain ⟨p', hp', rfl, hpaid'⟩ := (Books.counts_refundMovements hr hm).mp hid'
    rw [Books.captured_eq_of_id hp hp' (hpaid.symm.trans hpaid')]

/-- The order view and the payout view hold the same money: the lifetime net collections of all
orders are the movements of their captured payments and of the succeeded refunds of these, of which
there is one of each kind for each record, counted in one row at most. -/
theorem lifetime_collection_conserved (h : reconcile runId detectedAt canonicalization
    completenessResults quarantineRecords = .ok result) :
    MovedOnce (splitCanonicalRecords canonicalization) result.expectedMovements ∧
    (∀ row ∈ result.transactions, row.lifetimeNetCollection =
      ((result.expectedMovements.filter fun m =>
        (splitCanonicalRecords canonicalization).Counts row.orderId m).map
          ExpectedMovement.signedAmount).sum) ∧
    (result.transactions.map TransactionReconciliation.lifetimeNetCollection).sum =
      ((result.expectedMovements.filter fun m =>
        ∃ o ∈ (splitCanonicalRecords canonicalization).orders,
          (splitCanonicalRecords canonicalization).Counts o.orderId m).map
            ExpectedMovement.signedAmount).sum ∧
    ∀ m ∈ result.expectedMovements, ∀ row ∈ result.transactions, ∀ row' ∈ result.transactions,
      (splitCanonicalRecords canonicalization).Counts row.orderId m →
      (splitCanonicalRecords canonicalization).Counts row'.orderId m → row = row' := by
  obtain ⟨b, movements, hopened, rfl⟩ := reconcile_ok h
  rw [← hopened.records_eq]
  have hrows : ∀ row, row ∈ (b.result canonicalization
      (sortedBy CompletenessResult.sortKey completenessResults) quarantineRecords
      movements).transactions → ∃ o ∈ b.records.orders, ∃ codes, row = b.transactionRow codes o := by
    intro row hrow
    obtain ⟨o, ho, rfl⟩ := List.mem_map.mp ((mem_sortedBy _).mp hrow)
    exact ⟨o, ho, _, rfl⟩
  refine ⟨hopened.movedOnce, fun row hrow => ?_, ?_, fun m hm row hrow row' hrow' hid hid' => ?_⟩
  · obtain ⟨o, -, codes, rfl⟩ := hrows row hrow
    exact Books.lifetimeNetCollection_eq hopened.movements_eq codes o
  · -- Row by row, and then all orders together.
    have hunique : ∀ m ∈ movements, ∀ o ∈ b.records.orders, ∀ o' ∈ b.records.orders,
        b.records.Counts o.orderId m → b.records.Counts o'.orderId m → o = o' :=
      fun m hm o ho o' ho' hid hid' =>
        List.inj_on_of_nodup_map b.records.orders_nodup ho ho' (counts_unique hopened hm hid hid')
    show ((sortedBy _ (b.transactionRows _)).map _).sum = _
    rw [((sortedBy_perm _ _).map _).sum_eq, Books.transactionRows, List.map_map]
    refine Eq.trans ?_ (sum_filter_exists b.records.orders_nodup.of_map _ hunique)
    apply congrArg List.sum
    apply List.map_congr_left
    intro o _
    exact Books.lifetimeNetCollection_eq hopened.movements_eq _ o
  · exact List.inj_on_of_nodup_map (transactions_orderIds_nodup quarantineRecords) hrow hrow'
      (counts_unique hopened hm hid hid')

end Run

namespace PaidDay

/-- The order of a paid day nets its capture less its fee. -/
theorem settledDay_collection_conserved :
    MovedOnce (splitCanonicalRecords settledDay.canonicalization)
      settledDay.result.expectedMovements ∧
    (settledDay.result.transactions.map
      TransactionReconciliation.lifetimeNetCollection).sum = 9800 ∧
    ((settledDay.result.expectedMovements.filter fun m =>
      ∃ o ∈ (splitCanonicalRecords settledDay.canonicalization).orders,
        (splitCanonicalRecords settledDay.canonicalization).Counts o.orderId m).map
          ExpectedMovement.signedAmount).sum = 9800 := by
  have hconserved := lifetime_collection_conserved settledDay.reconcile_eq
  have hnet : (settledDay.result.transactions.map
      TransactionReconciliation.lifetimeNetCollection).sum = 9800 := by decide +kernel
  exact ⟨hconserved.1, hnet, hconserved.2.2.1 ▸ hnet⟩

end PaidDay

end Threadline
