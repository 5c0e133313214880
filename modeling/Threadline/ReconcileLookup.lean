import Threadline.PyExcept
import Threadline.ReconcileRun

/-!
# Lookups of the reconciler

The dictionaries of `reconcile` as filters and memberships: record IDs are
distinct, so a lookup finds exactly the record with that ID.
-/

open PyText PyCalendar PySorted

namespace Threadline

/-- A dictionary of records by a distinct key finds a record by its key. -/
theorem get?_ofPairs_map_iff {α : Type*} {key : α → Text} {xs : List α}
    (hn : (xs.map key).Nodup) {k : Text} {a : α} :
    (PyDict.ofPairs (xs.map fun x => (key x, x))).get? k = some a ↔ a ∈ xs ∧ key a = k := by
  have hkeys : ((xs.map fun x => (key x, x)).map Prod.fst).Nodup := by
    rw [List.map_map]
    exact hn
  rw [PyDict.get?_ofPairs_iff hkeys, List.mem_map]
  constructor
  · rintro ⟨x, hx, he⟩
    obtain ⟨rfl, rfl⟩ := Prod.mk.inj he
    exact ⟨hx, rfl⟩
  · rintro ⟨ha, rfl⟩
    exact ⟨a, ha, rfl⟩

/-- The records of one type are the canonical records of that type. -/
theorem mem_sortedBy_filterMap {α κ : Type*} [LinearOrder κ] {key : α → κ}
    {cast : FinancialRecord → Option α} {wrap : α → FinancialRecord}
    (hcast : ∀ r a, cast r = some a ↔ r = wrap a) {records : List FinancialRecord} {a : α} :
    a ∈ sortedBy key (records.filterMap cast) ↔ wrap a ∈ records := by
  rw [mem_sortedBy, List.mem_filterMap]
  simp only [hcast, exists_eq_right]

section Split

variable {canonicalization : CanonicalizationResult}

theorem mem_orders_iff {o : Order} : o ∈ (splitCanonicalRecords canonicalization).orders ↔
    .order o ∈ canonicalization.canonicalRecords :=
  mem_sortedBy_filterMap (by rintro (_ | _ | _ | _ | _ | _) a <;> simp [FinancialRecord.asOrder?])

theorem mem_payments_iff {p : Payment} : p ∈ (splitCanonicalRecords canonicalization).payments ↔
    .payment p ∈ canonicalization.canonicalRecords :=
  mem_sortedBy_filterMap (by rintro (_ | _ | _ | _ | _ | _) a <;> simp [FinancialRecord.asPayment?])

theorem mem_refunds_iff {r : Refund} : r ∈ (splitCanonicalRecords canonicalization).refunds ↔
    .refund r ∈ canonicalization.canonicalRecords :=
  mem_sortedBy_filterMap (by rintro (_ | _ | _ | _ | _ | _) a <;> simp [FinancialRecord.asRefund?])

theorem mem_fees_iff {f : Fee} : f ∈ (splitCanonicalRecords canonicalization).fees ↔
    .fee f ∈ canonicalization.canonicalRecords :=
  mem_sortedBy_filterMap (by rintro (_ | _ | _ | _ | _ | _) a <;> simp [FinancialRecord.asFee?])

theorem mem_settlementLines_iff {line : SettlementLine} :
    line ∈ (splitCanonicalRecords canonicalization).settlementLines ↔
      .settlementLine line ∈ canonicalization.canonicalRecords :=
  mem_sortedBy_filterMap
    (by rintro (_ | _ | _ | _ | _ | _) a <;> simp [FinancialRecord.asSettlementLine?])

theorem mem_payouts_iff {p : Payout} : p ∈ (splitCanonicalRecords canonicalization).payouts ↔
    .payout p ∈ canonicalization.canonicalRecords :=
  mem_sortedBy_filterMap (by rintro (_ | _ | _ | _ | _ | _) a <;> simp [FinancialRecord.asPayout?])

end Split

namespace Books

variable {b : Books}

theorem capturedPayments_nodup : (b.capturedPayments.map Payment.paymentId).Nodup :=
  b.records.payments_nodup.sublist (List.filter_sublist.map _)

theorem captured_eq_of_id {p q : Payment} (hp : p ∈ b.capturedPayments)
    (hq : q ∈ b.capturedPayments) (hid : p.paymentId = q.paymentId) : p = q :=
  List.inj_on_of_nodup_map capturedPayments_nodup hp hq hid

theorem successfulRefunds_nodup : (b.successfulRefunds.map Refund.refundId).Nodup :=
  b.records.refunds_nodup.sublist (List.filter_sublist.map _)

theorem mem_capturedPayments {p : Payment} :
    p ∈ b.capturedPayments ↔ p ∈ b.records.payments ∧ p.status = .captured := by
  simp [capturedPayments, CanonicalRecords.capturedPayments]

theorem mem_successfulRefunds {r : Refund} :
    r ∈ b.successfulRefunds ↔ r ∈ b.records.refunds ∧ r.status = .succeeded := by
  simp [successfulRefunds, CanonicalRecords.successfulRefunds]

theorem orderById_eq_some {id : Text} {o : Order} :
    b.orderById id = some o ↔ o ∈ b.records.orders ∧ o.orderId = id :=
  get?_ofPairs_map_iff b.records.orders_nodup

theorem feeById_eq_some {id : Text} {f : Fee} :
    b.feeById id = some f ↔ f ∈ b.records.fees ∧ f.feeId = id :=
  get?_ofPairs_map_iff b.records.fees_nodup

theorem capturedPaymentById_eq_some {id : Text} {p : Payment} :
    b.capturedPaymentById id = some p ↔ p ∈ b.capturedPayments ∧ p.paymentId = id := by
  have h : b.paymentById id = some p ↔ p ∈ b.records.payments ∧ p.paymentId = id :=
    get?_ofPairs_map_iff b.records.payments_nodup
  rw [capturedPaymentById, Option.filter_eq_some_iff, h, mem_capturedPayments, decide_eq_true_eq]
  tauto

theorem capturedByOrder_eq (id : Text) :
    b.capturedByOrder id = b.capturedPayments.filter fun p => p.orderId = id :=
  PyDict.getD_groupBy _ _ _

theorem refundsByPayment_eq (id : Text) :
    b.refundsByPayment id = b.successfulRefunds.filter fun r => r.paymentId = id :=
  PyDict.getD_groupBy _ _ _

theorem feesByPayment_eq (id : Text) :
    b.feesByPayment id = b.records.fees.filter fun f => f.paymentId = id :=
  PyDict.getD_groupBy _ _ _

theorem linesByPayout_eq (id : Text) :
    b.linesByPayout id = b.records.settlementLines.filter fun line => line.payoutId = id :=
  PyDict.getD_groupBy _ _ _

theorem expectedForDate_eq (movements : List ExpectedMovement) (d : Date) :
    expectedForDate movements d = movements.filter fun m => m.availableOn = d :=
  PyDict.getD_groupBy _ _ _

theorem mem_capturedByOrder {id : Text} {p : Payment} :
    p ∈ b.capturedByOrder id ↔ p ∈ b.capturedPayments ∧ p.orderId = id := by
  simp [capturedByOrder_eq]

end Books

/-! ## The fee schedule -/

theorem paymentFee_eq_ok {p : Payment} {pair : Text × ℤ} :
    paymentFee p = .ok pair ↔ pair.1 = p.paymentId ∧
      calculateFee p.paymentMethod.value p.amount p.currency = .ok pair.2 := by
  obtain ⟨id, fee⟩ := pair
  unfold paymentFee
  cases calculateFee p.paymentMethod.value p.amount p.currency <;> simp [eq_comm]

/-- The schedule holds the fee of every captured payment. -/
theorem expectedFeeByPayment_ok {captured : List Payment} {fees : PyDict Text ℤ}
    (h : expectedFeeByPayment captured = .ok fees)
    (hn : (captured.map Payment.paymentId).Nodup) {p : Payment} (hp : p ∈ captured) :
    calculateFee p.paymentMethod.value p.amount p.currency = .ok (fees.getD p.paymentId 0) := by
  obtain ⟨pairs, hpairs, hfees⟩ := PyExcept.bind_eq_ok.mp h
  obtain rfl := Except.ok.inj hfees
  have hall := (PyExcept.mapM_eq_ok.mp hpairs).imp fun _ _ => paymentFee_eq_ok.mp
  -- the pairs carry the IDs of the payments, in order
  have hkeys : pairs.map Prod.fst = captured.map Payment.paymentId := by
    have hids := hall.imp fun _ _ => And.left
    rw [← List.forall₂_eq_eq_eq, List.forall₂_map_left_iff, List.forall₂_map_right_iff]
    exact hids.flip
  obtain ⟨pair, hpaid⟩ := PyExcept.exists_of_mapM_eq_ok hpairs hp
  obtain ⟨hid, hfee⟩ := paymentFee_eq_ok.mp hpaid
  have hpair := (PyExcept.mem_of_mapM_eq_ok hpairs).mpr ⟨p, hp, hpaid⟩
  have hget := (PyDict.get?_ofPairs_iff (hkeys ▸ hn)).mpr hpair
  rw [hid] at hget
  rw [hfee, PyDict.getD, hget, Option.getD_some]

/-- A fee was calculated, so the payment is in EUR. -/
theorem currency_of_calculateFee {method currency : Text} {amount fee : ℤ}
    (h : calculateFee method amount currency = .ok fee) : currency = eur := by
  unfold calculateFee at h
  by_contra hc
  simp [hc, bind, Except.bind, throw, throwThe, MonadExceptOf.throw] at h

/-! ## Report states -/

/-- The expected report arrived complete. -/
def ReportComplete (completenessResults : List CompletenessResult) (t : ReportType) : Prop :=
  ∃ c ∈ completenessResults, c.status.reportType = t ∧ c.status.state = .complete

instance (completenessResults : List CompletenessResult) (t : ReportType) :
    Decidable (ReportComplete completenessResults t) :=
  inferInstanceAs (Decidable (∃ c ∈ completenessResults, _))

theorem addReportState_eq_ok {states states' : PyDict ReportType SourceCompleteness}
    {c : CompletenessResult} : addReportState states c = .ok states' ↔
      states.get? c.status.reportType = none ∧
        states' = states.set c.status.reportType c.status.state := by
  unfold addReportState
  cases states.get? c.status.reportType <;> simp [eq_comm]

/-- Each report type has the state of its one result. -/
theorem addReportState_foldlM {results : List CompletenessResult}
    {states : PyDict ReportType SourceCompleteness}
    (h : results.foldlM addReportState ∅ = .ok states) (t : ReportType) (s : SourceCompleteness) :
    states.get? t = some s ↔ ∃ c ∈ results, c.status.reportType = t ∧ c.status.state = s := by
  induction results using List.reverseRecOn generalizing states s with
  | nil =>
    obtain rfl : ∅ = states := Except.ok.inj h
    simp
  | append_singleton results c ih =>
    obtain ⟨before, hbefore, hstep⟩ := PyExcept.foldlM_concat_eq_ok.mp h
    obtain ⟨hnone, rfl⟩ := addReportState_eq_ok.mp hstep
    rw [PyDict.get?_set]
    by_cases ht : c.status.reportType = t
    · subst ht
      -- no earlier result has this report type
      have hearlier : ∀ c' ∈ results, c'.status.reportType ≠ c.status.reportType := by
        intro c' hc' he
        have hsome := (ih hbefore c'.status.state).mpr ⟨c', hc', he, rfl⟩
        rw [hnone] at hsome
        cases hsome
      rw [if_pos rfl, Option.some_inj]
      constructor
      · rintro rfl
        exact ⟨c, by simp, rfl, rfl⟩
      · rintro ⟨c', hc', he, rfl⟩
        rcases List.mem_append.mp hc' with hc' | hc'
        · exact absurd he (hearlier c' hc')
        · rw [List.mem_singleton.mp hc']
    · rw [if_neg ht, ih hbefore]
      simp [ht]

/-- There is at most one result for a report type. -/
theorem reportTypes_nodup {results : List CompletenessResult}
    {states : PyDict ReportType SourceCompleteness}
    (h : results.foldlM addReportState ∅ = .ok states) :
    (results.map fun c => c.status.reportType).Nodup := by
  induction results using List.reverseRecOn generalizing states with
  | nil => exact List.nodup_nil
  | append_singleton results c ih =>
    obtain ⟨before, hbefore, hstep⟩ := PyExcept.foldlM_concat_eq_ok.mp h
    obtain ⟨hnone, -⟩ := addReportState_eq_ok.mp hstep
    rw [List.map_append, List.nodup_append]
    refine ⟨ih hbefore, List.nodup_singleton _, fun t ht t' ht' he => ?_⟩
    obtain ⟨c', hc', rfl⟩ := List.mem_map.mp ht
    obtain rfl := List.mem_singleton.mp ht'
    have hsome := (addReportState_foldlM hbefore _ c'.status.state).mpr ⟨c', hc', he, rfl⟩
    rw [hnone] at hsome
    cases hsome

theorem buildReportStateMap_ok {results : List CompletenessResult}
    {states : ReportType → SourceCompleteness} (h : buildReportStateMap results = .ok states)
    (t : ReportType) (s : SourceCompleteness) :
    states t = s ↔ ∃ c ∈ results, c.status.reportType = t ∧ c.status.state = s := by
  obtain ⟨dict, hdict, hmissing⟩ := PyExcept.bind_eq_ok.mp h
  simp only at hmissing
  split_ifs at hmissing with hne
  obtain rfl := Except.ok.inj hmissing
  have hsome : ∃ s', dict.get? t = some s' := by
    have hall := not_not.mp hne
    rw [List.eq_nil_iff_forall_not_mem] at hall
    have ht := hall t
    rw [mem_sortedBy, List.mem_filter, not_and] at ht
    have ht := ht (by cases t <;> simp [ReportType.all])
    cases hget : dict.get? t with
    | none => simp [hget] at ht
    | some s' => exact ⟨s', rfl⟩
  obtain ⟨s', hs'⟩ := hsome
  have hget : dict.getD t .pending = s' := by rw [PyDict.getD, hs', Option.getD_some]
  rw [← addReportState_foldlM hdict, hs', Option.some_inj]
  exact hget ▸ Iff.rfl

namespace Opened

variable {runId : Text} {detectedAt : UtcDateTime} {canonicalization : CanonicalizationResult}
  {completenessResults : List CompletenessResult} {b : Books} {movements : List ExpectedMovement}

theorem state_eq_iff (h : Opened runId detectedAt canonicalization completenessResults b movements)
    (t : ReportType) (s : SourceCompleteness) : b.states t = s ↔
      ∃ c ∈ completenessResults, c.status.reportType = t ∧ c.status.state = s := by
  rw [buildReportStateMap_ok h.states_eq]
  simp only [mem_sortedBy]

theorem complete_iff (h : Opened runId detectedAt canonicalization completenessResults b movements)
    (t : ReportType) : b.states t = .complete ↔ ReportComplete completenessResults t :=
  h.state_eq_iff t .complete

theorem expectedFee_eq
    (h : Opened runId detectedAt canonicalization completenessResults b movements) {p : Payment}
    (hp : p ∈ b.capturedPayments) :
    calculateFee p.paymentMethod.value p.amount p.currency = .ok (b.expectedFee p.paymentId) :=
  expectedFeeByPayment_ok h.expectedFees_eq Books.capturedPayments_nodup hp

theorem currency_eq (h : Opened runId detectedAt canonicalization completenessResults b movements)
    {p : Payment} (hp : p ∈ b.capturedPayments) : p.currency = eur :=
  currency_of_calculateFee (h.expectedFee_eq hp)

end Opened

end Threadline
