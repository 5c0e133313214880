import Threadline.ImpactReach
import Threadline.PayoutRules
import Threadline.ReconcileLookup

/-!
# Rows outside a set of keys

Two runs whose records differ only inside a set of keys that is closed under
relationships and shared days have the same rows outside of it.
-/

open PyText PyCalendar PySorted

namespace Threadline

/-- The records differ only at keys of `K`, and no relationship or shared day leaves `K`. -/
structure Isolated (K : RecordKey → Prop) (before after : List FinancialRecord) : Prop where
  same : ∀ r, ¬ K (keyOf r) → (r ∈ before ↔ r ∈ after)
  parent : ∀ r, r ∈ before ∨ r ∈ after → ∀ parent ∈ parentsOf r, K (keyOf r) ↔ K parent
  day : ∀ r r', (r ∈ before ∨ r ∈ after) → (r' ∈ before ∨ r' ∈ after) → ∀ d ∈ daysOf r,
    d ∈ daysOf r' → K (keyOf r) → K (keyOf r')

theorem Isolated.symm {K : RecordKey → Prop} {before after : List FinancialRecord}
    (h : Isolated K before after) : Isolated K after before :=
  ⟨fun r hr => (h.same r hr).symm, fun r hr => h.parent r hr.symm,
    fun r r' hr hr' => h.day r r' hr.symm hr'.symm⟩

/-- The records of one type outside `K` are in both lists, in the same order. -/
theorem Isolated.filter_eq {K : RecordKey → Prop} {before after : List FinancialRecord}
    (h : Isolated K before after) {α : Type*} {key : α → Text}
    {cast : FinancialRecord → Option α} {wrap : α → FinancialRecord}
    (hcast : ∀ r a, cast r = some a ↔ r = wrap a)
    (hbefore : ((sortedBy key (before.filterMap cast)).map key).Nodup)
    (hafter : ((sortedBy key (after.filterMap cast)).map key).Nodup) {p : α → Bool}
    (hp : ∀ a, wrap a ∈ before ∨ wrap a ∈ after → p a = true → ¬ K (keyOf (wrap a))) :
    (sortedBy key (before.filterMap cast)).filter p =
      (sortedBy key (after.filterMap cast)).filter p := by
  have hnodup : ∀ {xs : List α}, ((sortedBy key xs).map key).Nodup → ((xs.filter p).map key).Nodup :=
    fun hn => (((sortedBy_perm key _).map key).nodup_iff.mp hn).sublist (List.filter_sublist.map key)
  rw [filter_sortedBy, filter_sortedBy]
  apply sortedBy_eq_of_mem key (hnodup hbefore) (hnodup hafter)
  intro a
  simp only [List.mem_filter, List.mem_filterMap, hcast, exists_eq_right]
  constructor
  · rintro ⟨ha, hpa⟩
    exact ⟨(h.same _ (hp a (.inl ha) hpa)).mp ha, hpa⟩
  · rintro ⟨ha, hpa⟩
    exact ⟨(h.same _ (hp a (.inr ha) hpa)).mpr ha, hpa⟩

namespace Books

variable {b : Books} {f : Finding} {id : Text}

/-! ## The orders a finding marks -/

theorem paymentFinding_orderIds {p : Payment} (hf : f ∈ b.paymentFinding p)
    (hid : id ∈ f.orderIds) : p.orderId = id := by
  unfold paymentFinding at hf
  cases ho : b.orderById p.orderId with
  | none =>
    rw [ho] at hf
    obtain rfl := List.mem_singleton.mp hf
    cases hid
  | some o =>
    rw [ho] at hf
    simp only at hf
    split_ifs at hf
    · obtain rfl := List.mem_singleton.mp hf
      rw [List.mem_singleton.mp hid]
      exact (orderById_eq_some.mp ho).2.symm
    · cases hf

theorem refundFinding_orderIds {r : Refund} (hf : f ∈ b.refundFinding r) (hid : id ∈ f.orderIds) :
    ∃ p ∈ b.capturedPayments, p.paymentId = r.paymentId ∧ p.orderId = id := by
  unfold refundFinding at hf
  cases hp : b.capturedPaymentById r.paymentId with
  | none =>
    rw [hp] at hf
    obtain rfl := List.mem_singleton.mp hf
    cases hid
  | some p =>
    rw [hp] at hf
    simp only at hf
    obtain ⟨hmem, hpid⟩ := capturedPaymentById_eq_some.mp hp
    split_ifs at hf
    · obtain rfl := List.mem_singleton.mp hf
      exact ⟨p, hmem, hpid, (List.mem_singleton.mp hid).symm⟩
    · cases hf

theorem excessRefundFinding_orderIds {p : Payment} (hf : f ∈ b.excessRefundFinding p)
    (hid : id ∈ f.orderIds) : p.orderId = id := by
  unfold excessRefundFinding at hf
  simp only at hf
  split_ifs at hf
  · obtain rfl := List.mem_singleton.mp hf
    exact (List.mem_singleton.mp hid).symm
  · cases hf

theorem capturedFeeFinding_orderIds {p : Payment} (hf : f ∈ b.capturedFeeFinding p)
    (hid : id ∈ f.orderIds) : p.orderId = id := by
  unfold capturedFeeFinding at hf
  simp only at hf
  split_ifs at hf
  · obtain rfl := List.mem_singleton.mp hf
    exact (List.mem_singleton.mp hid).symm
  · obtain rfl := List.mem_singleton.mp hf
    exact (List.mem_singleton.mp hid).symm
  · cases hf

theorem unexpectedFeeFinding_orderIds {fee : Fee} (hf : f ∈ b.unexpectedFeeFinding fee) :
    f.orderIds = [] := by
  unfold unexpectedFeeFinding at hf
  split at hf
  · rw [List.mem_singleton.mp hf]
  · cases hf

theorem mem_gated {required : List ReportType} {findings : List Finding} :
    f ∈ (if reportsComplete b.states required then findings else []) ↔
      reportsComplete b.states required ∧ f ∈ findings := by
  split_ifs with hgate <;> simp [hgate]

/-! ## The movements of a day -/

theorem flatten_filter_day {payments : List Payment} {captures : List (List ExpectedMovement)}
    (h : List.Forall₂ (fun p ms => b.capturedMovements p = .ok ms) payments captures) (d : Date) :
    captures.flatten.filter (fun m => m.availableOn = d) =
      (payments.filter fun p => p.availableOn = some d).flatMap fun p => b.captureMovements p d := by
  induction h with
  | nil => rfl
  | @cons p ms payments captures hp _ ih =>
    obtain ⟨day, hday, rfl⟩ := capturedMovements_eq_ok.mp hp
    rw [List.flatten_cons, List.filter_append, ih, List.filter_cons]
    by_cases hd : day = d
    · subst hd
      simp [hday, captureMovements]
    · simp [hday, captureMovements, hd]

theorem filter_day {refunds : List Refund} {movements : List ExpectedMovement}
    (h : List.Forall₂ (fun r m => refundedMovement r = .ok m) refunds movements) (d : Date) :
    movements.filter (fun m => m.availableOn = d) =
      (refunds.filter fun r => r.availableOn = some d).map fun r => refundMovement r d := by
  induction h with
  | nil => rfl
  | @cons r m refunds movements hr _ ih =>
    obtain ⟨day, hday, rfl⟩ := refundedMovement_eq_ok.mp hr
    rw [List.filter_cons, List.filter_cons, ih]
    by_cases hd : day = d
    · subst hd
      simp [hday, refundMovement]
    · simp [hday, refundMovement, hd]

/-- The movements of a day come from the captures and refunds available on it. -/
theorem expectedForDate_eq_sorted {movements : List ExpectedMovement}
    (h : b.expectedMovements = .ok movements) (d : Date) :
    expectedForDate movements d = sortedBy ExpectedMovement.sortKey
      (((b.capturedPayments.filter fun p => p.availableOn = some d).flatMap fun p =>
        b.captureMovements p d) ++
      (b.successfulRefunds.filter fun r => r.availableOn = some d).map fun r =>
        refundMovement r d) := by
  obtain ⟨captures, hcaptures, h⟩ := PyExcept.bind_eq_ok.mp h
  obtain ⟨refunds, hrefunds, h⟩ := PyExcept.bind_eq_ok.mp h
  obtain rfl := Except.ok.inj h
  rw [expectedForDate_eq, filter_sortedBy, List.filter_append,
    flatten_filter_day (PyExcept.mapM_eq_ok.mp hcaptures),
    filter_day (PyExcept.mapM_eq_ok.mp hrefunds)]

/-! ## The payouts a finding marks -/

theorem paymentFindings_payoutIds (hf : f ∈ b.paymentFindings) : f.payoutIds = [] := by
  obtain ⟨-, hf⟩ := mem_gated.mp hf
  obtain ⟨p, -, hf⟩ := List.mem_flatMap.mp hf
  unfold paymentFinding at hf
  split at hf
  · rw [List.mem_singleton.mp hf]
  · split_ifs at hf
    · rw [List.mem_singleton.mp hf]
    · cases hf

theorem refundFindings_payoutIds (hf : f ∈ b.refundFindings) : f.payoutIds = [] := by
  obtain ⟨-, hf⟩ := mem_gated.mp hf
  rcases List.mem_append.mp hf with hf | hf
  · obtain ⟨r, -, hf⟩ := List.mem_flatMap.mp hf
    unfold refundFinding at hf
    split at hf
    · rw [List.mem_singleton.mp hf]
    · split_ifs at hf
      · rw [List.mem_singleton.mp hf]
      · cases hf
  · obtain ⟨p, -, hf⟩ := List.mem_flatMap.mp hf
    unfold excessRefundFinding at hf
    simp only at hf
    split_ifs at hf
    · rw [List.mem_singleton.mp hf]
    · cases hf

theorem feeFindings_payoutIds (hf : f ∈ b.feeFindings) : f.payoutIds = [] := by
  obtain ⟨-, hf⟩ := mem_gated.mp hf
  rcases List.mem_append.mp hf with hf | hf
  · obtain ⟨p, -, hf⟩ := List.mem_flatMap.mp hf
    unfold capturedFeeFinding at hf
    simp only at hf
    split_ifs at hf
    · rw [List.mem_singleton.mp hf]
    · rw [List.mem_singleton.mp hf]
    · cases hf
  · obtain ⟨fee, -, hf⟩ := List.mem_flatMap.mp hf
    unfold unexpectedFeeFinding at hf
    split at hf
    · rw [List.mem_singleton.mp hf]
    · cases hf

theorem orderFindings_payoutIds {o : Order} (hf : f ∈ b.orderFindings o) : f.payoutIds = [] := by
  unfold orderFindings at hf
  split_ifs at hf
  · rcases List.mem_append.mp hf with hf | hf
    · unfold collectionFinding at hf
      simp only at hf
      split_ifs at hf
      · rw [List.mem_singleton.mp hf]
      · rw [List.mem_singleton.mp hf]
      · cases hf
    · unfold multipleCaptureFinding at hf
      simp only at hf
      split_ifs at hf
      · rw [List.mem_singleton.mp hf]
      · cases hf
  · cases hf

/-- Before the payout loop only duplicate movements mark a payout. -/
theorem middleFindings_payoutIds {canonicalization : CanonicalizationResult}
    {results : List CompletenessResult} (hid : id ∈ f.payoutIds) :
    f ∈ b.middleFindings canonicalization results ↔ f ∈ b.duplicateMovementFindings := by
  have hne : f.payoutIds ≠ [] := List.ne_nil_of_mem hid
  simp only [middleFindings, earlyFindings, List.mem_append]
  refine ⟨fun hf => ?_, fun hf => .inr hf⟩
  rcases hf with ((((((hf | hf) | hf) | hf) | hf) | hf) | hf)
  · obtain ⟨c, -, rfl⟩ := List.mem_map.mp hf
    cases hid
  · obtain ⟨c, -, rfl⟩ := List.mem_map.mp hf
    cases hid
  · exact absurd (paymentFindings_payoutIds hf) hne
  · exact absurd (refundFindings_payoutIds hf) hne
  · exact absurd (feeFindings_payoutIds hf) hne
  · obtain ⟨o, -, hf⟩ := List.mem_flatMap.mp hf
    exact absurd (orderFindings_payoutIds hf) hne
  · exact hf

theorem mem_duplicateMovementFindings_iff : f ∈ b.duplicateMovementFindings ↔
    b.states .settlementLines = .complete ∧ ∃ line ∈ b.records.settlementLines,
      f ∈ b.duplicateMovementFinding (line.movementKey,
        b.records.settlementLines.filter fun l => l.movementKey = line.movementKey) := by
  unfold duplicateMovementFindings
  split_ifs with hstate
  · simp only [List.mem_flatMap, mem_sortedBy, hstate, true_and]
    constructor
    · rintro ⟨⟨key, group⟩, hmem, hf⟩
      obtain ⟨⟨line, hline, rfl⟩, rfl⟩ := PyDict.mem_items_groupBy.mp hmem
      exact ⟨line, hline, hf⟩
    · rintro ⟨line, hline, hf⟩
      exact ⟨_, PyDict.mem_items_groupBy.mpr ⟨⟨line, hline, rfl⟩, rfl⟩, hf⟩
  · simp [hstate]

end Books

section TwoRuns

variable {K : RecordKey → Prop} {runId : Text} {detectedAt : UtcDateTime}
  {before after : CanonicalizationResult} {completenessResults : List CompletenessResult}
  {b b' : Books} {movements movements' : List ExpectedMovement}
  (hK : Isolated K before.canonicalRecords after.canonicalRecords)
  (h : Opened runId detectedAt before completenessResults b movements)
  (h' : Opened runId detectedAt after completenessResults b' movements')

include hK

theorem payments_filter_eq {p : Payment → Bool}
    (hp : ∀ x, .payment x ∈ before.canonicalRecords ∨ .payment x ∈ after.canonicalRecords →
      p x = true → ¬ K (keyOf (.payment x))) :
    (splitCanonicalRecords before).payments.filter p =
      (splitCanonicalRecords after).payments.filter p :=
  hK.filter_eq (by rintro (_ | _ | _ | _ | _ | _) a <;> simp [FinancialRecord.asPayment?])
    (splitCanonicalRecords before).payments_nodup (splitCanonicalRecords after).payments_nodup hp

theorem refunds_filter_eq {p : Refund → Bool}
    (hp : ∀ x, .refund x ∈ before.canonicalRecords ∨ .refund x ∈ after.canonicalRecords →
      p x = true → ¬ K (keyOf (.refund x))) :
    (splitCanonicalRecords before).refunds.filter p =
      (splitCanonicalRecords after).refunds.filter p :=
  hK.filter_eq (by rintro (_ | _ | _ | _ | _ | _) a <;> simp [FinancialRecord.asRefund?])
    (splitCanonicalRecords before).refunds_nodup (splitCanonicalRecords after).refunds_nodup hp

theorem fees_filter_eq {p : Fee → Bool}
    (hp : ∀ x, .fee x ∈ before.canonicalRecords ∨ .fee x ∈ after.canonicalRecords →
      p x = true → ¬ K (keyOf (.fee x))) :
    (splitCanonicalRecords before).fees.filter p = (splitCanonicalRecords after).fees.filter p :=
  hK.filter_eq (by rintro (_ | _ | _ | _ | _ | _) a <;> simp [FinancialRecord.asFee?])
    (splitCanonicalRecords before).fees_nodup (splitCanonicalRecords after).fees_nodup hp

theorem settlementLines_filter_eq {p : SettlementLine → Bool}
    (hp : ∀ x, .settlementLine x ∈ before.canonicalRecords ∨
      .settlementLine x ∈ after.canonicalRecords → p x = true → ¬ K (keyOf (.settlementLine x))) :
    (splitCanonicalRecords before).settlementLines.filter p =
      (splitCanonicalRecords after).settlementLines.filter p :=
  hK.filter_eq (by rintro (_ | _ | _ | _ | _ | _) a <;> simp [FinancialRecord.asSettlementLine?])
    (splitCanonicalRecords before).settlementLines_nodup
    (splitCanonicalRecords after).settlementLines_nodup hp

include h h'

omit hK in
theorem run_eq : b.run = b'.run := h.run_eq.trans h'.run_eq.symm

omit hK in
theorem states_eq : b.states = b'.states := Except.ok.inj (h.states_eq.symm.trans h'.states_eq)

/-! ## Lookups -/

theorem captured_filter_eq {p : Payment → Bool}
    (hp : ∀ x, .payment x ∈ before.canonicalRecords ∨ .payment x ∈ after.canonicalRecords →
      x.status = .captured → p x = true → ¬ K (keyOf (.payment x))) :
    b.capturedPayments.filter p = b'.capturedPayments.filter p := by
  rw [Books.capturedPayments, Books.capturedPayments, CanonicalRecords.capturedPayments,
    CanonicalRecords.capturedPayments, h.records_eq, h'.records_eq, List.filter_filter,
    List.filter_filter]
  apply payments_filter_eq hK
  intro x hx hpx
  rw [Bool.and_eq_true, decide_eq_true_eq] at hpx
  exact hp x hx hpx.2 hpx.1

theorem succeeded_filter_eq {p : Refund → Bool}
    (hp : ∀ x, .refund x ∈ before.canonicalRecords ∨ .refund x ∈ after.canonicalRecords →
      x.status = .succeeded → p x = true → ¬ K (keyOf (.refund x))) :
    b.successfulRefunds.filter p = b'.successfulRefunds.filter p := by
  rw [Books.successfulRefunds, Books.successfulRefunds, CanonicalRecords.successfulRefunds,
    CanonicalRecords.successfulRefunds, h.records_eq, h'.records_eq, List.filter_filter,
    List.filter_filter]
  apply refunds_filter_eq hK
  intro x hx hpx
  rw [Bool.and_eq_true, decide_eq_true_eq] at hpx
  exact hp x hx hpx.2 hpx.1

theorem capturedByOrder_agree {id : Text} (hid : ¬ K ⟨.order, id⟩) :
    b.capturedByOrder id = b'.capturedByOrder id := by
  rw [Books.capturedByOrder_eq, Books.capturedByOrder_eq]
  apply captured_filter_eq hK h h'
  rintro x hx - hp
  rw [hK.parent _ hx ⟨.order, x.orderId⟩ (by simp [parentsOf]), of_decide_eq_true hp]
  exact hid

theorem refundsByPayment_agree {id : Text} (hid : ¬ K ⟨.payment, id⟩) :
    b.refundsByPayment id = b'.refundsByPayment id := by
  rw [Books.refundsByPayment_eq, Books.refundsByPayment_eq]
  apply succeeded_filter_eq hK h h'
  rintro x hx - hp
  rw [hK.parent _ hx ⟨.payment, x.paymentId⟩ (by simp [parentsOf]), of_decide_eq_true hp]
  exact hid

theorem fees_paymentId_agree {p : Text → Bool} (hp : ∀ id, p id = true → ¬ K ⟨.payment, id⟩) :
    (b.records.fees.filter fun f => p f.paymentId) =
      b'.records.fees.filter fun f => p f.paymentId := by
  rw [h.records_eq, h'.records_eq]
  apply fees_filter_eq hK
  intro x hx hpx
  rw [hK.parent _ hx ⟨.payment, x.paymentId⟩ (by simp [parentsOf])]
  exact hp _ hpx

theorem feesByPayment_agree {id : Text} (hid : ¬ K ⟨.payment, id⟩) :
    b.feesByPayment id = b'.feesByPayment id := by
  rw [Books.feesByPayment_eq, Books.feesByPayment_eq]
  exact fees_paymentId_agree hK h h' (p := fun x => decide (x = id))
    fun x hx => of_decide_eq_true hx ▸ hid

theorem captured_agree {p : Payment} (hp : ¬ K ⟨.payment, p.paymentId⟩) :
    p ∈ b.capturedPayments ↔ p ∈ b'.capturedPayments := by
  rw [Books.mem_capturedPayments, Books.mem_capturedPayments, h.records_eq, h'.records_eq,
    mem_payments_iff, mem_payments_iff, hK.same (.payment p) hp]

theorem succeeded_agree {r : Refund} (hr : ¬ K ⟨.refund, r.refundId⟩) :
    r ∈ b.successfulRefunds ↔ r ∈ b'.successfulRefunds := by
  rw [Books.mem_successfulRefunds, Books.mem_successfulRefunds, h.records_eq, h'.records_eq,
    mem_refunds_iff, mem_refunds_iff, hK.same (.refund r) hr]

theorem orders_agree {o : Order} (ho : ¬ K ⟨.order, o.orderId⟩) :
    o ∈ b.records.orders ↔ o ∈ b'.records.orders := by
  rw [h.records_eq, h'.records_eq, mem_orders_iff, mem_orders_iff, hK.same (.order o) ho]

theorem payouts_agree {p : Payout} (hp : ¬ K ⟨.payout, p.payoutId⟩) :
    p ∈ b.records.payouts ↔ p ∈ b'.records.payouts := by
  rw [h.records_eq, h'.records_eq, mem_payouts_iff, mem_payouts_iff, hK.same (.payout p) hp]

theorem orderById_agree {id : Text} (hid : ¬ K ⟨.order, id⟩) : b.orderById id = b'.orderById id := by
  ext o
  rw [Books.orderById_eq_some, Books.orderById_eq_some]
  refine and_congr_left ?_
  rintro rfl
  exact orders_agree hK h h' hid

theorem capturedPaymentById_agree {id : Text} (hid : ¬ K ⟨.payment, id⟩) :
    b.capturedPaymentById id = b'.capturedPaymentById id := by
  ext p
  rw [Books.capturedPaymentById_eq_some, Books.capturedPaymentById_eq_some]
  refine and_congr_left ?_
  rintro rfl
  exact captured_agree hK h h' hid

theorem feeById_agree {id : Text} (hid : ¬ K ⟨.fee, id⟩) : b.feeById id = b'.feeById id := by
  ext f
  rw [Books.feeById_eq_some, Books.feeById_eq_some, h.records_eq, h'.records_eq, mem_fees_iff,
    mem_fees_iff]
  refine and_congr_left ?_
  rintro rfl
  exact hK.same (.fee f) hid

theorem expectedFee_agree {p : Payment} (hp : p ∈ b.capturedPayments)
    (hid : ¬ K ⟨.payment, p.paymentId⟩) :
    b.expectedFee p.paymentId = b'.expectedFee p.paymentId := by
  have hfee := h.expectedFee_eq hp
  rw [h'.expectedFee_eq ((captured_agree hK h h' hid).mp hp)] at hfee
  exact (Except.ok.inj hfee).symm

/-! ## Transaction rows -/

theorem paymentFinding_agree {p : Payment} (hid : ¬ K ⟨.order, p.orderId⟩) :
    b.paymentFinding p = b'.paymentFinding p := by
  rw [Books.paymentFinding, Books.paymentFinding, orderById_agree hK h h' hid, run_eq h h']

theorem refundFinding_agree {r : Refund} (hid : ¬ K ⟨.payment, r.paymentId⟩) :
    b.refundFinding r = b'.refundFinding r := by
  rw [Books.refundFinding, Books.refundFinding, capturedPaymentById_agree hK h h' hid,
    run_eq h h']

theorem excessRefundFinding_agree {p : Payment} (hid : ¬ K ⟨.payment, p.paymentId⟩) :
    b.excessRefundFinding p = b'.excessRefundFinding p := by
  rw [Books.excessRefundFinding, Books.excessRefundFinding, refundsByPayment_agree hK h h' hid,
    run_eq h h']

theorem capturedFeeFinding_agree {p : Payment} (hp : p ∈ b.capturedPayments)
    (hid : ¬ K ⟨.payment, p.paymentId⟩) : b.capturedFeeFinding p = b'.capturedFeeFinding p := by
  rw [Books.capturedFeeFinding, Books.capturedFeeFinding, feesByPayment_agree hK h h' hid,
    expectedFee_agree hK h h' hp hid, run_eq h h']

theorem orderFindings_agree {o : Order} (hid : ¬ K ⟨.order, o.orderId⟩) :
    b.orderFindings o = b'.orderFindings o := by
  have hcaptures := capturedByOrder_agree hK h h' hid
  have hcollection : b.collectionFinding o = b'.collectionFinding o := by
    rw [Books.collectionFinding, Books.collectionFinding, Books.capturedTotal, Books.capturedTotal,
      hcaptures, run_eq h h']
  have hmultiple : b.multipleCaptureFinding o = b'.multipleCaptureFinding o := by
    rw [Books.multipleCaptureFinding, Books.multipleCaptureFinding, hcaptures, run_eq h h']
  rw [Books.orderFindings, Books.orderFindings, hcollection, hmultiple, states_eq h h']

omit h' in
/-- A capture of an order outside `K` is outside `K`. -/
theorem not_mem_of_captured {p : Payment} (hp : p ∈ b.capturedPayments)
    (hid : ¬ K ⟨.order, p.orderId⟩) : ¬ K ⟨.payment, p.paymentId⟩ := by
  rw [Books.mem_capturedPayments, h.records_eq, mem_payments_iff] at hp
  exact (hK.parent _ (.inl hp.1) ⟨.order, p.orderId⟩ (by simp [parentsOf])).not.mpr hid

omit h' in
theorem not_mem_of_succeeded {r : Refund} (hr : r ∈ b.successfulRefunds)
    (hid : ¬ K ⟨.payment, r.paymentId⟩) : ¬ K ⟨.refund, r.refundId⟩ := by
  rw [Books.mem_successfulRefunds, h.records_eq, mem_refunds_iff] at hr
  exact (hK.parent _ (.inl hr.1) ⟨.payment, r.paymentId⟩ (by simp [parentsOf])).not.mpr hid

/-- The earlier passes mark an order outside `K` alike. -/
theorem earlyFindings_agree {results : List CompletenessResult} {f : Finding} {id : Text}
    (hid : ¬ K ⟨.order, id⟩) (hf : f ∈ b.earlyFindings before results) (hmark : id ∈ f.orderIds) :
    f ∈ b'.earlyFindings after results := by
  simp only [Books.earlyFindings, List.mem_append] at hf ⊢
  rcases hf with (((hf | hf) | hf) | hf) | hf
  · obtain ⟨c, -, rfl⟩ := List.mem_map.mp hf
    cases hmark
  · obtain ⟨c, -, rfl⟩ := List.mem_map.mp hf
    cases hmark
  · refine .inl (.inl (.inr ?_))
    rw [Books.paymentFindings, Books.mem_gated, List.mem_flatMap] at hf ⊢
    obtain ⟨hgate, p, hp, hf⟩ := hf
    obtain rfl := Books.paymentFinding_orderIds hf hmark
    refine ⟨states_eq h h' ▸ hgate, p, ?_, paymentFinding_agree hK h h' hid ▸ hf⟩
    exact (captured_agree hK h h' (not_mem_of_captured hK h hp hid)).mp hp
  · refine .inl (.inr ?_)
    rw [Books.refundFindings, Books.mem_gated, List.mem_append, List.mem_flatMap,
      List.mem_flatMap] at hf ⊢
    obtain ⟨hgate, hf⟩ := hf
    refine ⟨states_eq h h' ▸ hgate, ?_⟩
    rcases hf with ⟨r, hr, hf⟩ | ⟨p, hp, hf⟩
    · obtain ⟨p, hp, hpid, rfl⟩ := Books.refundFinding_orderIds hf hmark
      have hpayment := not_mem_of_captured hK h hp hid
      rw [hpid] at hpayment
      have hrefund := not_mem_of_succeeded hK h hr hpayment
      exact .inl ⟨r, (succeeded_agree hK h h' hrefund).mp hr,
        refundFinding_agree hK h h' hpayment ▸ hf⟩
    · obtain rfl := Books.excessRefundFinding_orderIds hf hmark
      have hpayment := not_mem_of_captured hK h hp hid
      exact .inr ⟨p, (captured_agree hK h h' hpayment).mp hp,
        excessRefundFinding_agree hK h h' hpayment ▸ hf⟩
  · refine .inr ?_
    rw [Books.feeFindings, Books.mem_gated, List.mem_append, List.mem_flatMap,
      List.mem_flatMap] at hf ⊢
    obtain ⟨hgate, hf⟩ := hf
    refine ⟨states_eq h h' ▸ hgate, .inl ?_⟩
    rcases hf with ⟨p, hp, hf⟩ | ⟨fee, -, hf⟩
    · obtain rfl := Books.capturedFeeFinding_orderIds hf hmark
      have hpayment := not_mem_of_captured hK h hp hid
      exact ⟨p, (captured_agree hK h h' hpayment).mp hp,
        capturedFeeFinding_agree hK h h' hp hpayment ▸ hf⟩
    · rw [Books.unexpectedFeeFinding_orderIds hf] at hmark
      cases hmark

theorem transactionRow_agree {o : Order} (hid : ¬ K ⟨.order, o.orderId⟩)
    (codes : List ExceptionCode) : b.transactionRow codes o = b'.transactionRow codes o := by
  have hcaptures := capturedByOrder_agree hK h h' hid
  have hids : b.orderPaymentIds o = b'.orderPaymentIds o := by
    rw [Books.orderPaymentIds, Books.orderPaymentIds, hcaptures]
  have hpayment : ∀ paymentId ∈ b'.orderPaymentIds o, ¬ K ⟨.payment, paymentId⟩ ∧
      b.expectedFee paymentId = b'.expectedFee paymentId := by
    intro paymentId hmem
    rw [← hids, Books.orderPaymentIds, List.mem_dedup, List.mem_map] at hmem
    obtain ⟨p, hp, rfl⟩ := hmem
    obtain ⟨hp, hoid⟩ := Books.mem_capturedByOrder.mp hp
    have hout := not_mem_of_captured hK h hp (hoid ▸ hid)
    exact ⟨hout, expectedFee_agree hK h h' hp hout⟩
  have hrefunds : b.orderRefunds o = b'.orderRefunds o := by
    rw [Books.orderRefunds, Books.orderRefunds, hids]
    apply succeeded_filter_eq hK h h'
    rintro x hx - hp
    rw [hK.parent _ hx ⟨.payment, x.paymentId⟩ (by simp [parentsOf])]
    exact (hpayment _ (of_decide_eq_true hp)).1
  have hfees : b.orderFees o = b'.orderFees o := by
    rw [Books.orderFees, Books.orderFees, hids]
    exact fees_paymentId_agree hK h h' (p := fun x => decide (x ∈ b'.orderPaymentIds o))
      fun x hx => (hpayment x (of_decide_eq_true hx)).1
  have hexpected : (b.orderPaymentIds o).map b.expectedFee =
      (b'.orderPaymentIds o).map b'.expectedFee := by
    rw [hids]
    exact List.map_congr_left fun x hx => (hpayment x hx).2
  simp only [Books.transactionRow, Books.capturedTotal, hcaptures, hrefunds, hfees, hexpected,
    run_eq h h', states_eq h h']

/-- A transaction row outside `K` is a row of the other run. -/
theorem transactionRows_agree {results : List CompletenessResult}
    {row : TransactionReconciliation} (hid : ¬ K ⟨.order, row.orderId⟩)
    (hrow : row ∈ b.transactionRows (b.earlyFindings before results)) :
    row ∈ b'.transactionRows (b'.earlyFindings after results) := by
  obtain ⟨o, ho, rfl⟩ := List.mem_map.mp hrow
  have hid : ¬ K ⟨.order, o.orderId⟩ := hid
  refine List.mem_map.mpr ⟨o, (orders_agree hK h h' hid).mp ho, ?_⟩
  rw [transactionRow_agree hK h h' hid, orderFindings_agree hK h h' hid]
  congr 1
  apply codesOf_eq_of_mem
  intro f hmark
  rw [List.mem_append, List.mem_append]
  exact or_congr_left ⟨fun hf => earlyFindings_agree hK.symm h' h hid hf hmark,
    fun hf => earlyFindings_agree hK h h' hid hf hmark⟩

/-! ## Payout rows -/

theorem linesByPayout_agree {id : Text} (hid : ¬ K ⟨.payout, id⟩) :
    b.linesByPayout id = b'.linesByPayout id := by
  rw [Books.linesByPayout_eq, Books.linesByPayout_eq, h.records_eq, h'.records_eq]
  apply settlementLines_filter_eq hK
  intro x hx hp
  rw [hK.parent _ hx ⟨.payout, x.payoutId⟩ (by simp [parentsOf]), of_decide_eq_true hp]
  exact hid

omit h' in
/-- A payout outside `K` shares its day with no record of `K`. -/
theorem not_mem_of_payoutDate {payout : Payout} (hpayout : payout ∈ b.records.payouts)
    (hid : ¬ K ⟨.payout, payout.payoutId⟩) {r : FinancialRecord}
    (hr : r ∈ before.canonicalRecords ∨ r ∈ after.canonicalRecords)
    (hday : payout.payoutDate ∈ daysOf r) : ¬ K (keyOf r) := by
  rw [h.records_eq, mem_payouts_iff] at hpayout
  exact fun hk => hid (hK.day r (.payout payout) hr (.inl hpayout) payout.payoutDate hday
    (by simp [daysOf]) hk)

theorem expectedForDate_agree {payout : Payout} (hpayout : payout ∈ b.records.payouts)
    (hid : ¬ K ⟨.payout, payout.payoutId⟩) :
    Books.expectedForDate movements payout.payoutDate =
      Books.expectedForDate movements' payout.payoutDate := by
  have hcaptured : ∀ x, .payment x ∈ before.canonicalRecords ∨ .payment x ∈ after.canonicalRecords →
      x.availableOn = some payout.payoutDate → ¬ K (keyOf (.payment x)) := fun x hx hday =>
    not_mem_of_payoutDate hK h hpayout hid hx (by simp [daysOf, hday])
  have hpayments : (b.capturedPayments.filter fun p => p.availableOn = some payout.payoutDate) =
      b'.capturedPayments.filter fun p => p.availableOn = some payout.payoutDate :=
    captured_filter_eq hK h h' fun x hx _ hp => hcaptured x hx (of_decide_eq_true hp)
  have hrefunds : (b.successfulRefunds.filter fun r => r.availableOn = some payout.payoutDate) =
      b'.successfulRefunds.filter fun r => r.availableOn = some payout.payoutDate :=
    succeeded_filter_eq hK h h' fun x hx _ hp => not_mem_of_payoutDate hK h hpayout hid hx
      (by simp [daysOf, of_decide_eq_true hp])
  rw [Books.expectedForDate_eq_sorted h.movements_eq, Books.expectedForDate_eq_sorted h'.movements_eq,
    ← hrefunds]
  congr 2
  rw [← hpayments]
  refine List.flatMap_congr fun p hp => ?_
  obtain ⟨hp, hday⟩ := List.mem_filter.mp hp
  have hmem := Books.mem_capturedPayments.mp hp
  rw [h.records_eq, mem_payments_iff] at hmem
  have hout : ¬ K ⟨.payment, p.paymentId⟩ := hcaptured p (.inl hmem.1) (of_decide_eq_true hday)
  rw [Books.captureMovements, Books.captureMovements, Books.feeMovementId, Books.feeMovementId,
    feesByPayment_agree hK h h' hout, expectedFee_agree hK h h' hp hout]

theorem expectedLineAmount_agree {m : ExpectedMovement}
    (hid : ¬ K ⟨ImpactGraph.movementEntity m.movementType, m.movementId⟩) :
    b.expectedLineAmount m = b'.expectedLineAmount m := by
  rw [Books.expectedLineAmount, Books.expectedLineAmount]
  split_ifs with htype
  · rw [htype] at hid
    rw [feeById_agree hK h h' hid]
  · rfl

omit h' in
/-- A line of a payout outside `K`, and the record it names, are outside `K`. -/
theorem not_mem_of_line {line : SettlementLine} (hline : line ∈ b.records.settlementLines)
    (hid : ¬ K ⟨.payout, line.payoutId⟩) :
    ¬ K ⟨ImpactGraph.movementEntity line.movementType, line.movementId⟩ := by
  rw [h.records_eq, mem_settlementLines_iff] at hline
  have hout := (hK.parent _ (.inl hline) ⟨.payout, line.payoutId⟩ (by simp [parentsOf])).not.mpr hid
  exact (hK.parent _ (.inl hline) _ (by simp [parentsOf])).not.mp hout

theorem movementFinding_agree {payout : Payout} (hid : ¬ K ⟨.payout, payout.payoutId⟩)
    (m : ExpectedMovement) : b.movementFinding payout m = b'.movementFinding payout m := by
  unfold Books.movementFinding
  rw [← linesByPayout_agree hK h h' hid, PyDict.getD_groupBy]
  cases hlines : (b.linesByPayout payout.payoutId).filter
      fun line => line.movementKey = m.movementKey with
  | nil => rw [run_eq h h']
  | cons line rest =>
    cases rest with
    | cons => rfl
    | nil =>
      have hline : line ∈ (b.linesByPayout payout.payoutId).filter
          fun line => line.movementKey = m.movementKey := by
        rw [hlines]
        exact List.mem_cons_self ..
      obtain ⟨hline, hkey⟩ := List.mem_filter.mp hline
      rw [Books.linesByPayout_eq, List.mem_filter, decide_eq_true_eq] at hline
      obtain ⟨hline, hpid⟩ := hline
      obtain ⟨htype, hmid⟩ := Prod.mk.inj (of_decide_eq_true hkey)
      have hout := not_mem_of_line hK h hline (hpid ▸ hid)
      rw [htype, hmid] at hout
      rw [expectedLineAmount_agree hK h h' hout, run_eq h h']

theorem payoutFindings_agree {payout : Payout} (hpayout : payout ∈ b.records.payouts)
    (hid : ¬ K ⟨.payout, payout.payoutId⟩) :
    b.payoutFindings movements payout = b'.payoutFindings movements' payout := by
  have htotal : b.payoutTotalFinding payout = b'.payoutTotalFinding payout := by
    rw [Books.payoutTotalFinding, Books.payoutTotalFinding, Books.reportedLineTotal,
      Books.reportedLineTotal, linesByPayout_agree hK h h' hid, run_eq h h', states_eq h h']
  have hmovements : b.movementFinding payout = b'.movementFinding payout := by
    funext m
    exact movementFinding_agree hK h h' hid m
  rw [Books.payoutFindings, Books.payoutFindings, htotal, hmovements,
    expectedForDate_agree hK h h' hpayout hid, states_eq h h']

/-- Lines of one movement are all inside or all outside `K`. -/
theorem duplicateMovementFindings_agree {f : Finding} {id : Text} (hid : ¬ K ⟨.payout, id⟩)
    (hf : f ∈ b.duplicateMovementFindings) (hmark : id ∈ f.payoutIds) :
    f ∈ b'.duplicateMovementFindings := by
  rw [Books.mem_duplicateMovementFindings_iff] at hf ⊢
  obtain ⟨hstate, line, -, hf⟩ := hf
  refine ⟨states_eq h h' ▸ hstate, ?_⟩
  have hf' := hf
  unfold Books.duplicateMovementFinding at hf
  split_ifs at hf
  · cases hf
  · -- a line of the payout is in the group, so the record that the group names is outside `K`
    rw [List.mem_singleton.mp hf] at hmark
    obtain ⟨own, hown, rfl⟩ := List.mem_map.mp hmark
    obtain ⟨hown, hkey⟩ := List.mem_filter.mp hown
    have hkey : own.movementKey = line.movementKey := of_decide_eq_true hkey
    have hout := not_mem_of_line hK h hown hid
    have hgroup : (b.records.settlementLines.filter fun l => l.movementKey = own.movementKey) =
        b'.records.settlementLines.filter fun l => l.movementKey = own.movementKey := by
      rw [h.records_eq, h'.records_eq]
      apply settlementLines_filter_eq hK
      intro x hx hp
      obtain ⟨htype, hmid⟩ := Prod.mk.inj (of_decide_eq_true hp)
      rw [hK.parent _ hx ⟨ImpactGraph.movementEntity x.movementType, x.movementId⟩
        (by simp [parentsOf]), htype, hmid]
      exact hout
    refine ⟨own, ?_, ?_⟩
    · have hmem : own ∈ b.records.settlementLines.filter
          fun l => l.movementKey = own.movementKey := List.mem_filter.mpr ⟨hown, by simp⟩
      rw [hgroup] at hmem
      exact List.mem_of_mem_filter hmem
    · rw [← hgroup, hkey, Books.duplicateMovementFinding, ← run_eq h h',
        ← Books.duplicateMovementFinding]
      exact hf'

/-- A payout row outside `K` is a row of the other run. -/
theorem payoutRows_agree {results : List CompletenessResult} {row : PayoutReconciliation}
    (hid : ¬ K ⟨.payout, row.payoutId⟩)
    (hrow : row ∈ b.payoutRows movements (b.middleFindings before results)) :
    row ∈ b'.payoutRows movements' (b'.middleFindings after results) := by
  obtain ⟨payout, hpayout, rfl⟩ := mem_payoutRows.mp hrow
  have hid : ¬ K ⟨.payout, payout.payoutId⟩ := hid
  refine mem_payoutRows.mpr ⟨payout, (payouts_agree hK h h' hid).mp hpayout, ?_⟩
  have hcodes : codesOf Finding.payoutIds (b'.middleFindings after results ++
      b'.payoutFindings movements' payout) payout.payoutId =
      codesOf Finding.payoutIds (b.middleFindings before results ++
        b.payoutFindings movements payout) payout.payoutId := by
    apply codesOf_eq_of_mem
    intro f hmark
    rw [List.mem_append, List.mem_append, Books.middleFindings_payoutIds hmark,
      Books.middleFindings_payoutIds hmark, payoutFindings_agree hK h h' hpayout hid]
    exact or_congr_left ⟨fun hf => duplicateMovementFindings_agree hK.symm h' h hid hf hmark,
      fun hf => duplicateMovementFindings_agree hK h h' hid hf hmark⟩
  rw [hcodes]
  simp only [Books.payoutRow, Books.reportedLineTotal, linesByPayout_agree hK h h' hid,
    expectedForDate_agree hK h h' hpayout hid, run_eq h h', states_eq h h']

end TwoRuns

end Threadline
