import Threadline.WindowRows

/-!
# Affected windows are enough

A plan of windows names every order and payout whose row a change can move.
-/

open PyText PyCalendar PySorted

namespace Threadline

namespace ImpactGraph

variable {g : ImpactGraph} {records : List FinancialRecord} {seeds : List RecordKey}

/-- A key reached without reasons is a known key, and its record has no issue. -/
theorem Holds.reached {k : RecordKey} (h : g.Holds records)
    (hreasons : (g.expand seeds).2.reasons = []) (hk : g.Reachable seeds k) :
    (∃ r ∈ records, keyOf r = k) ∧ ∀ r ∈ records, keyOf r = k → ownIssues r = [] := by
  have hnone : ∀ i, i ∉ g.reasonsOf k := fun i hi => by
    have hmem := mem_expand_reasons.mpr ⟨k, hk, hi⟩
    rw [hreasons] at hmem
    cases hmem
  constructor
  · rw [← h.known]
    by_contra hunknown
    exact hnone (missingReason k) (by simp [reasonsOf, hunknown])
  · intro r hr hrk
    refine List.eq_nil_iff_forall_not_mem.mpr fun i hi => hnone i ?_
    exact List.mem_append_left _ ((h.issues k i).mpr ⟨r, hr, hrk, hi⟩)

/-- Without issues a record names all of its relationships. -/
theorem sourceId_ne_nil_of_ownIssues {r : FinancialRecord} (h : ownIssues r = []) :
    ∀ parent ∈ parentsOf r, parent.sourceId ≠ [] := by
  intro parent hparent hnil
  have hmem : txt "MISSING_RELATIONSHIP_ID" ∈ ownIssues r := by
    refine List.mem_append_left _ (List.mem_flatMap.mpr ⟨parent, hparent, ?_⟩)
    simp [linkIssues, hnil]
  rw [h] at hmem
  cases hmem

/-- The keys that the changes reach are closed under relationships and shared days. -/
theorem Holds.isolated {before after changed : List FinancialRecord}
    (h : g.Holds (before ++ after ++ changed))
    (hids : ∀ r ∈ before ++ after ++ changed, r.recordId ≠ [])
    (hreasons : (g.expand seeds).2.reasons = []) (hseeds : ∀ r ∈ changed, keyOf r ∈ seeds)
    (hchanged : ∀ r, ¬ (r ∈ before ↔ r ∈ after) → r ∈ changed) :
    Isolated (g.Reachable seeds) before after := by
  have hrecords : ∀ {r}, r ∈ before ∨ r ∈ after → r ∈ before ++ after ++ changed := by
    intro r hr
    simp only [List.mem_append]
    exact .inl hr
  constructor
  · intro r hr
    by_contra hdiffers
    exact hr (.seed (hseeds r (hchanged r hdiffers)))
  · intro r hr parent hparent
    have hmem := hrecords hr
    constructor
    · intro hk
      have hne := sourceId_ne_nil_of_ownIssues ((h.reached hreasons hk).2 r hmem rfl) parent hparent
      exact .neighbor hk ((h.neighbors _ _).mpr ⟨r, hmem, parent, hparent, hne, .inl ⟨rfl, rfl⟩⟩)
    · intro hk
      obtain ⟨⟨s, hs, hsk⟩, -⟩ := h.reached hreasons hk
      have hne : parent.sourceId ≠ [] := by
        rw [← hsk]
        exact hids s hs
      exact .neighbor hk ((h.neighbors _ _).mpr ⟨r, hmem, parent, hparent, hne, .inr ⟨rfl, rfl⟩⟩)
  · intro r r' hr hr' d hd hd' hk
    exact .sameDay hk ((h.dates _ _).mpr ⟨r, hrecords hr, rfl, hd⟩)
      ((h.keysOn _ _).mpr ⟨r', hrecords hr', rfl, hd'⟩)

end ImpactGraph

/-- A plan of windows comes from an expansion without reasons, and lists what it reached. -/
theorem planAffectedWindows_windows {before after changed : List FinancialRecord}
    {changeKind : ChangeKind} {canonicalChanged completenessChanged : Bool}
    {plan : AffectedWindowPlan} (h : planAffectedWindows before after changed changeKind
      canonicalChanged completenessChanged = .ok plan) (hscope : plan.scope = .windows) :
    ∃ (g : ImpactGraph) (seeds : List RecordKey),
      (before ++ after ++ changed).foldlM ImpactGraph.add .empty = .ok g ∧
      (∀ k, k ∈ seeds ↔ ∃ r ∈ changed, keyOf r = k) ∧ (g.expand seeds).2.reasons = [] ∧
      (∀ id, id ∈ plan.orderIds ↔ g.Reachable seeds ⟨.order, id⟩) ∧
      ∀ id, id ∈ plan.payoutIds ↔ g.Reachable seeds ⟨.payout, id⟩ := by
  unfold planAffectedWindows at h
  split_ifs at h with hcompleteness hnone hempty
  · rw [← Except.ok.inj h] at hscope
    cases hscope
  · rw [← Except.ok.inj h] at hscope
    cases hscope
  · rw [← Except.ok.inj h] at hscope
    cases hscope
  · obtain ⟨g, hg, h⟩ := PyExcept.bind_eq_ok.mp h
    obtain ⟨keys, hkeys, h⟩ := PyExcept.bind_eq_ok.mp h
    obtain ⟨windows, -, h⟩ := PyExcept.bind_eq_ok.mp h
    have hids : ∀ (t : EntityType) (sourceId : Text), sourceId ∈ sortedBy id
        (((g.expand keys.dedup).1.filter fun key => key.entityType = t).map RecordKey.sourceId) ↔
          g.Reachable keys.dedup ⟨t, sourceId⟩ := by
      intro t sourceId
      rw [mem_sortedBy, List.mem_map, ← ImpactGraph.mem_expand]
      constructor
      · rintro ⟨key, hmem, rfl⟩
        obtain ⟨hmem, ht⟩ := List.mem_filter.mp hmem
        rw [← of_decide_eq_true ht]
        exact hmem
      · intro hmem
        exact ⟨⟨t, sourceId⟩, List.mem_filter.mpr ⟨hmem, by simp⟩, rfl⟩
    have hreasons : (g.expand keys.dedup).2.reasons = [] := by
      have hwindows : (if (g.expand keys.dedup).2.reasons ≠ [] then RecoveryScope.full
          else .windows) = .windows :=
        (congrArg AffectedWindowPlan.scope (Except.ok.inj h)).trans hscope
      split_ifs at hwindows with hne
      exact not_not.mp hne
    refine ⟨g, keys.dedup, hg, fun k => ?_, hreasons, ?_, ?_⟩
    · rw [List.mem_dedup, PyExcept.mem_of_mapM_eq_ok hkeys]
      constructor
      · rintro ⟨r, hr, hk⟩
        exact ⟨r, hr, (ImpactGraph.recordKey_eq_ok.mp hk).2⟩
      · rintro ⟨r, hr, rfl⟩
        have hid := (ImpactGraph.holds_of_foldlM hg).2 r (List.mem_append_right _ hr)
        exact ⟨r, hr, ImpactGraph.recordKey_eq_ok.mpr ⟨hid, rfl⟩⟩
    · rw [← Except.ok.inj h]
      exact hids .order
    · rw [← Except.ok.inj h]
      exact hids .payout

/-- Outside the orders and payouts of a plan of windows, the rows before and after are the same. -/
theorem affected_windows_sound {runId : Text} {detectedAt : UtcDateTime}
    {before after : CanonicalizationResult} {completenessResults : List CompletenessResult}
    {quarantineBefore quarantineAfter : List QuarantinedRecord}
    {resultBefore resultAfter : ReconciliationResult}
    (hbefore : reconcile runId detectedAt before completenessResults quarantineBefore =
      .ok resultBefore)
    (hafter : reconcile runId detectedAt after completenessResults quarantineAfter =
      .ok resultAfter)
    {changed : List FinancialRecord} (hchanged : ∀ r,
      ¬ (r ∈ before.canonicalRecords ↔ r ∈ after.canonicalRecords) → r ∈ changed)
    {changeKind : ChangeKind} {canonicalChanged completenessChanged : Bool}
    {plan : AffectedWindowPlan} (hplan : planAffectedWindows before.canonicalRecords
      after.canonicalRecords changed changeKind canonicalChanged completenessChanged = .ok plan)
    (hscope : plan.scope = .windows) :
    (∀ row : TransactionReconciliation, row.orderId ∉ plan.orderIds →
      (row ∈ resultBefore.transactions ↔ row ∈ resultAfter.transactions)) ∧
    ∀ row : PayoutReconciliation, row.payoutId ∉ plan.payoutIds →
      (row ∈ resultBefore.payouts ↔ row ∈ resultAfter.payouts) := by
  obtain ⟨g, seeds, hg, hseeds, hreasons, horders, hpayouts⟩ :=
    planAffectedWindows_windows hplan hscope
  obtain ⟨hholds, hids⟩ := ImpactGraph.holds_of_foldlM hg
  have hK := hholds.isolated hids hreasons (fun r hr => (hseeds _).mpr ⟨r, hr, rfl⟩) hchanged
  obtain ⟨b, movements, hopened, rfl⟩ := reconcile_ok hbefore
  obtain ⟨b', movements', hopened', rfl⟩ := reconcile_ok hafter
  constructor
  · intro row hrow
    rw [horders] at hrow
    simp only [Books.result, mem_sortedBy]
    exact ⟨transactionRows_agree hK hopened hopened' hrow,
      transactionRows_agree hK.symm hopened' hopened hrow⟩
  · intro row hrow
    rw [hpayouts] at hrow
    simp only [Books.result, mem_sortedBy]
    exact ⟨payoutRows_agree hK hopened hopened' hrow,
      payoutRows_agree hK.symm hopened' hopened hrow⟩

/-! ## The payout of a paid day -/

namespace PaidDay

def otherOrder : Order where
  sourceVersion := 1
  orderId := txt "ORD-2"
  createdAtUtc := atTen (september 14 valid14)
  status := .cancelled
  currency := eur
  orderTotal := 5000

def otherOrderRow : DigestRow where
  receiptId := txt "orders.json:2"
  record := .order otherOrder
  digest := txt "8edfb26f07e428937c252cca005ca8ab187c2455c56f4efc9986f87095d28564"

def unsettledReceipts : DigestTable where
  rows := [orderRow, otherOrderRow, paymentRow, feeRow]
  digest_iff := by decide +kernel
  receiptIds := by decide +kernel
  encodable := by decide +kernel

def unsettledDay : ReplayedDay where
  receipts := unsettledReceipts
  completenessResults := completeReports
  canonicalizes := by decide +kernel
  reconciles := by decide +kernel

def paidOutReceipts : DigestTable where
  rows := [orderRow, otherOrderRow, paymentRow, feeRow, captureLineRow, feeLineRow, payoutRow]
  digest_iff := by decide +kernel
  receiptIds := by decide +kernel
  encodable := by decide +kernel

def paidOutDay : ReplayedDay where
  receipts := paidOutReceipts
  completenessResults := completeReports
  canonicalizes := by decide +kernel
  reconciles := by decide +kernel

def payoutPlan : Except WindowError AffectedWindowPlan :=
  planAffectedWindows unsettledDay.canonicalization.canonicalRecords
    paidOutDay.canonicalization.canonicalRecords
    [.settlementLine captureLine, .settlementLine feeLine, .payout payout] .newFact true false

theorem payoutPlan_isSome : payoutPlan.toOption.isSome := by decide +kernel

/-- The payout of one order leaves the row of the other order. -/
theorem affected_windows_sound_payout :
    ∃ row ∈ unsettledDay.result.transactions, row.orderId = otherOrder.orderId ∧
      row ∈ paidOutDay.result.transactions := by
  have hrow : ∃ row ∈ unsettledDay.result.transactions, row.orderId = otherOrder.orderId := by
    decide +kernel
  have hchanged : ∀ r ∈ unsettledDay.canonicalization.canonicalRecords ++
      paidOutDay.canonicalization.canonicalRecords,
      ¬ (r ∈ unsettledDay.canonicalization.canonicalRecords ↔
        r ∈ paidOutDay.canonicalization.canonicalRecords) →
      r ∈ [.settlementLine captureLine, .settlementLine feeLine, .payout payout] := by
    decide +kernel
  obtain ⟨row, hrow, hid⟩ := hrow
  refine ⟨row, hrow, hid, ?_⟩
  refine ((affected_windows_sound unsettledDay.reconcile_eq paidOutDay.reconcile_eq (fun r hr => ?_)
    (PyExcept.eq_ok_of_isSome payoutPlan_isSome) (by decide +kernel)).1 row ?_).mp hrow
  · refine hchanged r ?_ hr
    rw [List.mem_append]
    by_contra hnot
    rw [not_or] at hnot
    exact hr (iff_of_false hnot.1 hnot.2)
  · rw [hid]
    decide +kernel

end PaidDay

end Threadline
