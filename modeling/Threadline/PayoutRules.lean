import Threadline.TransactionRules

/-!
# What a reconciled payout explains

Each expected movement of a reconciled payout's date has exactly one settlement
line, of the payout, and the header, the lines and the movements have one total.
The lines are not compared with the movements in the other direction.
-/

open PyText PyCalendar PySorted

namespace Threadline

namespace Books

variable {b : Books}

/-! ## Expected movements -/

theorem capturedMovements_eq_ok {p : Payment} {ms : List ExpectedMovement} :
    b.capturedMovements p = .ok ms ↔ ∃ d, p.availableOn = some d ∧ b.captureMovements p d = ms := by
  unfold capturedMovements
  cases p.availableOn <;> simp

theorem refundedMovement_eq_ok {r : Refund} {m : ExpectedMovement} :
    refundedMovement r = .ok m ↔ ∃ d, r.availableOn = some d ∧ refundMovement r d = m := by
  unfold refundedMovement
  cases r.availableOn <;> simp

/-- The movements of a run come from its captures and refunds. -/
theorem mem_expectedMovements {movements : List ExpectedMovement}
    (h : b.expectedMovements = .ok movements) {m : ExpectedMovement} : m ∈ movements ↔
      (∃ p ∈ b.capturedPayments, ∃ d, p.availableOn = some d ∧ m ∈ b.captureMovements p d) ∨
      ∃ r ∈ b.successfulRefunds, ∃ d, r.availableOn = some d ∧ refundMovement r d = m := by
  obtain ⟨captures, hcaptures, h⟩ := PyExcept.bind_eq_ok.mp h
  obtain ⟨refunds, hrefunds, h⟩ := PyExcept.bind_eq_ok.mp h
  obtain rfl := Except.ok.inj h
  rw [mem_sortedBy, List.mem_append, List.mem_flatten, PyExcept.mem_of_mapM_eq_ok hrefunds]
  simp only [PyExcept.mem_of_mapM_eq_ok hcaptures, capturedMovements_eq_ok, refundedMovement_eq_ok]
  refine or_congr ⟨?_, ?_⟩ Iff.rfl
  · rintro ⟨_, ⟨p, hp, d, hd, rfl⟩, hm⟩
    exact ⟨p, hp, d, hd, hm⟩
  · rintro ⟨p, hp, d, hd, hm⟩
    exact ⟨_, ⟨p, hp, d, hd, rfl⟩, hm⟩

/-! ## Marks of the findings -/

theorem unmarked_movementFinding (payout : Payout) (m : ExpectedMovement) :
    Unmarked Finding.payoutIds (b.movementFinding payout m) payout.payoutId →
      (b.linesByPayout payout.payoutId).filter (fun line => line.movementKey = m.movementKey) ≠
        [] := by
  intro h hnil
  rw [movementFinding, PyDict.getD_groupBy, hnil, unmarked_singleton] at h
  exact h (List.mem_singleton_self _)

theorem unmarked_payoutTotalFinding {payout : Payout}
    (hcomplete : reportsComplete b.states [.settlementLines, .payouts] = true) :
    Unmarked Finding.payoutIds (b.payoutTotalFinding payout) payout.payoutId ↔
      payout.reportedNetAmount = b.reportedLineTotal payout := by
  refine (unmarked_rule rfl).trans ?_
  split_ifs with h
  · exact iff_of_false (by simp) (by omega)
  · refine iff_of_true unmarked_nil ?_
    by_contra hne
    exact h ⟨hcomplete, by omega⟩

/-- The lines of an unmarked payout are the only lines of their movements. -/
theorem unmarked_duplicateMovementFindings (hcomplete : b.states .settlementLines = .complete)
    (payoutId : Text) :
    Unmarked Finding.payoutIds b.duplicateMovementFindings payoutId ↔
      ∀ line ∈ b.records.settlementLines, line.payoutId = payoutId →
        (b.records.settlementLines.filter fun l => l.movementKey = line.movementKey) = [line] := by
  have hitem : ∀ item, item ∈ (PyDict.groupBy SettlementLine.movementKey
      b.records.settlementLines).items → item.2 = b.records.settlementLines.filter
        fun l => l.movementKey = item.1 := by
    intro item hitem
    have hget := PyDict.mem_items_iff.mp hitem
    rw [← PyDict.getD_groupBy, PyDict.getD, hget, Option.getD_some]
  rw [duplicateMovementFindings, if_pos hcomplete, unmarked_flatMap]
  simp only [mem_sortedBy]
  constructor
  · intro h line hline hid
    obtain ⟨group, hget⟩ := PyDict.mem_keys_iff.mp
      (PyDict.mem_keys_groupBy.mpr ⟨line, hline, rfl⟩ : line.movementKey ∈
        (PyDict.groupBy SettlementLine.movementKey b.records.settlementLines).keys)
    have hmem := PyDict.mem_items_iff.mpr hget
    have hgroup : group = b.records.settlementLines.filter
        fun l => l.movementKey = line.movementKey := hitem _ hmem
    have hin : line ∈ group := by
      rw [hgroup]
      exact List.mem_filter.mpr ⟨hline, by simp⟩
    have hun := h _ hmem
    unfold duplicateMovementFinding at hun
    simp only at hun
    split_ifs at hun with hlen
    · rw [← hgroup]
      exact (List.length_eq_one_iff.mp (le_antisymm hlen (List.length_pos_of_mem hin))).elim
        fun l hl => by rw [hl] at hin ⊢; rw [List.mem_singleton.mp hin]
    · rw [unmarked_singleton] at hun
      exact absurd (hid ▸ List.mem_map_of_mem hin) hun
  · intro h item hmem
    unfold duplicateMovementFinding
    split_ifs with hlen
    · exact unmarked_nil
    · rw [unmarked_singleton]
      intro hid
      obtain ⟨line, hline, hlid⟩ := List.mem_map.mp hid
      rw [hitem item hmem] at hline hlen
      obtain ⟨hline, hkey⟩ := List.mem_filter.mp hline
      have hkey : line.movementKey = item.1 := by simpa using hkey
      apply hlen
      rw [← hkey, h line hline hlid]
      exact le_refl 1

end Books

/-! ## The rows -/

section Rows

variable {runId : Text} {detectedAt : UtcDateTime} {canonicalization : CanonicalizationResult}
  {completenessResults : List CompletenessResult} {b : Books} {movements : List ExpectedMovement}

theorem mem_payoutRows {before : List Finding} {row : PayoutReconciliation} :
    row ∈ b.payoutRows movements before ↔ ∃ payout ∈ b.records.payouts, b.payoutRow movements
      (codesOf Finding.payoutIds (before ++ b.payoutFindings movements payout) payout.payoutId)
      payout = row := by
  simp [Books.payoutRows]

/-- The evidence of a reconciled payout row. -/
theorem payoutRow_reconciled {before : List Finding} {payout : Payout}
    (h : (b.payoutRow movements (codesOf Finding.payoutIds
      (before ++ b.payoutFindings movements payout) payout.payoutId) payout).state = .reconciled) :
    (∀ t ∈ payoutRequiredReports, b.states t = .complete) ∧
      Unmarked Finding.payoutIds before payout.payoutId ∧
      Unmarked Finding.payoutIds (b.payoutFindings movements payout) payout.payoutId ∧
      payout.reportedNetAmount =
        ((Books.expectedForDate movements payout.payoutDate).map
          ExpectedMovement.signedAmount).sum := by
  obtain ⟨hcomplete, hblocking⟩ := resultState_eq_reconciled.mp h
  simp only [decide_eq_false_iff_not, not_or, not_not] at hblocking
  obtain ⟨hcodes, hvariance⟩ := hblocking
  rw [codesOf_eq_nil, unmarked_append] at hcodes
  exact ⟨hcomplete, hcodes.1, hcodes.2, by omega⟩

end Rows

/-- A reconciled payout has one total in its header, its settlement lines and the movements of its
date. Each of these movements has exactly one settlement line, and it is of this payout; no
movement has two. -/
theorem reconciled_payout_explained {runId : Text} {detectedAt : UtcDateTime}
    {canonicalization : CanonicalizationResult} {completenessResults : List CompletenessResult}
    {quarantineRecords : List QuarantinedRecord} {result : ReconciliationResult}
    (h : reconcile runId detectedAt canonicalization completenessResults quarantineRecords =
      .ok result)
    {row : PayoutReconciliation} (hrow : row ∈ result.payouts) (hstate : row.state = .reconciled) :
    (∃ payout, .payout payout ∈ canonicalization.canonicalRecords ∧
      payout.payoutId = row.payoutId ∧ payout.payoutDate = row.payoutDate ∧
      payout.reportedNetAmount = row.reportedNetAmount) ∧
    row.reportedNetAmount = (((splitCanonicalRecords canonicalization).settlementLines.filter
      fun line => line.payoutId = row.payoutId).map SettlementLine.signedAmount).sum ∧
    row.reportedNetAmount = ((result.expectedMovements.filter
      fun m => m.availableOn = row.payoutDate).map ExpectedMovement.signedAmount).sum ∧
    (∀ m ∈ result.expectedMovements, m.availableOn = row.payoutDate → ∃ line,
      ((splitCanonicalRecords canonicalization).settlementLines.filter
        fun l => l.movementKey = m.movementKey) = [line] ∧ line.payoutId = row.payoutId) ∧
    ∀ line ∈ (splitCanonicalRecords canonicalization).settlementLines,
      line.payoutId = row.payoutId →
        ((splitCanonicalRecords canonicalization).settlementLines.filter
          fun l => l.movementKey = line.movementKey) = [line] := by
  obtain ⟨b, movements, hopened, rfl⟩ := reconcile_ok h
  rw [← hopened.records_eq]
  obtain ⟨payout, hpayout, rfl⟩ := mem_payoutRows.mp ((mem_sortedBy _).mp hrow)
  obtain ⟨hcomplete, hbefore, hown, htotal⟩ := payoutRow_reconciled hstate
  have hgate : ∀ required, required ⊆ payoutRequiredReports →
      reportsComplete b.states required = true := by
    intro required hsub
    exact reportsComplete_iff.mpr fun t ht => hcomplete t (hsub ht)
  rw [Books.middleFindings, unmarked_append,
    Books.unmarked_duplicateMovementFindings (hcomplete _ (by decide))] at hbefore
  rw [Books.payoutFindings, if_pos (hgate _ (by decide)), unmarked_append, unmarked_flatMap,
    Books.unmarked_payoutTotalFinding (hgate _ (by decide))] at hown
  refine ⟨⟨payout, ?_, rfl, rfl, rfl⟩, ?_, ?_, ?_, hbefore.2⟩
  · rw [← mem_payouts_iff, ← hopened.records_eq]
    exact hpayout
  · rw [← Books.linesByPayout_eq]
    exact hown.2
  · rw [← Books.expectedForDate_eq]
    exact htotal
  · intro m hm hdate
    have hlines := Books.unmarked_movementFinding payout m (hown.1 m (by
      rw [Books.expectedForDate_eq]
      exact List.mem_filter.mpr ⟨hm, decide_eq_true hdate⟩))
    obtain ⟨line, hline⟩ := List.exists_mem_of_ne_nil _ hlines
    rw [Books.linesByPayout_eq, List.filter_filter, List.mem_filter] at hline
    obtain ⟨hline, hkey⟩ := hline
    simp only [Bool.and_eq_true, decide_eq_true_eq] at hkey
    refine ⟨line, ?_, hkey.2⟩
    rw [← hkey.1]
    exact hbefore.2 line hline hkey.2

/-! ## Unmatched lines that offset each other -/

namespace PaidDay

def settlementLine (id : Text) (type : MovementType) (movementId : Text) (signedAmount : ℤ) :
    SettlementLine where
  sourceVersion := 1
  settlementLineId := id
  payoutId := txt "POUT-1"
  movementType := type
  movementId := movementId
  signedAmount := signedAmount
  currency := eur

def captureLine : SettlementLine := settlementLine (txt "LINE-1") .capture (txt "PAY-1") 10000

def feeLine : SettlementLine := settlementLine (txt "LINE-2") .fee (txt "FEE-1") (-200)

def unmatchedCaptureLine : SettlementLine :=
  settlementLine (txt "LINE-3") .capture (txt "PAY-9") 500

def unmatchedRefundLine : SettlementLine :=
  settlementLine (txt "LINE-4") .refund (txt "REF-9") (-500)

def payout : Payout where
  sourceVersion := 1
  payoutId := txt "POUT-1"
  payoutDate := september 16 valid16
  currency := eur
  reportedNetAmount := 9800

def captureLineRow : DigestRow where
  receiptId := txt "settlement_lines.json:1"
  record := .settlementLine captureLine
  digest := txt "f624f0911f8d2f110c41c32148bc03cb469e805d1e722139297c9341c5fdc4ce"

def feeLineRow : DigestRow where
  receiptId := txt "settlement_lines.json:2"
  record := .settlementLine feeLine
  digest := txt "0be84ad5af35ba5574486281c30f86fd546ed1a71b85a5b8ba89625b73cd321c"

def payoutRow : DigestRow where
  receiptId := txt "payouts.json:1"
  record := .payout payout
  digest := txt "d593d9b78a990c997f1e4f3832f842dc63e3de574ab11ac2f5be262e23c86e85"

def unmatchedLinesReceipts : DigestTable where
  rows := [orderRow, paymentRow, feeRow, captureLineRow, feeLineRow,
    ⟨txt "settlement_lines.json:3", .settlementLine unmatchedCaptureLine,
      txt "40769614c69b8ea5265880ee31af9947b3489127f09ca2674e37cfaa294b8784"⟩,
    ⟨txt "settlement_lines.json:4", .settlementLine unmatchedRefundLine,
      txt "c6ef824c4001899aae82a340784f0ea4404a3319cfdca726359982a1a105e608"⟩,
    payoutRow]
  digest_iff := by decide +kernel
  receiptIds := by decide +kernel
  encodable := by decide +kernel

def unmatchedLinesDay : ReplayedDay where
  receipts := unmatchedLinesReceipts
  completenessResults := completeReports
  canonicalizes := by decide +kernel
  reconciles := by decide +kernel

/-- A payout reconciles with a settlement line of a movement that is not expected. -/
theorem unmatchedLinesDay_reconciled :
    .settlementLine unmatchedCaptureLine ∈
      unmatchedLinesDay.canonicalization.canonicalRecords ∧
    (∀ m ∈ unmatchedLinesDay.result.expectedMovements,
      m.movementKey ≠ unmatchedCaptureLine.movementKey) ∧
    ∃ row ∈ unmatchedLinesDay.result.payouts,
      row.payoutId = unmatchedCaptureLine.payoutId ∧ row.state = .reconciled := by
  decide +kernel

def settledReceipts : DigestTable where
  rows := [orderRow, paymentRow, feeRow, captureLineRow, feeLineRow, payoutRow]
  digest_iff := by decide +kernel
  receiptIds := by decide +kernel
  encodable := by decide +kernel

def settledDay : ReplayedDay where
  receipts := settledReceipts
  completenessResults := completeReports
  canonicalizes := by decide +kernel
  reconciles := by decide +kernel

/-- The payout of a settled day has the total of the movements of its date. -/
theorem reconciled_payout_explained_settledDay :
    ∃ row ∈ settledDay.result.payouts, row.state = .reconciled ∧
      row.reportedNetAmount = ((settledDay.result.expectedMovements.filter
        fun m => m.availableOn = row.payoutDate).map ExpectedMovement.signedAmount).sum := by
  have hrow : ∃ row ∈ settledDay.result.payouts, row.state = .reconciled := by decide +kernel
  obtain ⟨row, hrow, hstate⟩ := hrow
  obtain ⟨-, -, htotal, -⟩ := reconciled_payout_explained settledDay.reconcile_eq hrow hstate
  exact ⟨row, hrow, hstate, htotal⟩

end PaidDay

end Threadline
