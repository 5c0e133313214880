import Threadline.CompletenessGates

/-!
# Row codes and exceptions

The codes of a row are collected beside the exceptions, under the order or the
payout. An exception names its own entity, and a row has its code exactly when
that entity belongs to the row.
-/

open PyText PyCalendar PySorted

namespace Threadline

/-! ## The row of an entity -/

/-- The exception names the entity. -/
def ReconciliationException.On (x : ReconciliationException) (entityType entityId : Text) : Prop :=
  x.entityType = entityType ∧ x.entityId = entityId

/-- The exception is on the order, on a captured payment of it or on a refund of such a payment. -/
inductive OnOrder (records : List FinancialRecord) (orderId : Text) (x : ReconciliationException) :
    Prop
  | order (h : x.On EntityType.order.value orderId)
  | payment (p : Payment) (hp : .payment p ∈ records) (hcaptured : p.status = .captured)
      (horder : p.orderId = orderId) (h : x.On EntityType.payment.value p.paymentId)
  | refund (p : Payment) (hp : .payment p ∈ records) (hcaptured : p.status = .captured)
      (horder : p.orderId = orderId) (r : Refund) (hr : .refund r ∈ records)
      (hof : r.paymentId = p.paymentId) (h : x.On EntityType.refund.value r.refundId)

/-- The exception is on the payout, on one of its lines, on a duplicated movement key that one of
its lines carries, or on a movement expected on its date that has no line in it. -/
inductive OnPayout (records : List FinancialRecord) (movements : List ExpectedMovement)
    (row : PayoutReconciliation) (x : ReconciliationException) : Prop
  | payout (h : x.On EntityType.payout.value row.payoutId)
  | line (line : SettlementLine) (hline : .settlementLine line ∈ records)
      (hof : line.payoutId = row.payoutId)
      (h : x.On EntityType.settlementLine.value line.settlementLineId)
  | duplicate (line twin : SettlementLine) (hline : .settlementLine line ∈ records)
      (hof : line.payoutId = row.payoutId) (htwin : .settlementLine twin ∈ records)
      (hne : twin ≠ line) (hkey : twin.movementKey = line.movementKey)
      (h : x.On (txt "SETTLEMENT_MOVEMENT") (movementText line.movementKey))
  | missing (m : ExpectedMovement) (hm : m ∈ movements) (hdate : m.availableOn = row.payoutDate)
      (hmissing : ∀ line, .settlementLine line ∈ records → line.payoutId = row.payoutId →
        line.movementKey ≠ m.movementKey)
      (h : x.On (txt "EXPECTED_MOVEMENT") (movementText m.movementKey))

/-- Codes of exceptions that no transaction row reflects. -/
def unreflectedCodes : List ExceptionCode :=
  [.orphanPayment, .orphanRefund, .unexpectedFee, .sourceReportMissing, .sourceReportInvalid,
    .conflictingSourceVersion]

theorem ReconciliationException.On.type_eq {x : ReconciliationException} {t t' : EntityType}
    {id id' : Text} (h : x.On t.value id) (h' : x.On t'.value id') : t = t' :=
  EntityType.value_injective (h.1.symm.trans h'.1)

theorem ReconciliationException.On.id_eq {x : ReconciliationException} {type type' id id' : Text}
    (h : x.On type id) (h' : x.On type' id') : id = id' := h.2.symm.trans h'.2

theorem ReconciliationException.On.ne {x : ReconciliationException} {type type' id id' : Text}
    (h : x.On type id) (h' : x.On type' id') (hne : type ≠ type') : False :=
  hne (h.1.symm.trans h'.1)

section Key

variable {x y : ReconciliationException}

theorem ReconciliationException.On.congr (hkey : exceptionKey x = exceptionKey y)
    {entityType entityId : Text} (h : x.On entityType entityId) : y.On entityType entityId := by
  obtain ⟨-, -, htype, hid⟩ := exceptionKey_eq_iff.mp hkey
  exact ⟨htype ▸ h.1, hid ▸ h.2⟩

theorem OnOrder.congr (hkey : exceptionKey x = exceptionKey y) {records : List FinancialRecord}
    {orderId : Text} (h : OnOrder records orderId x) : OnOrder records orderId y := by
  cases h with
  | order h => exact .order (h.congr hkey)
  | payment p hp hcaptured horder h => exact .payment p hp hcaptured horder (h.congr hkey)
  | refund p hp hcaptured horder r hr hof h =>
    exact .refund p hp hcaptured horder r hr hof (h.congr hkey)

theorem OnPayout.congr (hkey : exceptionKey x = exceptionKey y) {records : List FinancialRecord}
    {movements : List ExpectedMovement} {row : PayoutReconciliation}
    (h : OnPayout records movements row x) : OnPayout records movements row y := by
  cases h with
  | payout h => exact .payout (h.congr hkey)
  | line line hline hof h => exact .line line hline hof (h.congr hkey)
  | duplicate line twin hline hof htwin hne hsame h =>
    exact .duplicate line twin hline hof htwin hne hsame (h.congr hkey)
  | missing m hm hdate hmissing h => exact .missing m hm hdate hmissing (h.congr hkey)

end Key

/-- The exceptions that stand represent the findings. -/
theorem exists_exception_iff {findings : List Finding} {P : ReconciliationException → Prop}
    (hP : ∀ x y, exceptionKey x = exceptionKey y → P x → P y) :
    (∃ x ∈ uniqueExceptions (findings.map Finding.exception), P x) ↔
      ∃ f ∈ findings, P f.exception := by
  constructor
  · intro ⟨x, hx, hp⟩
    obtain ⟨f, hf, rfl⟩ := List.mem_map.mp (mem_of_mem_uniqueExceptions hx)
    exact ⟨f, hf, hp⟩
  · intro ⟨f, hf, hp⟩
    obtain ⟨x, hx, -, hkey⟩ := exists_mem_uniqueExceptions (List.mem_map_of_mem hf)
    exact ⟨x, hx, hP _ _ hkey.symm hp⟩

/-! ## Findings about transactions -/

namespace Books

variable {b : Books} {f : Finding}

/-- What a finding of the transaction rules names and which orders it marks. -/
inductive TransactionFinding (b : Books) (f : Finding) : Prop
  | unreflected (hcode : f.exception.exceptionType ∈ unreflectedCodes)
  | order (o : Order) (hmarks : f.orderIds = [o.orderId])
      (h : f.exception.On EntityType.order.value o.orderId)
  | payment (p : Payment) (hp : p ∈ b.capturedPayments) (hmarks : f.orderIds = [p.orderId])
      (h : f.exception.On EntityType.payment.value p.paymentId)
  | refund (p : Payment) (hp : p ∈ b.capturedPayments) (r : Refund) (hr : r ∈ b.records.refunds)
      (hof : r.paymentId = p.paymentId) (hmarks : f.orderIds = [p.orderId])
      (h : f.exception.On EntityType.refund.value r.refundId)

theorem paymentFinding_spec {p : Payment} (hf : f ∈ b.paymentFinding p) :
    b.TransactionFinding f := by
  unfold paymentFinding at hf
  split at hf
  · rw [List.mem_singleton.mp hf]
    exact .unreflected List.mem_cons_self
  next o _ =>
    split_ifs at hf
    · rw [List.mem_singleton.mp hf]
      exact .order o rfl ⟨rfl, rfl⟩
    · cases hf

theorem refundFinding_spec {r : Refund} (hr : r ∈ b.successfulRefunds)
    (hf : f ∈ b.refundFinding r) : b.TransactionFinding f := by
  unfold refundFinding at hf
  split at hf
  · rw [List.mem_singleton.mp hf]
    exact .unreflected (List.mem_cons_of_mem _ List.mem_cons_self)
  next p hpayment =>
    obtain ⟨hp, hid⟩ := capturedPaymentById_eq_some.mp hpayment
    split_ifs at hf
    · rw [List.mem_singleton.mp hf]
      exact .refund p hp r (mem_successfulRefunds.mp hr).1 hid.symm rfl ⟨rfl, rfl⟩
    · cases hf

theorem excessRefundFinding_spec {p : Payment} (hp : p ∈ b.capturedPayments)
    (hf : f ∈ b.excessRefundFinding p) : b.TransactionFinding f := by
  unfold excessRefundFinding at hf
  simp only at hf
  split_ifs at hf
  · rw [List.mem_singleton.mp hf]
    exact .payment p hp rfl ⟨rfl, rfl⟩
  · cases hf

theorem capturedFeeFinding_spec {p : Payment} (hp : p ∈ b.capturedPayments)
    (hf : f ∈ b.capturedFeeFinding p) : b.TransactionFinding f := by
  unfold capturedFeeFinding at hf
  simp only at hf
  split_ifs at hf
  · rw [List.mem_singleton.mp hf]
    exact .payment p hp rfl ⟨rfl, rfl⟩
  · rw [List.mem_singleton.mp hf]
    exact .payment p hp rfl ⟨rfl, rfl⟩
  · cases hf

theorem unexpectedFeeFinding_spec {fee : Fee} (hf : f ∈ b.unexpectedFeeFinding fee) :
    b.TransactionFinding f := by
  unfold unexpectedFeeFinding at hf
  split at hf
  · rw [List.mem_singleton.mp hf]
    exact .unreflected (List.mem_cons_of_mem _ (List.mem_cons_of_mem _ List.mem_cons_self))
  · cases hf

theorem orderFindings_spec {o : Order} (hf : f ∈ b.orderFindings o) : b.TransactionFinding f := by
  unfold orderFindings at hf
  split_ifs at hf
  · rcases List.mem_append.mp hf with hf | hf
    · unfold collectionFinding at hf
      simp only at hf
      split_ifs at hf
      · rw [List.mem_singleton.mp hf]
        exact .order o rfl ⟨rfl, rfl⟩
      · rw [List.mem_singleton.mp hf]
        exact .order o rfl ⟨rfl, rfl⟩
      · cases hf
    · unfold multipleCaptureFinding at hf
      simp only at hf
      split_ifs at hf
      · rw [List.mem_singleton.mp hf]
        exact .order o rfl ⟨rfl, rfl⟩
      · cases hf
  · cases hf

/-- The findings of the transaction rules. -/
def transactionFindings (b : Books) : List Finding :=
  b.paymentFindings ++ b.refundFindings ++ b.feeFindings ++ b.records.orders.flatMap b.orderFindings

theorem transactionFindings_spec (hf : f ∈ b.transactionFindings) : b.TransactionFinding f := by
  simp only [transactionFindings, List.mem_append, paymentFindings, refundFindings, feeFindings,
    mem_gated, List.mem_flatMap] at hf
  rcases hf with ((⟨-, p, -, hf⟩ | ⟨-, ⟨r, hr, hf⟩ | ⟨p, hp, hf⟩⟩) |
    ⟨-, ⟨p, hp, hf⟩ | ⟨fee, -, hf⟩⟩) | ⟨o, -, hf⟩
  · exact paymentFinding_spec hf
  · exact refundFinding_spec hr hf
  · exact excessRefundFinding_spec hp hf
  · exact capturedFeeFinding_spec hp hf
  · exact unexpectedFeeFinding_spec hf
  · exact orderFindings_spec hf

/-- A finding of a reflected code marks the orders its entity belongs to. -/
theorem TransactionFinding.marks_iff (h : b.TransactionFinding f)
    {canonicalization : CanonicalizationResult}
    (hrecords : b.records = splitCanonicalRecords canonicalization)
    (hcode : f.exception.exceptionType ∉ unreflectedCodes) (id : Text) :
    id ∈ f.orderIds ↔ OnOrder canonicalization.canonicalRecords id f.exception := by
  have hcaptured : ∀ p, p ∈ b.capturedPayments ↔
      .payment p ∈ canonicalization.canonicalRecords ∧ p.status = .captured := by
    intro p
    rw [mem_capturedPayments, hrecords, mem_payments_iff]
  have hrefunds : ∀ r, r ∈ b.records.refunds ↔
      .refund r ∈ canonicalization.canonicalRecords := by
    intro r
    rw [hrecords, mem_refunds_iff]
  cases h with
  | unreflected h => exact absurd h hcode
  | order o hmarks hon =>
    rw [hmarks, List.mem_singleton]
    constructor
    · intro hid
      exact .order (hid ▸ hon)
    · intro h
      cases h with
      | order h => exact h.id_eq hon
      | payment p _ _ _ h => exact nomatch h.type_eq hon
      | refund p _ _ _ r _ _ h => exact nomatch h.type_eq hon
  | payment p hp hmarks hon =>
    rw [hmarks, List.mem_singleton]
    constructor
    · intro hid
      exact .payment p ((hcaptured p).mp hp).1 ((hcaptured p).mp hp).2 hid.symm hon
    · intro h
      cases h with
      | order h => exact nomatch h.type_eq hon
      | payment q hq hstatus horder h =>
        rw [← captured_eq_of_id ((hcaptured q).mpr ⟨hq, hstatus⟩) hp (h.id_eq hon), horder]
      | refund q _ _ _ r _ _ h => exact nomatch h.type_eq hon
  | refund p hp r hr hof hmarks hon =>
    rw [hmarks, List.mem_singleton]
    constructor
    · intro hid
      exact .refund p ((hcaptured p).mp hp).1 ((hcaptured p).mp hp).2 hid.symm r
        ((hrefunds r).mp hr) hof hon
    · intro h
      cases h with
      | order h => exact nomatch h.type_eq hon
      | payment q _ _ _ h => exact nomatch h.type_eq hon
      | refund q hq hstatus horder r' hr' hof' h =>
        have hsame : r' = r := List.inj_on_of_nodup_map b.records.refunds_nodup
          ((hrefunds r').mpr hr') hr (h.id_eq hon)
        rw [hsame, hof] at hof'
        rw [captured_eq_of_id hp ((hcaptured q).mpr ⟨hq, hstatus⟩) hof', horder]

/-! ## Findings about payouts -/

theorem movementFinding_marks {payout : Payout} {m : ExpectedMovement}
    (hf : f ∈ b.movementFinding payout m) : f.payoutIds = [payout.payoutId] := by
  unfold movementFinding at hf
  split at hf
  · rw [List.mem_singleton.mp hf]
  · split_ifs at hf
    · rw [List.mem_singleton.mp hf]
    · cases hf
  · cases hf

theorem payoutTotalFinding_marks {payout : Payout} (hf : f ∈ b.payoutTotalFinding payout) :
    f.payoutIds = [payout.payoutId] ∧ f.exception.On EntityType.payout.value payout.payoutId := by
  unfold payoutTotalFinding at hf
  split_ifs at hf
  · rw [List.mem_singleton.mp hf]
    exact ⟨rfl, rfl, rfl⟩
  · cases hf

/-- A duplicated key marks the payouts of its lines. -/
theorem duplicateMovementFindings_marks (hf : f ∈ b.duplicateMovementFindings) :
    ∃ key, f.exception.On (txt "SETTLEMENT_MOVEMENT") (movementText key) ∧
      2 ≤ (linesOfMovement b.records key).length ∧
      f.payoutIds = (linesOfMovement b.records key).map SettlementLine.payoutId := by
  obtain ⟨-, line, -, hf⟩ := mem_duplicateMovementFindings_iff.mp hf
  unfold duplicateMovementFinding at hf
  split_ifs at hf with hlength
  · cases hf
  · rw [List.mem_singleton.mp hf]
    exact ⟨line.movementKey, ⟨rfl, rfl⟩, not_le.mp hlength, rfl⟩

/-- The findings from which the codes of a payout are taken. -/
def payoutCodeFindings (b : Books) (movements : List ExpectedMovement) (payout : Payout) :
    List Finding := b.duplicateMovementFindings ++ b.payoutFindings movements payout

theorem linesOfMovement_nodup (key : MovementType × Text) :
    (linesOfMovement b.records key).Nodup :=
  (List.Nodup.of_map _ b.records.settlementLines_nodup).filter _

/-- A line of a duplicated key has a twin. -/
theorem exists_twin {key : MovementType × Text}
    (hlength : 2 ≤ (linesOfMovement b.records key).length) (line : SettlementLine) :
    ∃ twin ∈ linesOfMovement b.records key, twin ≠ line := by
  obtain ⟨x, hx, y, hy, hne⟩ := (length_gt_one_iff (linesOfMovement_nodup key)).mp hlength
  by_cases hxl : x = line
  · exact ⟨y, hy, fun hyl => hne (hxl.trans hyl.symm)⟩
  · exact ⟨x, hx, hxl⟩

section Payouts

variable {canonicalization : CanonicalizationResult} {movements : List ExpectedMovement}
  {payout : Payout}

theorem mem_payoutLines_iff (hrecords : b.records = splitCanonicalRecords canonicalization)
    {key : MovementType × Text} {line : SettlementLine} :
    line ∈ b.records.payoutLines payout key ↔
      .settlementLine line ∈ canonicalization.canonicalRecords ∧
        line.payoutId = payout.payoutId ∧ line.movementKey = key := by
  rw [CanonicalRecords.payoutLines, hrecords]
  simp only [List.mem_filter, decide_eq_true_eq, mem_settlementLines_iff, and_assoc]

/-- A finding that marks a payout names an entity of it. -/
theorem onPayout_of_marks (hrecords : b.records = splitCanonicalRecords canonicalization)
    (hf : f ∈ b.payoutCodeFindings movements payout) (hid : payout.payoutId ∈ f.payoutIds) :
    OnPayout canonicalization.canonicalRecords movements (b.payoutRowOf movements payout)
      f.exception := by
  simp only [payoutCodeFindings, payoutFindings, List.mem_append, mem_gated, List.mem_flatMap] at hf
  rcases hf with hf | ⟨-, m, hm, hf⟩ | hf
  · obtain ⟨key, hon, hlength, hmarks⟩ := duplicateMovementFindings_marks hf
    rw [hmarks] at hid
    obtain ⟨line, hline, hof⟩ := List.mem_map.mp hid
    obtain ⟨twin, htwin, hne⟩ := exists_twin hlength line
    obtain ⟨hlineMem, hlineKey⟩ := mem_linesOfMovement.mp hline
    obtain ⟨htwinMem, htwinKey⟩ := mem_linesOfMovement.mp htwin
    rw [hrecords, mem_settlementLines_iff] at hlineMem htwinMem
    exact .duplicate line twin hlineMem hof htwinMem hne (htwinKey.trans hlineKey.symm)
      (hlineKey ▸ hon)
  · rw [expectedForDate_eq, List.mem_filter, decide_eq_true_eq] at hm
    have horigin := mem_movementFinding.mp ⟨f, hf, rfl⟩
    generalize f.exception = x at horigin
    cases horigin with
    | missing hlines =>
      refine .missing m hm.1 hm.2 (fun line hline hof hkey => ?_) ⟨rfl, rfl⟩
      exact List.not_mem_nil (hlines ▸ (mem_payoutLines_iff hrecords).mpr ⟨hline, hof, hkey⟩)
    | amount line hlines hne =>
      obtain ⟨hline, hof, -⟩ :=
        (mem_payoutLines_iff hrecords).mp (hlines ▸ List.mem_singleton_self line)
      exact .line line hline hof ⟨rfl, rfl⟩
  · exact .payout (payoutTotalFinding_marks hf).2

/-- A duplicated key on a line of the payout marks it. -/
theorem marks_of_duplicate (hrecords : b.records = splitCanonicalRecords canonicalization)
    (hf : f ∈ b.duplicateMovementFindings)
    (hon : OnPayout canonicalization.canonicalRecords movements (b.payoutRowOf movements payout)
      f.exception) : payout.payoutId ∈ f.payoutIds := by
  obtain ⟨key, honKey, -, hmarks⟩ := duplicateMovementFindings_marks hf
  cases hon with
  | payout h => exact (h.ne honKey (by decide)).elim
  | line _ _ _ h => exact (h.ne honKey (by decide)).elim
  | duplicate line twin hline hof _ _ _ h =>
    have hkey : line.movementKey = key := movementText_injective (h.id_eq honKey)
    rw [← mem_settlementLines_iff, ← hrecords] at hline
    rw [hmarks]
    exact List.mem_map.mpr ⟨line, mem_linesOfMovement.mpr ⟨hline, hkey⟩, hof⟩
  | missing _ _ _ _ h => exact (h.ne honKey (by decide)).elim

/-- A movement rule that reports an entity of the payout reports one of its own movements. -/
theorem exists_movementFinding (hrecords : b.records = splitCanonicalRecords canonicalization)
    {other : Payout} (hother : other ∈ b.records.payouts) (hpayout : payout ∈ b.records.payouts)
    {m : ExpectedMovement} (hm : m ∈ expectedForDate movements other.payoutDate)
    (hf : f ∈ b.movementFinding other m)
    (hon : OnPayout canonicalization.canonicalRecords movements (b.payoutRowOf movements payout)
      f.exception) :
    ∃ m' ∈ expectedForDate movements payout.payoutDate, ∃ g ∈ b.movementFinding payout m',
      g.exception.exceptionType = f.exception.exceptionType := by
  have horigin := mem_movementFinding.mp ⟨f, hf, rfl⟩
  rcases horigin.cases with ⟨-, hx⟩ | ⟨line, hlines, -, hx⟩
  · have honMovement : f.exception.On (txt "EXPECTED_MOVEMENT") (movementText m.movementKey) := by
      rw [hx]
      exact ⟨rfl, rfl⟩
    cases hon with
    | payout h => exact (h.ne honMovement (by decide)).elim
    | line _ _ _ h => exact (h.ne honMovement (by decide)).elim
    | duplicate _ _ _ _ _ _ _ h => exact (h.ne honMovement (by decide)).elim
    | missing m' hm' hdate hmissing h =>
      -- a movement of this payout misses its line too
      have hnil : b.records.payoutLines payout m'.movementKey = [] := by
        refine List.eq_nil_iff_forall_not_mem.mpr fun line hline => ?_
        obtain ⟨hline, hof, hkey⟩ := (mem_payoutLines_iff hrecords).mp hline
        exact hmissing line hline hof hkey
      obtain ⟨g, hg, hgx⟩ := mem_movementFinding.mpr (MovementOrigin.missing hnil)
      refine ⟨m', ?_, g, hg, ?_⟩
      · rw [expectedForDate_eq, List.mem_filter, decide_eq_true_eq]
        exact ⟨hm', hdate⟩
      · rw [hgx, hx]
        rfl
  · have honLine : f.exception.On EntityType.settlementLine.value line.settlementLineId := by
      rw [hx]
      exact ⟨rfl, rfl⟩
    obtain ⟨hline, hof, -⟩ :=
      (mem_payoutLines_iff hrecords).mp (hlines ▸ List.mem_singleton_self line)
    cases hon with
    | payout h => exact (h.ne honLine (by decide)).elim
    | line line' hline' hof' h =>
      rw [← mem_settlementLines_iff, ← hrecords] at hline hline'
      have heq : line' = line := List.inj_on_of_nodup_map b.records.settlementLines_nodup
        hline' hline (h.id_eq honLine)
      have hid : other.payoutId = payout.payoutId := hof.symm.trans (heq ▸ hof')
      obtain rfl := List.inj_on_of_nodup_map b.records.payouts_nodup hother hpayout hid
      exact ⟨m, hm, f, hf, rfl⟩
    | duplicate _ _ _ _ _ _ _ h => exact (h.ne honLine (by decide)).elim
    | missing _ _ _ _ h => exact (h.ne honLine (by decide)).elim

/-- The total of a payout is reported on that payout. -/
theorem eq_of_payoutTotalFinding {other : Payout} (hother : other ∈ b.records.payouts)
    (hpayout : payout ∈ b.records.payouts) (hf : f ∈ b.payoutTotalFinding other)
    (hon : OnPayout canonicalization.canonicalRecords movements (b.payoutRowOf movements payout)
      f.exception) : other = payout := by
  obtain ⟨-, honPayout⟩ := payoutTotalFinding_marks hf
  cases hon with
  | payout h =>
    exact List.inj_on_of_nodup_map b.records.payouts_nodup hother hpayout (honPayout.id_eq h)
  | line _ _ _ h => exact (h.ne honPayout (by decide)).elim
  | duplicate _ _ _ _ _ _ _ h => exact (h.ne honPayout (by decide)).elim
  | missing _ _ _ _ h => exact (h.ne honPayout (by decide)).elim

/-- A settlement finding on an entity of a payout has its code among those of the payout. -/
theorem exists_marks (hrecords : b.records = splitCanonicalRecords canonicalization)
    (hpayout : payout ∈ b.records.payouts)
    (hf : f ∈ b.duplicateMovementFindings ++ b.records.payouts.flatMap (b.payoutFindings movements))
    (hon : OnPayout canonicalization.canonicalRecords movements (b.payoutRowOf movements payout)
      f.exception) :
    ∃ g ∈ b.payoutCodeFindings movements payout, payout.payoutId ∈ g.payoutIds ∧
      g.exception.exceptionType = f.exception.exceptionType := by
  rcases List.mem_append.mp hf with hf | hf
  · exact ⟨f, List.mem_append_left _ hf, marks_of_duplicate hrecords hf hon, rfl⟩
  · obtain ⟨other, hother, hf⟩ := List.mem_flatMap.mp hf
    rw [payoutFindings, List.mem_append, mem_gated, List.mem_flatMap] at hf
    rcases hf with ⟨hgate, m, hm, hf⟩ | hf
    · obtain ⟨m', hm', g, hg, hcode⟩ :=
        exists_movementFinding hrecords hother hpayout hm hf hon
      refine ⟨g, List.mem_append_right _ (List.mem_append_left _ ?_), ?_, hcode⟩
      · exact mem_gated.mpr ⟨hgate, List.mem_flatMap.mpr ⟨m', hm', hg⟩⟩
      · rw [movementFinding_marks hg]
        exact List.mem_singleton_self _
    · obtain rfl := eq_of_payoutTotalFinding hother hpayout hf hon
      refine ⟨f, List.mem_append_right _ (List.mem_append_right _ hf), ?_, rfl⟩
      rw [(payoutTotalFinding_marks hf).1]
      exact List.mem_singleton_self _

end Payouts

end Books

/-! ## The run -/

/-- No record in conflict is canonical. -/
def ConflictsApart (canonicalization : CanonicalizationResult) : Prop :=
  ∀ c ∈ canonicalization.conflicts, ∀ r ∈ canonicalization.canonicalRecords,
    c.identity.entityType = r.entityType → c.identity.sourceId ≠ r.recordId

theorem sourceSystem_eq {r r' : FinancialRecord} (h : r.entityType = r'.entityType) :
    r.sourceSystem = r'.sourceSystem := by
  cases r <;> cases r' <;> first | rfl | exact nomatch h

/-- Canonicalization keeps no record of a conflict. -/
theorem conflictsApart_of_canonicalize {sha256 : Bytes → Text}
    {envelopes : List (RecordEnvelope sha256)} {canonicalization : CanonicalizationResult}
    (h : canonicalize envelopes = .ok canonicalization) : ConflictsApart canonicalization := by
  obtain ⟨receipts, hunique, hspec⟩ := canonicalize_ok h
  have hcanonical := hunique.canonicalizes hspec
  intro c hc r hr htype hid
  obtain ⟨e, he, hcontradicted, rfl⟩ := (hcanonical.mem_conflicts c).mp hc
  have hidentity : e.identity = r.identity := by
    change Identity.mk e.record.sourceSystem e.record.entityType e.record.recordId = r.identity
    have htype : e.record.entityType = r.entityType := htype
    have hid : e.record.recordId = r.recordId := hid
    rw [sourceSystem_eq htype, htype, hid]
    rfl
  exact (hcanonical.canonical_seen r hr).1 ⟨e, he, hidentity, hcontradicted⟩

section Run

variable {runId : Text} {detectedAt : UtcDateTime} {canonicalization : CanonicalizationResult}
  {results : List CompletenessResult} {quarantineRecords : List QuarantinedRecord}
  {b : Books} {movements : List ExpectedMovement} {f : Finding}

theorem mem_allFindings : f ∈ b.allFindings canonicalization results movements ↔
    f ∈ sourceCompletenessFindings b.run results ∨
      f ∈ canonicalConflictFindings b.run canonicalization ∨ f ∈ b.transactionFindings ∨
      f ∈ b.duplicateMovementFindings ++ b.records.payouts.flatMap (b.payoutFindings movements) := by
  rw [b.allFindings_eq]
  simp only [Books.ruleFindings, Books.transactionFindings, List.mem_append, or_assoc]

/-- The entities of a transaction row and of a payout row. -/
def orderEntityTypes : List Text :=
  [EntityType.order.value, EntityType.payment.value, EntityType.refund.value]

def payoutEntityTypes : List Text :=
  [EntityType.payout.value, EntityType.settlementLine.value, txt "SETTLEMENT_MOVEMENT",
    txt "EXPECTED_MOVEMENT"]

theorem OnOrder.entityType_mem {records : List FinancialRecord} {orderId : Text}
    {x : ReconciliationException} (h : OnOrder records orderId x) :
    x.entityType ∈ orderEntityTypes := by
  cases h with
  | order h => simp [orderEntityTypes, h.1]
  | payment _ _ _ _ h => simp [orderEntityTypes, h.1]
  | refund _ _ _ _ _ _ _ h => simp [orderEntityTypes, h.1]

theorem OnPayout.entityType_mem {records : List FinancialRecord} {row : PayoutReconciliation}
    {x : ReconciliationException} (h : OnPayout records movements row x) :
    x.entityType ∈ payoutEntityTypes := by
  cases h with
  | payout h => simp [payoutEntityTypes, h.1]
  | line _ _ _ h => simp [payoutEntityTypes, h.1]
  | duplicate _ _ _ _ _ _ _ h => simp [payoutEntityTypes, h.1]
  | missing _ _ _ _ h => simp [payoutEntityTypes, h.1]

theorem settlementFindings_entityType (hf : f ∈ b.duplicateMovementFindings ++
    b.records.payouts.flatMap (b.payoutFindings movements)) :
    f.exception.entityType ∈ payoutEntityTypes := by
  rcases List.mem_append.mp hf with hf | hf
  · obtain ⟨key, hon, -⟩ := Books.duplicateMovementFindings_marks hf
    simp [payoutEntityTypes, hon.1]
  · obtain ⟨payout, -, hf⟩ := List.mem_flatMap.mp hf
    rw [Books.payoutFindings, List.mem_append, Books.mem_gated, List.mem_flatMap] at hf
    rcases hf with ⟨-, m, -, hf⟩ | hf
    · rcases (Books.mem_movementFinding.mp ⟨f, hf, rfl⟩).cases with ⟨-, hx⟩ | ⟨line, -, -, hx⟩
      · rw [hx]
        exact (by decide : txt "EXPECTED_MOVEMENT" ∈ payoutEntityTypes)
      · rw [hx]
        exact (by decide : EntityType.settlementLine.value ∈ payoutEntityTypes)
    · simp [payoutEntityTypes, (Books.payoutTotalFinding_marks hf).2.1]

theorem transactionFindings_entityType (hf : f ∈ b.transactionFindings) :
    f.exception.entityType ∉ payoutEntityTypes := by
  simp only [Books.transactionFindings, List.mem_append, or_assoc] at hf
  obtain ⟨t, ht, htype⟩ := (Books.transactionFindings_about hf).entityType
  have hnone : ∀ t ∈ transactionTypes, t.value ∉ payoutEntityTypes := by decide
  rw [htype]
  exact hnone t ht

theorem value_ne_movement (t : EntityType) :
    t.value ≠ txt "SETTLEMENT_MOVEMENT" ∧ t.value ≠ txt "EXPECTED_MOVEMENT" := by
  cases t <;> decide

/-- The codes of a transaction row. -/
theorem orderRow_codes_iff (hrecords : b.records = splitCanonicalRecords canonicalization)
    {o : Order} (ho : o ∈ b.records.orders) {code : ExceptionCode} (hcode : code ∉ unreflectedCodes) :
    code ∈ (b.orderRow o).exceptionCodes ↔
      ∃ f ∈ b.allFindings canonicalization results movements, f.exception.exceptionType = code ∧
        OnOrder canonicalization.canonicalRecords o.orderId f.exception := by
  have hmem : code ∈ (b.orderRow o).exceptionCodes ↔ _ := mem_codesOf
  have hunreflected : ∀ code ∈ [ExceptionCode.sourceReportMissing, .sourceReportInvalid] ++
      [.conflictingSourceVersion], code ∈ unreflectedCodes := by decide
  rw [hmem]
  constructor
  · intro ⟨f, hf, hmarks, htype⟩
    have hf : f ∈ b.transactionFindings := by
      rcases List.mem_append.mp hf with hf | hf
      · exact List.mem_append_left _ hf
      · exact List.mem_append_right _ (List.mem_flatMap.mpr ⟨o, ho, hf⟩)
    refine ⟨f, mem_allFindings.mpr (.inr (.inr (.inl hf))), htype, ?_⟩
    exact ((Books.transactionFindings_spec hf).marks_iff hrecords (htype ▸ hcode) _).mp hmarks
  · intro ⟨f, hf, htype, hon⟩
    rcases mem_allFindings.mp hf with hf | hf | hf | hf
    · exact absurd (hunreflected _ (List.mem_append_left _
        (codesIn_sourceCompletenessFindings f hf))) (htype ▸ hcode)
    · exact absurd (hunreflected _ (List.mem_append_right _
        (codesIn_canonicalConflictFindings f hf))) (htype ▸ hcode)
    · have hmarks := ((Books.transactionFindings_spec hf).marks_iff hrecords
        (htype ▸ hcode) o.orderId).mpr hon
      refine ⟨f, ?_, hmarks, htype⟩
      rcases List.mem_append.mp hf with hf | hf
      · exact List.mem_append_left _ hf
      · obtain ⟨o', ho', hf⟩ := List.mem_flatMap.mp hf
        have hid := b.orderFindings_orderIds o' f hf _ hmarks
        obtain rfl := List.inj_on_of_nodup_map b.records.orders_nodup ho ho' hid
        exact List.mem_append_right _ hf
    · have hnone : ∀ t ∈ orderEntityTypes, t ∉ payoutEntityTypes := by decide
      exact absurd (settlementFindings_entityType hf) (hnone _ hon.entityType_mem)

/-- The codes of a payout row. -/
theorem payoutRowOf_codes_iff (hrecords : b.records = splitCanonicalRecords canonicalization)
    {payout : Payout} (hpayout : payout ∈ b.records.payouts) {code : ExceptionCode}
    (hcode : code = .conflictingSourceVersion → ConflictsApart canonicalization) :
    code ∈ (b.payoutRowOf movements payout).exceptionCodes ↔
      ∃ f ∈ b.allFindings canonicalization results movements, f.exception.exceptionType = code ∧
        OnPayout canonicalization.canonicalRecords movements (b.payoutRowOf movements payout)
          f.exception := by
  have hmem : code ∈ (b.payoutRowOf movements payout).exceptionCodes ↔ _ := mem_codesOf
  rw [hmem]
  constructor
  · intro ⟨f, hf, hmarks, htype⟩
    refine ⟨f, mem_allFindings.mpr (.inr (.inr (.inr ?_))), htype,
      Books.onPayout_of_marks hrecords hf hmarks⟩
    rcases List.mem_append.mp hf with hf | hf
    · exact List.mem_append_left _ hf
    · exact List.mem_append_right _ (List.mem_flatMap.mpr ⟨payout, hpayout, hf⟩)
  · intro ⟨f, hf, htype, hon⟩
    rcases mem_allFindings.mp hf with hf | hf | hf | hf
    · obtain ⟨result, -, rfl⟩ := List.mem_map.mp hf
      exact absurd hon.entityType_mem (by decide : txt "SOURCE_REPORT" ∉ payoutEntityTypes)
    · obtain ⟨conflict, hconflict, rfl⟩ := List.mem_map.mp hf
      have hapart := hcode htype.symm conflict hconflict
      have honRecord : (conflictException b.run conflict).On conflict.identity.entityType.value
        conflict.identity.sourceId := ⟨rfl, rfl⟩
      -- the canonical record that the exception names
      cases hon with
      | payout h =>
        rw [hrecords, mem_payouts_iff] at hpayout
        exact absurd (honRecord.id_eq h) (hapart _ hpayout (honRecord.type_eq h))
      | line line hline _ h =>
        exact absurd (honRecord.id_eq h) (hapart _ hline (honRecord.type_eq h))
      | duplicate _ _ _ _ _ _ _ h =>
        exact (honRecord.ne h (value_ne_movement _).1).elim
      | missing _ _ _ _ h =>
        exact (honRecord.ne h (value_ne_movement _).2).elim
    · exact absurd hon.entityType_mem (transactionFindings_entityType hf)
    · obtain ⟨g, hg, hmarks, hsame⟩ := Books.exists_marks hrecords hpayout hf hon
      exact ⟨g, hg, hmarks, hsame.trans htype⟩

/-- Row codes and exceptions agree. The conflict of a canonical record, which canonicalization never
leaves, would name a payout and mark no row. -/
theorem row_codes_iff_exceptions {result : ReconciliationResult}
    (h : reconcile runId detectedAt canonicalization results quarantineRecords = .ok result) :
    (∀ row ∈ result.transactions, ∀ code ∉ unreflectedCodes, code ∈ row.exceptionCodes ↔
      ∃ x ∈ result.exceptions, x.exceptionType = code ∧
        OnOrder canonicalization.canonicalRecords row.orderId x) ∧
    ∀ row ∈ result.payouts, ∀ code,
      (code = .conflictingSourceVersion → ∃ (sha256 : Bytes → Text)
        (envelopes : List (RecordEnvelope sha256)),
          canonicalize envelopes = .ok canonicalization) →
      (code ∈ row.exceptionCodes ↔ ∃ x ∈ result.exceptions, x.exceptionType = code ∧
        OnPayout canonicalization.canonicalRecords result.expectedMovements row x) := by
  obtain ⟨b, movements, hopened, rfl⟩ := reconcile_ok h
  constructor
  · intro row hrow code hcode
    rw [Books.result_transactions, List.mem_map] at hrow
    obtain ⟨o, ho, rfl⟩ := hrow
    have hkey : ∀ x y, exceptionKey x = exceptionKey y →
        x.exceptionType = code ∧ OnOrder canonicalization.canonicalRecords o.orderId x →
        y.exceptionType = code ∧ OnOrder canonicalization.canonicalRecords o.orderId y :=
      fun x y hkey hx => ⟨(exceptionKey_eq_iff.mp hkey).2.1 ▸ hx.1, hx.2.congr hkey⟩
    exact (orderRow_codes_iff hopened.records_eq ((mem_sortedBy _).mp ho) hcode).trans
      (exists_exception_iff hkey).symm
  · intro row hrow code hcode
    rw [Books.result_payouts, List.mem_map] at hrow
    obtain ⟨payout, hpayout, rfl⟩ := hrow
    have hapart : code = .conflictingSourceVersion → ConflictsApart canonicalization := by
      intro hconflict
      obtain ⟨sha256, envelopes, hcanonical⟩ := hcode hconflict
      exact conflictsApart_of_canonicalize hcanonical
    have hkey : ∀ x y, exceptionKey x = exceptionKey y →
        x.exceptionType = code ∧ OnPayout canonicalization.canonicalRecords movements
          (b.payoutRowOf movements payout) x →
        y.exceptionType = code ∧ OnPayout canonicalization.canonicalRecords movements
          (b.payoutRowOf movements payout) y :=
      fun x y hkey hx => ⟨(exceptionKey_eq_iff.mp hkey).2.1 ▸ hx.1, hx.2.congr hkey⟩
    exact (payoutRowOf_codes_iff hopened.records_eq ((mem_sortedBy _).mp hpayout) hapart).trans
      (exists_exception_iff hkey).symm

end Run

namespace PaidDay

/-- The row of a cancelled order with two captures has the code of its one exception. -/
theorem row_codes_twoCapturesDay : ∃ row ∈ twoCapturesDay.result.transactions,
    .captureForNonPayableOrder ∈ row.exceptionCodes ∧
    ∃ x ∈ twoCapturesDay.result.exceptions, x.exceptionType = .captureForNonPayableOrder ∧
      OnOrder twoCapturesDay.canonicalization.canonicalRecords row.orderId x := by
  have hrow : ∃ row ∈ twoCapturesDay.result.transactions,
      .captureForNonPayableOrder ∈ row.exceptionCodes := by decide +kernel
  obtain ⟨row, hrow, hcode⟩ := hrow
  obtain ⟨htransactions, -⟩ := row_codes_iff_exceptions twoCapturesDay.reconcile_eq
  exact ⟨row, hrow, hcode, (htransactions row hrow _ (by decide)).mp hcode⟩

end PaidDay

end Threadline
