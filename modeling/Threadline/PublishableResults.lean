import Threadline.PayoutRules
import Threadline.ResultDocument
import Threadline.StableEvidence

/-!
# Results that can be published

The checks before publication hold of every result of the reconciler, but for
one: a fee movement that is named after a payment may have the ID of a fee.
-/

open PyText PyCalendar PyJson PySorted PyExcept

namespace Threadline

/-- What `validate_for_publication` asks of a result. -/
structure Publishable (r : ReconciliationResult) : Prop where
  runId : r.runId ≠ [] ∧ r.runId = strip r.runId
  contractVersion : r.contractVersion = Threadline.contractVersion
  orders : (r.transactions.map TransactionReconciliation.orderId).Nodup
  payouts : (r.payouts.map PayoutReconciliation.payoutId).Nodup
  movements : (r.expectedMovements.map ExpectedMovement.movementKey).Nodup
  exceptions : (r.exceptions.map exceptionKey).Nodup
  reports : (r.sourceCompleteness.map fun s =>
    (s.sourceSystem, s.reportType, s.businessDate)).Nodup
  transactionRows : ∀ t ∈ r.transactions, validateTransaction r.runId t = .ok ()
  payoutRows : ∀ p ∈ r.payouts, validatePayout r.runId p = .ok ()
  exceptionRows : ∀ x ∈ r.exceptions, validateException r.runId x = .ok ()

theorem validateForPublication_eq_ok {r : ReconciliationResult} :
    validateForPublication r = .ok () ↔ Publishable r := by
  have hkeys : (r.exceptions.map fun x => (x.ruleId, x.exceptionType, x.entityType, x.entityId)) =
      r.exceptions.map exceptionKey := rfl
  simp only [validateForPublication, requireUnique, bind_eq_ok, require_eq_ok, forM_eq_ok,
    exists_const, hkeys]
  constructor
  · rintro ⟨h1, h2, h3, h4, h5, h6, h7, h8, h9, h10⟩
    exact ⟨h1, h2, h3, h4, h5, h6, h7, h8, h9, h10⟩
  · rintro ⟨h1, h2, h3, h4, h5, h6, h7, h8, h9, h10⟩
    exact ⟨h1, h2, h3, h4, h5, h6, h7, h8, h9, h10⟩

/-! ## Rows and exceptions -/

theorem uniqueExceptions_keys_nodup (xs : List ReconciliationException) :
    ((uniqueExceptions xs).map exceptionKey).Nodup := by
  have hkeyed : ∀ p ∈ (PyDict.ofPairs (xs.map fun x => (exceptionKey x, x))).items,
      exceptionKey p.2 = p.1 := by
    intro p hp
    obtain ⟨x, -, he⟩ := List.mem_map.mp (PyDict.mem_of_get?_ofPairs (PyDict.mem_items_iff.mp hp))
    obtain ⟨hkey, hvalue⟩ := Prod.mk.inj he
    rw [← hvalue, hkey]
  have hkeys : (PyDict.ofPairs (xs.map fun x => (exceptionKey x, x))).values.map exceptionKey =
      (PyDict.ofPairs (xs.map fun x => (exceptionKey x, x))).keys := by
    rw [PyDict.values, PyDict.keys, List.map_map]
    exact List.map_congr_left hkeyed
  refine ((sortedBy_perm ReconciliationException.sortKey _).map exceptionKey).nodup_iff.mpr ?_
  exact hkeys ▸ PyDict.nodup_keys _

theorem newException_valid (run : Run) (ruleId : Text) (code : ExceptionCode)
    (entityType entityId : Text) (expected actual : Option Amount) (supporting : List Text) :
    validateException run.runId (newException run ruleId code entityType entityId expected actual
      supporting) = .ok () := by
  rcases expected with _ | expected <;> rcases actual with _ | actual <;>
    simp [validateException, newException, require, bind, Except.bind, Amount.cents]

namespace Books

variable {b : Books}

/-- Every finding of a run is a new exception of that run. -/
theorem allFindings_valid {canonicalization : CanonicalizationResult}
    {results : List CompletenessResult} {movements : List ExpectedMovement} {f : Finding}
    (hf : f ∈ b.allFindings canonicalization results movements) :
    validateException b.run.runId f.exception = .ok () := by
  rw [allFindings_eq, List.mem_append, List.mem_append] at hf
  rcases hf with hf | hf | hf
  · obtain ⟨c, -, rfl⟩ := List.mem_map.mp hf
    exact newException_valid _ _ _ _ _ _ _ _
  · obtain ⟨c, -, rfl⟩ := List.mem_map.mp hf
    exact newException_valid _ _ _ _ _ _ _ _
  · obtain ⟨ruleId, code, entityType, entityId, expected, actual, supporting, -, he⟩ :=
      ruleFindings_rule hf
    rw [he]
    exact newException_valid _ _ _ _ _ _ _ _

theorem transactionRow_valid (codes : List ExceptionCode) (order : Order) :
    validateTransaction b.run.runId (b.transactionRow codes order) = .ok () := by
  have hstate : ¬ ((b.transactionRow codes order).state = .reconciled ∧
      (b.transactionRow codes order).exceptionCodes ≠ []) := by
    rintro ⟨hstate, hcodes⟩
    have hblocking := (resultState_eq_reconciled.mp hstate).2
    have hnil : codes = [] := by simpa using hblocking
    exact hcodes hnil
  simp only [validateTransaction, bind_eq_ok, require_eq_ok, exists_const]
  exact ⟨rfl, rfl, rfl, rfl, hstate⟩

/-- A reconciled payout row has neither codes nor a variance. -/
theorem payoutRow_valid {movements : List ExpectedMovement} {before : List Finding}
    (payout : Payout) : validatePayout b.run.runId (b.payoutRow movements (codesOf Finding.payoutIds
      (before ++ b.payoutFindings movements payout) payout.payoutId) payout) = .ok () := by
  simp only [validatePayout, bind_eq_ok, require_eq_ok, exists_const]
  refine ⟨rfl, rfl, rfl, ?_⟩
  rintro ⟨hstate, hdefect⟩
  obtain ⟨hcomplete, hbefore, hown, hvariance⟩ := payoutRow_reconciled hstate
  rcases hdefect with hcodes | hprovider | hendToEnd
  · exact hcodes (codesOf_eq_nil.mpr (unmarked_append.mpr ⟨hbefore, hown⟩))
  · have hreports : reportsComplete b.states [.settlementLines, .payouts] = true :=
      reportsComplete_iff.mpr fun t ht => hcomplete t (by
        rcases List.mem_cons.mp ht with rfl | ht
        · decide
        · rw [List.mem_singleton.mp ht]
          decide)
    have htotal := (unmarked_payoutTotalFinding hreports).mp (unmarked_append.mp hown).2
    exact hprovider (sub_eq_zero.mpr htotal)
  · exact hendToEnd (sub_eq_zero.mpr hvariance)

end Books

/-! ## Movement keys -/

/-- The canonical captured payments. -/
def capturesIn (records : List FinancialRecord) : List Payment :=
  (records.filterMap FinancialRecord.asPayment?).filter fun p => p.status = .captured

def feesFor (records : List FinancialRecord) (paymentId : Text) : List Fee :=
  (records.filterMap FinancialRecord.asFee?).filter fun f => f.paymentId = paymentId

/-- No fee that stands for the fee movement of its payment has the ID that is made up for the
movement of another. -/
def FeeIdsClear (records : List FinancialRecord) : Prop :=
  ∀ p ∈ capturesIn records, ∀ q ∈ capturesIn records, ∀ fee ∈ feesFor records p.paymentId,
    (feesFor records p.paymentId).length = 1 → (feesFor records q.paymentId).length ≠ 1 →
      fee.feeId ≠ txt "expected-fee:" ++ q.paymentId

instance (records : List FinancialRecord) : Decidable (FeeIdsClear records) :=
  inferInstanceAs (Decidable (∀ p ∈ capturesIn records, _))

namespace Books

variable {b : Books} {canonicalization : CanonicalizationResult}

theorem feesByPayment_perm (hrecords : b.records = splitCanonicalRecords canonicalization)
    (id : Text) : (b.feesByPayment id).Perm (feesFor canonicalization.canonicalRecords id) := by
  rw [b.feesByPayment_eq, hrecords]
  exact (sortedBy_perm _ _).filter _

theorem mem_capturesIn (hrecords : b.records = splitCanonicalRecords canonicalization)
    {p : Payment} : p ∈ b.capturedPayments ↔ p ∈ capturesIn canonicalization.canonicalRecords := by
  rw [mem_capturedPayments, hrecords]
  simp [capturesIn, splitCanonicalRecords]

/-- The two ways to name a fee movement. -/
theorem feeMovementId_cases (b : Books) (p : Payment) :
    (∃ fee, b.feesByPayment p.paymentId = [fee] ∧ b.feeMovementId p = fee.feeId) ∨
      ((b.feesByPayment p.paymentId).length ≠ 1 ∧
        b.feeMovementId p = txt "expected-fee:" ++ p.paymentId) := by
  unfold feeMovementId
  split
  · next fee hfee => exact .inl ⟨fee, hfee, rfl⟩
  · next hfees =>
    refine .inr ⟨fun hlength => ?_, rfl⟩
    obtain ⟨fee, hfee⟩ := List.length_eq_one_iff.mp hlength
    exact hfees fee hfee

theorem mem_feesByPayment {id : Text} {fee : Fee} :
    fee ∈ b.feesByPayment id ↔ fee ∈ b.records.fees ∧ fee.paymentId = id := by
  simp [feesByPayment_eq]

/-- Fee movements have distinct IDs exactly when the fee IDs are clear. -/
theorem feeMovementIds_nodup (hrecords : b.records = splitCanonicalRecords canonicalization) :
    (b.capturedPayments.map b.feeMovementId).Nodup ↔
      FeeIdsClear canonicalization.canonicalRecords := by
  have hpayments := b.capturedPayments_nodup
  rw [List.nodup_map_iff_inj_on (hpayments.of_map _)]
  have hlength : ∀ id, (feesFor canonicalization.canonicalRecords id).length =
      (b.feesByPayment id).length := fun id => (feesByPayment_perm hrecords id).length_eq.symm
  constructor
  · intro hinj p hp q hq fee hfee hp1 hq1 hid
    rw [hlength] at hp1 hq1
    rw [← (feesByPayment_perm hrecords _).mem_iff] at hfee
    obtain ⟨g, hg⟩ := List.length_eq_one_iff.mp hp1
    obtain rfl : fee = g := by simpa [hg] using hfee
    have hpid : b.feeMovementId p = fee.feeId := by rw [feeMovementId, hg]
    have hqid : b.feeMovementId q = txt "expected-fee:" ++ q.paymentId := by
      rcases b.feeMovementId_cases q with ⟨h, hh, -⟩ | ⟨-, hqid⟩
      · exact absurd (by rw [hh]; rfl) hq1
      · exact hqid
    have hpq := hinj p ((mem_capturesIn hrecords).mpr hp) q ((mem_capturesIn hrecords).mpr hq)
      (by rw [hpid, hqid, hid])
    exact hq1 (hpq ▸ hp1)
  · intro hclear p hp q hq hid
    have hpc := (mem_capturesIn hrecords).mp hp
    have hqc := (mem_capturesIn hrecords).mp hq
    have hmixed : ∀ p ∈ capturesIn canonicalization.canonicalRecords,
        ∀ q ∈ capturesIn canonicalization.canonicalRecords, ∀ fee,
          b.feesByPayment p.paymentId = [fee] → (b.feesByPayment q.paymentId).length ≠ 1 →
            fee.feeId ≠ txt "expected-fee:" ++ q.paymentId := by
      intro p hp q hq fee hfee hq1
      refine hclear p hp q hq fee ((feesByPayment_perm hrecords _).mem_iff.mp ?_) ?_ ?_
      · rw [hfee]
        exact List.mem_singleton_self fee
      · rw [hlength, hfee]
        rfl
      · rwa [hlength]
    rcases b.feeMovementId_cases p with ⟨f, hf, hpid⟩ | ⟨hp1, hpid⟩ <;>
      rcases b.feeMovementId_cases q with ⟨g, hg, hqid⟩ | ⟨hq1, hqid⟩
    · have hfm : f ∈ b.feesByPayment p.paymentId := hf ▸ List.mem_singleton_self f
      have hgm : g ∈ b.feesByPayment q.paymentId := hg ▸ List.mem_singleton_self g
      rw [mem_feesByPayment] at hfm hgm
      have hfg : f = g := List.inj_on_of_nodup_map b.records.fees_nodup hfm.1 hgm.1
        (by rw [← hpid, ← hqid, hid])
      exact List.inj_on_of_nodup_map hpayments hp hq (by rw [← hfm.2, ← hgm.2, hfg])
    · exact absurd (by rw [← hpid, ← hqid, hid]) (hmixed p hpc q hqc f hf hq1)
    · exact absurd (by rw [← hpid, ← hqid, hid]) (hmixed q hqc p hpc g hg hp1)
    · rw [hpid, hqid] at hid
      exact List.inj_on_of_nodup_map hpayments hp hq (List.append_cancel_left hid)

theorem captureKeys_eq {payments : List Payment} {captures : List (List ExpectedMovement)}
    (h : payments.mapM b.capturedMovements = .ok captures) :
    captures.flatten.map ExpectedMovement.movementKey = payments.flatMap fun p =>
      [(MovementType.capture, p.paymentId), (MovementType.fee, b.feeMovementId p)] := by
  rw [mapM_eq_ok] at h
  induction h with
  | nil => rfl
  | cons hp _ ih =>
    obtain ⟨d, -, rfl⟩ := capturedMovements_eq_ok.mp hp
    rw [List.flatten_cons, List.map_append, ih, List.flatMap_cons]
    rfl

theorem refundKeys_eq {succeeded : List Refund} {refunds : List ExpectedMovement}
    (h : succeeded.mapM refundedMovement = .ok refunds) :
    refunds.map ExpectedMovement.movementKey =
      succeeded.map fun r => (MovementType.refund, r.refundId) := by
  rw [mapM_eq_ok] at h
  induction h with
  | nil => rfl
  | cons hr _ ih =>
    obtain ⟨d, -, rfl⟩ := refundedMovement_eq_ok.mp hr
    rw [List.map_cons, List.map_cons, ih]
    rfl

/-- The keys of the expected movements, up to their order. -/
theorem movementKeys_perm {movements : List ExpectedMovement}
    (h : b.expectedMovements = .ok movements) :
    (movements.map ExpectedMovement.movementKey).Perm
      ((b.capturedPayments.flatMap fun p =>
        [(MovementType.capture, p.paymentId), (MovementType.fee, b.feeMovementId p)]) ++
        b.successfulRefunds.map fun r => (MovementType.refund, r.refundId)) := by
  obtain ⟨captures, hcaptures, h⟩ := bind_eq_ok.mp h
  obtain ⟨refunds, hrefunds, h⟩ := bind_eq_ok.mp h
  obtain rfl := Except.ok.inj h
  rw [← captureKeys_eq hcaptures, ← refundKeys_eq hrefunds, ← List.map_append]
  exact (sortedBy_perm _ _).map _

/-- The movement keys are distinct exactly when the IDs of the fee movements are. -/
theorem movementKeys_nodup {movements : List ExpectedMovement}
    (h : b.expectedMovements = .ok movements) :
    (movements.map ExpectedMovement.movementKey).Nodup ↔
      (b.capturedPayments.map b.feeMovementId).Nodup := by
  rw [(movementKeys_perm h).nodup_iff, List.nodup_append, List.nodup_flatMap]
  have hpayments := b.capturedPayments_nodup
  constructor
  · rintro ⟨⟨-, hdisjoint⟩, -, -⟩
    rw [List.Nodup, List.pairwise_map]
    refine hdisjoint.imp fun {p q} hpq he => ?_
    exact hpq (a := (MovementType.fee, b.feeMovementId p)) (by simp) (by simp [he])
  · intro hfees
    refine ⟨⟨fun p _ => by simp, ?_⟩, ?_, ?_⟩
    · rw [List.Nodup, List.pairwise_map] at hfees hpayments
      refine (hpayments.and hfees).imp fun {p q} hpq => ?_
      simpa [Function.onFun, List.Disjoint] using hpq
    · have hn := b.successfulRefunds_nodup.map (f := fun id => (MovementType.refund, id))
        fun x y hxy => (Prod.mk.inj hxy).2
      rwa [List.map_map] at hn
    · intro k hk k' hk' he
      obtain ⟨p, -, hk⟩ := List.mem_flatMap.mp hk
      obtain ⟨r, -, rfl⟩ := List.mem_map.mp hk'
      subst he
      simp at hk

end Books

/-! ## Publication -/

section Publication

variable {runId : Text} {detectedAt : UtcDateTime} {canonicalization : CanonicalizationResult}
  {completenessResults : List CompletenessResult} {quarantineRecords : List QuarantinedRecord}
  {r : ReconciliationResult}

/-- Everything but the movement keys can be published. -/
theorem publishable_iff_movements (h : reconcile runId detectedAt canonicalization
    completenessResults quarantineRecords = .ok r) :
    Publishable r ↔ (r.expectedMovements.map ExpectedMovement.movementKey).Nodup := by
  obtain ⟨b, movements, hopened, rfl⟩ := reconcile_ok h
  refine ⟨Publishable.movements, fun hmovements => ?_⟩
  have hrun : b.run.runId = runId := by rw [hopened.run_eq]
  constructor
  · have hchecked := hopened.runId_ok
    unfold requireRunId at hchecked
    split_ifs at hchecked with hcanonical
    change b.run.runId ≠ [] ∧ b.run.runId = strip b.run.runId
    rw [hrun]
    tauto
  · rfl
  · refine ((sortedBy_perm _ _).map _).nodup_iff.mpr ?_
    rw [Books.transactionRows, List.map_map]
    exact b.records.orders_nodup
  · refine ((sortedBy_perm _ _).map _).nodup_iff.mpr ?_
    rw [Books.payoutRows, List.map_map]
    exact b.records.payouts_nodup
  · exact hmovements
  · exact uniqueExceptions_keys_nodup _
  · obtain ⟨states, hstates, -⟩ := bind_eq_ok.mp hopened.states_eq
    have htypes := reportTypes_nodup hstates
    refine List.Nodup.of_map (fun k : SourceSystem × ReportType × Date => k.2.1) ?_
    change ((((sortedBy CompletenessResult.sortKey completenessResults).map
      CompletenessResult.status).map _).map _).Nodup
    rw [List.map_map, List.map_map]
    exact htypes
  · intro t ht
    obtain ⟨order, -, rfl⟩ := List.mem_map.mp ((mem_sortedBy _).mp ht)
    exact Books.transactionRow_valid _ _
  · intro p hp
    obtain ⟨payout, -, rfl⟩ := mem_payoutRows.mp ((mem_sortedBy _).mp hp)
    exact Books.payoutRow_valid payout
  · intro x hx
    obtain ⟨f, hf, rfl⟩ := List.mem_map.mp (mem_of_mem_uniqueExceptions hx)
    exact Books.allFindings_valid hf

theorem validateTransaction_eq_ok {t : TransactionReconciliation}
    (h : validateTransaction runId t = .ok ()) :
    t.collectionVariance = t.capturedTotal - t.expectedCollection ∧
      t.lifetimeNetCollection = t.capturedTotal - t.successfulRefundTotal - t.expectedFeeTotal := by
  simp only [validateTransaction, bind_eq_ok, require_eq_ok, exists_const] at h
  exact ⟨h.2.2.1, h.2.2.2.1⟩

theorem validatePayout_eq_ok {p : PayoutReconciliation} (h : validatePayout runId p = .ok ()) :
    p.providerReportVariance = p.reportedNetAmount - p.reportedLineTotal ∧
      p.endToEndPayoutVariance = p.reportedNetAmount - p.expectedPayout := by
  simp only [validatePayout, bind_eq_ok, require_eq_ok, exists_const] at h
  exact ⟨h.2.1, h.2.2.1⟩

/-- A result that passes the first check passes the second one on its document. -/
theorem Publishable.validateArithmetic {document : Json} (h : Publishable r)
    (hdocument : r.toValue.jsonValue = some document) :
    Threadline.validateArithmetic document = .ok () :=
  validateArithmetic_ok hdocument h.orders h.payouts
    (fun t ht => validateTransaction_eq_ok (h.transactionRows t ht))
    (fun p hp => validatePayout_eq_ok (h.payoutRows p hp))

/-- A result of the reconciler passes both checks, with distinct movement and exception keys,
exactly when no fee has the ID that is made up for the fee movement of another payment. -/
theorem reconcile_publishable_iff (h : reconcile runId detectedAt canonicalization
    completenessResults quarantineRecords = .ok r) :
    (validateForPublication r = .ok () ∧
      (∃ document, r.toValue.jsonValue = some document ∧ validateArithmetic document = .ok ()) ∧
      (r.expectedMovements.map fun m => (m.movementType, m.movementId)).Nodup ∧
      (r.exceptions.map fun x =>
        (x.ruleId, x.exceptionType, x.entityType, x.entityId)).Nodup) ↔
      FeeIdsClear canonicalization.canonicalRecords := by
  have hclear : Publishable r ↔ FeeIdsClear canonicalization.canonicalRecords := by
    rw [publishable_iff_movements h]
    obtain ⟨b, movements, hopened, rfl⟩ := reconcile_ok h
    exact (Books.movementKeys_nodup hopened.movements_eq).trans
      (Books.feeMovementIds_nodup hopened.records_eq)
  rw [validateForPublication_eq_ok, ← hclear]
  constructor
  · exact And.left
  · intro hpublishable
    obtain ⟨document, hdocument⟩ := r.json_isSome
    exact ⟨hpublishable, ⟨document, hdocument, hpublishable.validateArithmetic hdocument⟩,
      hpublishable.movements, hpublishable.exceptions⟩

end Publication

namespace PaidDay

/-- The paid day can be published. -/
theorem reconcile_publishable_paidDay :
    validateForPublication paidDay.result = .ok () ∧
      ∃ document, paidDay.result.toValue.jsonValue = some document ∧
        validateArithmetic document = .ok () := by
  have hvalid := (reconcile_publishable_iff paidDay.reconcile_eq).mpr (by decide +kernel)
  exact ⟨hvalid.1, hvalid.2.1⟩

/-- Two captured payments: the only fee has the ID that is made up for the second. -/
def clashingReceipts : DigestTable where
  rows := [paymentRow,
    ⟨txt "payments.json:2",
      .payment { payment with paymentId := txt "PAY-2", orderId := txt "ORD-2" },
      txt "852908747b746a4340db4f9f6be118c32edcee6a3a49e5be97b187ea540374aa"⟩,
    ⟨txt "fees.json:1", .fee { fee with feeId := txt "expected-fee:PAY-2" },
      txt "823b17b9074f4388459ee66c814fda36031b2f788455155ae40657037b12894a"⟩]
  digest_iff := by decide +kernel
  receiptIds := by decide +kernel
  encodable := by decide +kernel

def clashingDay : ReplayedDay where
  receipts := clashingReceipts
  completenessResults := completeReports
  canonicalizes := by decide +kernel
  reconciles := by decide +kernel

/-- The canonical receipts reconcile to a result that is refused. -/
theorem clashingDay_refused : canonicalize clashingDay.receipts.envelopes =
      .ok clashingDay.canonicalization ∧
    reconcile (txt "run-1") (atTen (september 18 rfl)) clashingDay.canonicalization
      clashingDay.completenessResults [] = .ok clashingDay.result ∧
    validateForPublication clashingDay.result =
      .error (.duplicate (txt "expected movement keys")) :=
  ⟨clashingDay.canonicalize_eq, clashingDay.reconcile_eq, by decide +kernel⟩

end PaidDay

end Threadline
