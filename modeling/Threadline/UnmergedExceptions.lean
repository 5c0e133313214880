import Threadline.KeyedLists
import Threadline.PayoutCoverage

/-!
# Exceptions of one key

A run collects its exceptions under the rule and the entity they are about. Most
rules look at one entity at a time. The rule on captures of a cancelled order
looks at one payment and reports the order, and the fee of one payment can bear
the name that the expected fee of another one is given.
-/

open PyText PyCalendar PySorted KeyedLists

namespace Threadline

theorem exceptionKey_eq_iff {x y : ReconciliationException} :
    exceptionKey x = exceptionKey y ↔ x.ruleId = y.ruleId ∧ x.exceptionType = y.exceptionType ∧
      x.entityType = y.entityType ∧ x.entityId = y.entityId := by
  simp only [exceptionKey, Prod.mk.injEq]

/-- Exceptions with one key are one exception. -/
def Unmerged (findings : List Finding) : Prop :=
  Separates exceptionKey (findings.map Finding.exception)

section Unmerged

variable {α : Type*} {fs gs : List Finding}

def CodesIn (codes : List ExceptionCode) (findings : List Finding) : Prop :=
  ∀ f ∈ findings, f.exception.exceptionType ∈ codes

theorem CodesIn.append {codes codes' : List ExceptionCode} (h : CodesIn codes fs)
    (h' : CodesIn codes' gs) : CodesIn (codes ++ codes') (fs ++ gs) := by
  intro f hf
  rcases List.mem_append.mp hf with hf | hf
  · exact List.mem_append_left _ (h f hf)
  · exact List.mem_append_right _ (h' f hf)

theorem CodesIn.flatMap {codes : List ExceptionCode} {xs : List α} {own : α → List Finding}
    (h : ∀ x ∈ xs, CodesIn codes (own x)) : CodesIn codes (xs.flatMap own) := by
  intro f hf
  obtain ⟨x, hx, hf⟩ := List.mem_flatMap.mp hf
  exact h x hx f hf

/-- Passes with different codes do not meet. -/
theorem unmerged_append {codes codes' : List ExceptionCode} (hf : CodesIn codes fs)
    (hg : CodesIn codes' gs) (hdisjoint : ∀ code ∈ codes, code ∉ codes') :
    Unmerged (fs ++ gs) ↔ Unmerged fs ∧ Unmerged gs := by
  rw [Unmerged, List.map_append]
  refine separates_append (P := fun key => key.2.1 ∈ codes) ?_ ?_
  · intro x hx
    obtain ⟨f, hmem, rfl⟩ := List.mem_map.mp hx
    exact hf f hmem
  · intro y hy hcode
    obtain ⟨g, hmem, rfl⟩ := List.mem_map.mp hy
    exact hdisjoint _ hcode (hg g hmem)

theorem unmerged_nil : Unmerged [] := separates_of_length_le_one (by simp)

theorem unmerged_gate {gate : Prop} [Decidable gate] :
    Unmerged (if gate then fs else []) ↔ (gate → Unmerged fs) := by
  split_ifs with h
  · exact ⟨fun hfs _ => hfs, fun hfs => hfs h⟩
  · exact iff_of_true unmerged_nil fun hgate => absurd hgate h

/-- A rule that looks at one entity at a time. -/
theorem unmerged_flatMap {xs : List α} {own : α → List Finding}
    (hown : ∀ x ∈ xs, Unmerged (own x))
    (hacross : ∀ x ∈ xs, ∀ y ∈ xs, ∀ f ∈ own x, ∀ g ∈ own y,
      exceptionKey f.exception = exceptionKey g.exception → x = y) :
    Unmerged (xs.flatMap own) := by
  rw [Unmerged, List.map_flatMap]
  refine separates_flatMap hown fun x hx y hy a ha b hb hkey => ?_
  obtain ⟨f, hf, rfl⟩ := List.mem_map.mp ha
  obtain ⟨g, hg, rfl⟩ := List.mem_map.mp hb
  exact hacross x hx y hy f hf g hg hkey

theorem unmerged_of_length_le_one (h : fs.length ≤ 1) : Unmerged fs :=
  separates_of_length_le_one (by rwa [List.length_map])

/-- Findings about one entity, at most one of a key. -/
structure About (codes : List ExceptionCode) (entityId : Text) (findings : List Finding) : Prop where
  codes : CodesIn codes findings
  entity : ∀ f ∈ findings, f.exception.entityId = entityId
  unmerged : Unmerged findings

theorem about_nil {codes : List ExceptionCode} {entityId : Text} : About codes entityId [] :=
  ⟨fun _ h => (nomatch h), fun _ h => (nomatch h), unmerged_nil⟩

theorem about_singleton {codes : List ExceptionCode} {run : Run} {code : ExceptionCode}
    {ruleId entityType entityId : Text} {expected actual : Option Amount}
    {support orderIds payoutIds : List Text} (hcode : code ∈ codes) :
    About codes entityId [⟨newException run ruleId code entityType entityId expected actual support,
      orderIds, payoutIds⟩] := by
  refine ⟨fun g hg => ?_, fun g hg => ?_, unmerged_of_length_le_one (le_refl 1)⟩
  · rwa [List.mem_singleton.mp hg]
  · rw [List.mem_singleton.mp hg]
    rfl

theorem About.append {codes codes' : List ExceptionCode} {entityId : Text}
    (h : About codes entityId fs) (h' : About codes' entityId gs)
    (hdisjoint : ∀ code ∈ codes, code ∉ codes') : About (codes ++ codes') entityId (fs ++ gs) := by
  refine ⟨h.codes.append h'.codes, fun f hf => ?_,
    (unmerged_append h.codes h'.codes hdisjoint).mpr ⟨h.unmerged, h'.unmerged⟩⟩
  rcases List.mem_append.mp hf with hf | hf
  · exact h.entity f hf
  · exact h'.entity f hf

/-- A rule that looks at each entity once does not merge. -/
theorem About.flatMap {codes : List ExceptionCode} {xs : List α} {entityId : α → Text}
    {own : α → List Finding} (h : ∀ x ∈ xs, About codes (entityId x) (own x))
    (hnodup : (xs.map entityId).Nodup) : Unmerged (xs.flatMap own) := by
  refine unmerged_flatMap (fun x hx => (h x hx).unmerged) fun x hx y hy f hf g hg hkey => ?_
  obtain ⟨-, -, -, hid⟩ := exceptionKey_eq_iff.mp hkey
  rw [(h x hx).entity f hf, (h y hy).entity g hg] at hid
  exact List.inj_on_of_nodup_map hnodup hx hy hid

end Unmerged

/-! ## Rules about one entity -/

namespace Books

variable {b : Books}

theorem about_refundFinding (r : Refund) :
    About [.orphanRefund, .refundCurrencyMismatch] r.refundId (b.refundFinding r) := by
  unfold refundFinding
  split
  · exact about_singleton (by decide)
  · split_ifs
    · exact about_singleton (by decide)
    · exact about_nil

theorem about_excessRefundFinding (p : Payment) :
    About [.excessRefund] p.paymentId (b.excessRefundFinding p) := by
  unfold excessRefundFinding
  simp only
  split_ifs
  · exact about_singleton (by decide)
  · exact about_nil

theorem about_capturedFeeFinding (p : Payment) :
    About [.missingFee, .feeMismatch] p.paymentId (b.capturedFeeFinding p) := by
  unfold capturedFeeFinding
  simp only
  split_ifs
  · exact about_singleton (by decide)
  · exact about_singleton (by decide)
  · exact about_nil

theorem about_unexpectedFeeFinding (fee : Fee) :
    About [.unexpectedFee] fee.feeId (b.unexpectedFeeFinding fee) := by
  unfold unexpectedFeeFinding
  split
  · exact about_singleton (by decide)
  · exact about_nil

theorem about_orderFindings (o : Order) :
    About [.missingPayment, .paymentAmountMismatch, .multipleCapture] o.orderId
      (b.orderFindings o) := by
  have hcollection : About [.missingPayment, .paymentAmountMismatch] o.orderId
      (b.collectionFinding o) := by
    unfold collectionFinding
    simp only
    split_ifs
    · exact about_singleton (by decide)
    · exact about_singleton (by decide)
    · exact about_nil
  have hmultiple : About [.multipleCapture] o.orderId (b.multipleCaptureFinding o) := by
    unfold multipleCaptureFinding
    simp only
    split_ifs
    · exact about_singleton (by decide)
    · exact about_nil
  unfold orderFindings
  split_ifs
  · exact hcollection.append hmultiple (by decide)
  · exact about_nil

theorem about_duplicateMovementFinding (item : (MovementType × Text) × List SettlementLine) :
    About [.duplicateSettlementMovement] (movementText item.1) (b.duplicateMovementFinding item) := by
  unfold duplicateMovementFinding
  split_ifs
  · exact about_nil
  · exact about_singleton (by decide)

theorem about_payoutTotalFinding (payout : Payout) :
    About [.payoutTotalMismatch] payout.payoutId (b.payoutTotalFinding payout) := by
  unfold payoutTotalFinding
  split_ifs
  · exact about_singleton (by decide)
  · exact about_nil

/-! ## Passes that never merge -/

theorem codesIn_gate {codes : List ExceptionCode} {fs : List Finding} {gate : Prop}
    [Decidable gate] (h : CodesIn codes fs) : CodesIn codes (if gate then fs else []) := by
  split_ifs
  · exact h
  · exact fun _ hf => nomatch hf

theorem codesIn_refundFindings :
    CodesIn [.orphanRefund, .refundCurrencyMismatch, .excessRefund] b.refundFindings :=
  codesIn_gate (CodesIn.append (CodesIn.flatMap fun r _ => (about_refundFinding r).codes)
    (CodesIn.flatMap fun p _ => (about_excessRefundFinding p).codes))

theorem unmerged_refundFindings : Unmerged b.refundFindings := by
  refine unmerged_gate.mpr fun _ => ?_
  refine (unmerged_append (CodesIn.flatMap fun r _ => (about_refundFinding r).codes)
    (CodesIn.flatMap fun p _ => (about_excessRefundFinding p).codes) (by decide)).mpr ⟨?_, ?_⟩
  · exact About.flatMap (fun r _ => about_refundFinding r) successfulRefunds_nodup
  · exact About.flatMap (fun p _ => about_excessRefundFinding p) capturedPayments_nodup

theorem codesIn_feeFindings :
    CodesIn [.missingFee, .feeMismatch, .unexpectedFee] b.feeFindings :=
  codesIn_gate (CodesIn.append (CodesIn.flatMap fun p _ => (about_capturedFeeFinding p).codes)
    (CodesIn.flatMap fun fee _ => (about_unexpectedFeeFinding fee).codes))

theorem unmerged_feeFindings : Unmerged b.feeFindings := by
  refine unmerged_gate.mpr fun _ => ?_
  refine (unmerged_append (CodesIn.flatMap fun p _ => (about_capturedFeeFinding p).codes)
    (CodesIn.flatMap fun fee _ => (about_unexpectedFeeFinding fee).codes) (by decide)).mpr ⟨?_, ?_⟩
  · exact About.flatMap (fun p _ => about_capturedFeeFinding p) capturedPayments_nodup
  · exact About.flatMap (fun fee _ => about_unexpectedFeeFinding fee) b.records.fees_nodup

theorem unmerged_orderFindings : Unmerged (b.records.orders.flatMap b.orderFindings) :=
  About.flatMap (fun o _ => about_orderFindings o) b.records.orders_nodup

theorem codesIn_duplicateMovementFindings :
    CodesIn [.duplicateSettlementMovement] b.duplicateMovementFindings :=
  codesIn_gate (CodesIn.flatMap fun item _ => (about_duplicateMovementFinding item).codes)

theorem unmerged_duplicateMovementFindings : Unmerged b.duplicateMovementFindings := by
  refine unmerged_gate.mpr fun _ => ?_
  refine About.flatMap (fun item _ => about_duplicateMovementFinding item) ?_
  rw [← Function.comp_def movementText Prod.fst, ← List.map_map]
  refine List.Nodup.map movementText_injective ?_
  exact ((sortedBy_perm _ _).map Prod.fst).nodup_iff.mpr (PyDict.nodup_keys _)

end Books

/-! ## Reports and conflicts -/

theorem colon_notMem_sourceSystem (s : SourceSystem) : ofChar ':' ∉ s.value := by
  cases s <;> decide

theorem colon_notMem_reportType (t : ReportType) : ofChar ':' ∉ t.value := by
  cases t <;> decide

theorem codesIn_sourceCompletenessFindings {run : Run} {results : List CompletenessResult} :
    CodesIn [.sourceReportMissing, .sourceReportInvalid]
      (sourceCompletenessFindings run results) := by
  intro f hf
  obtain ⟨result, -, rfl⟩ := List.mem_map.mp hf
  simp only [sourceCompletenessException, newException]
  split_ifs <;> decide

theorem unmerged_sourceCompletenessFindings {run : Run} {results : List CompletenessResult}
    (hnodup : (results.map fun result => result.status.reportType).Nodup) :
    Unmerged (sourceCompletenessFindings run results) := by
  rw [Unmerged, sourceCompletenessFindings, List.map_map]
  refine separates_map.mpr fun x hx y hy hkey => ?_
  simp only [Function.comp_apply, exceptionKey, sourceCompletenessException, newException,
    Prod.mk.injEq] at hkey
  obtain ⟨-, hid⟩ := append_sep_inj (colon_notMem_sourceSystem _) (colon_notMem_sourceSystem _)
    hkey.2.2.2
  obtain ⟨htype, -⟩ := append_sep_inj (colon_notMem_reportType _) (colon_notMem_reportType _) hid
  rw [List.inj_on_of_nodup_map hnodup (List.mem_of_mem_filter hx) (List.mem_of_mem_filter hy)
    (ReportType.value_injective htype)]

theorem codesIn_canonicalConflictFindings {run : Run} {canonicalization : CanonicalizationResult} :
    CodesIn [.conflictingSourceVersion] (canonicalConflictFindings run canonicalization) := by
  intro f hf
  obtain ⟨conflict, -, rfl⟩ := List.mem_map.mp hf
  exact List.mem_singleton_self _

/-- Conflicts about one entity name the same receipts. -/
def ConflictsAgree (conflicts : List CanonicalConflict) : Prop :=
  ∀ x ∈ conflicts, ∀ y ∈ conflicts, x.identity.entityType = y.identity.entityType →
    x.identity.sourceId = y.identity.sourceId → ∀ id, id ∈ x.receiptIds ↔ id ∈ y.receiptIds

theorem unmerged_canonicalConflictFindings {run : Run} {canonicalization : CanonicalizationResult} :
    Unmerged (canonicalConflictFindings run canonicalization) ↔
      ConflictsAgree canonicalization.conflicts := by
  rw [Unmerged, canonicalConflictFindings, List.map_map, separates_map]
  refine forall₂_congr fun x _ => forall₂_congr fun y _ => ?_
  simp only [Function.comp_apply, exceptionKey, conflictException, newException, Prod.mk.injEq,
    ReconciliationException.mk.injEq, true_and, and_imp]
  constructor
  · intro h htype hid id
    obtain ⟨-, -, hsupport⟩ := h (congrArg _ htype) hid
    rw [← mem_sortedSet, hsupport, mem_sortedSet]
  · intro h htype hid
    have hreceipts := h (EntityType.value_injective htype) hid
    exact ⟨htype, hid, sortedSet_eq_of_mem hreceipts⟩

/-! ## Captures of cancelled orders -/

namespace Books

variable {b : Books}

def orphanPaymentException (b : Books) (p : Payment) : ReconciliationException :=
  newException b.run (txt "payment.order_exists") .orphanPayment EntityType.payment.value
    p.paymentId none (some (.money p.amount)) [sourceReference (.payment p)]

def nonPayableException (b : Books) (o : Order) (p : Payment) : ReconciliationException :=
  newException b.run (txt "payment.order_is_payable") .captureForNonPayableOrder
    EntityType.order.value o.orderId (some (.money 0)) (some (.money p.amount))
    [sourceReference (.order o), sourceReference (.payment p)]

theorem paymentFinding_cases {p : Payment} {f : Finding} (hf : f ∈ b.paymentFinding p) :
    f.exception = b.orphanPaymentException p ∨
      ∃ o ∈ b.records.orders, o.status = .cancelled ∧ p.orderId = o.orderId ∧
        f.exception = b.nonPayableException o p := by
  unfold paymentFinding at hf
  split at hf
  · rw [List.mem_singleton.mp hf]
    exact .inl rfl
  next o horder =>
    obtain ⟨ho, hid⟩ := orderById_eq_some.mp horder
    split_ifs at hf with hcancelled
    · rw [List.mem_singleton.mp hf]
      exact .inr ⟨o, ho, hcancelled, hid.symm, rfl⟩
    · cases hf

theorem orphanPayment_ne_nonPayable {p q : Payment} {o : Order} :
    (b.orphanPaymentException p).exceptionType ≠ (b.nonPayableException o q).exceptionType := by
  intro h
  have h : ExceptionCode.orphanPayment = .captureForNonPayableOrder := h
  cases h

theorem exists_nonPayable {o : Order} {p : Payment} (ho : o ∈ b.records.orders)
    (hcancelled : o.status = .cancelled) (hid : p.orderId = o.orderId) :
    ∃ f ∈ b.paymentFinding p, f.exception = b.nonPayableException o p := by
  unfold paymentFinding
  rw [orderById_eq_some.mpr ⟨ho, hid.symm⟩]
  simp only
  rw [if_pos hcancelled]
  exact ⟨_, List.mem_singleton_self _, rfl⟩

theorem codesIn_paymentFindings :
    CodesIn [.orphanPayment, .captureForNonPayableOrder] b.paymentFindings := by
  refine codesIn_gate (CodesIn.flatMap fun p _ f hf => ?_)
  rcases paymentFinding_cases hf with he | ⟨o, -, -, -, he⟩
  · rw [he]
    exact List.mem_cons_self
  · rw [he]
    exact List.mem_cons_of_mem _ (List.mem_singleton_self _)

end Books

/-- A cancelled order has at most one captured payment. -/
def OneCapture (records : CanonicalRecords) : Prop :=
  ∀ o ∈ records.orders, o.status = .cancelled →
    ∀ p ∈ records.capturesOf o, ∀ q ∈ records.capturesOf o, p = q

theorem Books.unmerged_paymentFindings {b : Books} :
    Unmerged (b.capturedPayments.flatMap b.paymentFinding) ↔ OneCapture b.records := by
  constructor
  · intro h o ho hcancelled p hp q hq
    obtain ⟨hp, hpo⟩ := mem_capturesOf.mp hp
    obtain ⟨hq, hqo⟩ := mem_capturesOf.mp hq
    obtain ⟨f, hf, hfe⟩ := exists_nonPayable ho hcancelled hpo
    obtain ⟨g, hg, hge⟩ := exists_nonPayable ho hcancelled hqo
    have hsame : f.exception = g.exception := by
      refine h (List.mem_map_of_mem (List.mem_flatMap.mpr ⟨p, hp, hf⟩))
        (List.mem_map_of_mem (List.mem_flatMap.mpr ⟨q, hq, hg⟩)) ?_
      rw [hfe, hge]
      rfl
    -- The exception of a payment refers to that payment.
    have hsupport : sourceReference (.payment p) ∈
        (b.nonPayableException o q).supportingSourceRecordIds := by
      rw [← hge, ← hsame, hfe]
      exact mem_sortedSet.mpr (by simp)
    have hsupport := mem_sortedSet.mp hsupport
    simp only [List.mem_cons, List.not_mem_nil, or_false, sourceReference_eq_iff] at hsupport
    rcases hsupport with ⟨htype, -⟩ | ⟨-, hid⟩
    · cases htype
    · exact List.inj_on_of_nodup_map capturedPayments_nodup hp hq hid
  · intro h
    refine unmerged_flatMap (fun p _ => ?_) fun p hp q hq f hf g hg hkey => ?_
    · refine unmerged_of_length_le_one ?_
      unfold paymentFinding
      split
      · exact le_refl 1
      · split_ifs <;> simp
    · obtain ⟨-, htype, -, hid⟩ := exceptionKey_eq_iff.mp hkey
      rcases paymentFinding_cases hf with hfe | ⟨o, ho, hcancelled, hpo, hfe⟩
      · rcases paymentFinding_cases hg with hge | ⟨o', -, -, -, hge⟩
        · rw [hfe, hge] at hid
          exact List.inj_on_of_nodup_map capturedPayments_nodup hp hq hid
        · rw [hfe, hge] at htype
          exact absurd htype orphanPayment_ne_nonPayable
      · rcases paymentFinding_cases hg with hge | ⟨o', ho', -, hqo, hge⟩
        · rw [hfe, hge] at htype
          exact absurd htype.symm orphanPayment_ne_nonPayable
        · rw [hfe, hge] at hid
          obtain rfl := List.inj_on_of_nodup_map b.records.orders_nodup ho ho' hid
          exact h o ho hcancelled p (mem_capturesOf.mpr ⟨hp, hpo⟩) q
            (mem_capturesOf.mpr ⟨hq, hqo⟩)

/-! ## Movements of one name -/

namespace CanonicalRecords

variable (records : CanonicalRecords)

/-- The settlement lines of a payout for a movement. -/
def payoutLines (payout : Payout) (key : MovementType × Text) : List SettlementLine :=
  (records.settlementLines.filter fun line => line.payoutId = payout.payoutId).filter
    fun line => line.movementKey = key

/-- The only fee of a capture bears the name of the expected fee of another capture, which does not
have one fee. -/
structure NamesExpectedFee (p q : Payment) (fee : Fee) : Prop where
  captured : p ∈ records.capturedPayments
  other : q ∈ records.capturedPayments
  sole : records.feesOf p = [fee]
  name : records.feeIdOf q = fee.feeId
  notSole : ∀ fee', records.feesOf q ≠ [fee']

/-- Of two fee movements with one name, a payout of their days has a line of one of them, and a line
that a payout has of both has the amount of the fee. -/
def FeesApart : Prop :=
  ∀ p q fee, records.NamesExpectedFee p q fee → ∀ payout ∈ records.payouts,
    ∀ payout' ∈ records.payouts, p.availableOn = some payout.payoutDate →
    q.availableOn = some payout'.payoutDate →
      (records.payoutLines payout (.fee, fee.feeId) ≠ [] ∨
        records.payoutLines payout' (.fee, fee.feeId) ≠ []) ∧
      (payout = payout' → ∀ line, records.payoutLines payout (.fee, fee.feeId) = [line] →
        line.signedAmount = -fee.amount)

end CanonicalRecords

namespace Books

variable {b : Books} {movements : List ExpectedMovement}

theorem payoutLinesOfMovement_eq (payout : Payout) (m : ExpectedMovement) :
    b.payoutLinesOfMovement payout m = b.records.payoutLines payout m.movementKey := by
  rw [payoutLinesOfMovement, linesByPayout_eq, CanonicalRecords.payoutLines]

theorem feeMovementId_of_sole {p : Payment} {fee : Fee} (h : b.records.feesOf p = [fee]) :
    b.feeMovementId p = fee.feeId := by
  rw [b.feeMovementId_eq, CanonicalRecords.feeIdOf, h]

/-- The ID of a fee movement tells the payment, unless a fee bears the name of another one. -/
theorem eq_or_names {p q : Payment} (hp : p ∈ b.capturedPayments) (hq : q ∈ b.capturedPayments)
    (hid : b.feeMovementId p = b.feeMovementId q) : p = q ∨
      ∃ fee, fee.feeId = b.feeMovementId p ∧ (b.records.NamesExpectedFee p q fee ∨
        b.records.NamesExpectedFee q p fee) := by
  have hsole : ∀ {p : Payment}, (∀ fee, b.records.feesOf p ≠ [fee]) →
      b.feeMovementId p = txt "expected-fee:" ++ p.paymentId := by
    intro p hnot
    rw [b.feeMovementId_eq, CanonicalRecords.feeIdOf]
    split
    · next fee hfee => exact absurd hfee (hnot fee)
    · rfl
  have hname : ∀ {p q : Payment} {fee : Fee}, p ∈ b.capturedPayments → q ∈ b.capturedPayments →
      b.records.feesOf p = [fee] → (∀ fee', b.records.feesOf q ≠ [fee']) →
      b.feeMovementId p = b.feeMovementId q → b.records.NamesExpectedFee p q fee := by
    intro p q fee hp hq hfee hnot hid
    refine ⟨hp, hq, hfee, ?_, hnot⟩
    rw [← b.feeMovementId_eq, ← hid, feeMovementId_of_sole hfee]
  by_cases hsp : ∃ fee, b.records.feesOf p = [fee]
  · obtain ⟨fee, hfee⟩ := hsp
    by_cases hsq : ∃ fee', b.records.feesOf q = [fee']
    · obtain ⟨fee', hfee'⟩ := hsq
      rw [feeMovementId_of_sole hfee, feeMovementId_of_sole hfee'] at hid
      have hmem : fee ∈ b.records.feesOf p := hfee ▸ List.mem_singleton_self _
      have hmem' : fee' ∈ b.records.feesOf q := hfee' ▸ List.mem_singleton_self _
      rw [CanonicalRecords.feesOf, List.mem_filter, decide_eq_true_eq] at hmem hmem'
      obtain rfl := List.inj_on_of_nodup_map b.records.fees_nodup hmem.1 hmem'.1 hid
      exact .inl (List.inj_on_of_nodup_map capturedPayments_nodup hp hq
        (hmem.2.symm.trans hmem'.2))
    · rw [not_exists] at hsq
      exact .inr ⟨fee, (feeMovementId_of_sole hfee).symm, .inl (hname hp hq hfee hsq hid)⟩
  · rw [not_exists] at hsp
    by_cases hsq : ∃ fee', b.records.feesOf q = [fee']
    · obtain ⟨fee, hfee⟩ := hsq
      refine .inr ⟨fee, ?_, .inr (hname hq hp hfee hsp hid.symm)⟩
      rw [hid, feeMovementId_of_sole hfee]
    · rw [not_exists] at hsq
      rw [hsole hsp, hsole hsq] at hid
      exact .inl (List.inj_on_of_nodup_map capturedPayments_nodup hp hq
        (List.append_cancel_left hid))

/-- The fee movement of a capture. -/
def feeMovement (b : Books) (p : Payment) (day : Date) : ExpectedMovement :=
  ⟨.fee, b.feeMovementId p, day, -b.expectedFee p.paymentId,
    sourceReference (.payment p) ::
      (b.feesByPayment p.paymentId).map fun fee => sourceReference (.fee fee)⟩

theorem feeMovement_mem (h : b.expectedMovements = .ok movements) {p : Payment}
    (hp : p ∈ b.capturedPayments) {day : Date} (hday : p.availableOn = some day) :
    b.feeMovement p day ∈ movements :=
  (mem_expectedMovements h).mpr (.inl ⟨p, hp, day, hday,
    List.mem_cons_of_mem _ (List.mem_singleton_self _)⟩)

/-- Movements of one key are equal, or they are fee movements of one name. -/
theorem movement_eq_or_names (h : b.expectedMovements = .ok movements) {m m' : ExpectedMovement}
    (hm : m ∈ movements) (hm' : m' ∈ movements) (hkey : m.movementKey = m'.movementKey) :
    m = m' ∨ ∃ p q fee, m.movementKey = (.fee, fee.feeId) ∧
      (b.records.NamesExpectedFee p q fee ∨ b.records.NamesExpectedFee q p fee) ∧
      p.availableOn = some m.availableOn ∧ q.availableOn = some m'.availableOn := by
  obtain ⟨htype, hid⟩ := Prod.mk.inj hkey
  rcases (mem_expectedMovements h).mp hm with ⟨p, hp, d, hd, hm⟩ | ⟨r, hr, d, hd, rfl⟩
  · rcases (mem_expectedMovements h).mp hm' with ⟨q, hq, d', hd', hm'⟩ | ⟨r', hr', d', hd', rfl⟩
    · simp only [captureMovements, List.mem_cons, List.not_mem_nil, or_false] at hm hm'
      rcases hm with rfl | rfl
      · rcases hm' with rfl | rfl
        · obtain rfl := List.inj_on_of_nodup_map capturedPayments_nodup hp hq hid
          obtain rfl := Option.some.inj (hd.symm.trans hd')
          exact .inl rfl
        · cases htype
      · rcases hm' with rfl | rfl
        · cases htype
        · rcases eq_or_names hp hq hid with rfl | ⟨fee, hfee, hnames⟩
          · obtain rfl := Option.some.inj (hd.symm.trans hd')
            exact .inl rfl
          · exact .inr ⟨p, q, fee, by rw [hfee]; rfl, hnames, hd, hd'⟩
    · simp only [captureMovements, List.mem_cons, List.not_mem_nil, or_false] at hm
      rcases hm with rfl | rfl <;> cases htype
  · rcases (mem_expectedMovements h).mp hm' with ⟨q, hq, d', hd', hm'⟩ | ⟨r', hr', d', hd', rfl⟩
    · simp only [captureMovements, List.mem_cons, List.not_mem_nil, or_false] at hm'
      rcases hm' with rfl | rfl <;> cases htype
    · obtain rfl := List.inj_on_of_nodup_map successfulRefunds_nodup hr hr' hid
      obtain rfl := Option.some.inj (hd.symm.trans hd')
      exact .inl rfl

def lineAmountException (b : Books) (m : ExpectedMovement) (line : SettlementLine) :
    ReconciliationException :=
  newException b.run (txt "settlement.amount_matches_reported_source_movement")
    .settlementLineAmountMismatch EntityType.settlementLine.value line.settlementLineId
    (some (.money (b.expectedLineAmount m))) (some (.money line.signedAmount))
    (m.supportingSourceRecordIds ++ [sourceReference (.settlementLine line)])

theorem missingLine_ne_lineAmount {m m' : ExpectedMovement} {line : SettlementLine} :
    (b.missingLineException m).exceptionType ≠ (b.lineAmountException m' line).exceptionType := by
  intro h
  have h : ExceptionCode.missingSettlementLine = .settlementLineAmountMismatch := h
  cases h

/-- A movement of a payout misses its line, or its only line has another amount. -/
inductive MovementOrigin (b : Books) (payout : Payout) (m : ExpectedMovement) :
    ReconciliationException → Prop
  | missing (h : b.records.payoutLines payout m.movementKey = []) :
      MovementOrigin b payout m (b.missingLineException m)
  | amount (line : SettlementLine) (h : b.records.payoutLines payout m.movementKey = [line])
      (hne : line.signedAmount ≠ b.expectedLineAmount m) :
      MovementOrigin b payout m (b.lineAmountException m line)

theorem MovementOrigin.cases {payout : Payout} {m : ExpectedMovement}
    {x : ReconciliationException} (h : b.MovementOrigin payout m x) :
    (b.records.payoutLines payout m.movementKey = [] ∧ x = b.missingLineException m) ∨
      ∃ line, b.records.payoutLines payout m.movementKey = [line] ∧
        line.signedAmount ≠ b.expectedLineAmount m ∧ x = b.lineAmountException m line := by
  cases h with
  | missing hlines => exact .inl ⟨hlines, rfl⟩
  | amount line hlines hne => exact .inr ⟨line, hlines, hne, rfl⟩

theorem mem_movementFinding {payout : Payout} {m : ExpectedMovement}
    {x : ReconciliationException} : (∃ f ∈ b.movementFinding payout m, f.exception = x) ↔
      b.MovementOrigin payout m x := by
  unfold movementFinding
  rw [PyDict.getD_groupBy, ← payoutLinesOfMovement, payoutLinesOfMovement_eq]
  constructor
  · rintro ⟨f, hf, rfl⟩
    split at hf
    next hlines =>
      rw [List.mem_singleton.mp hf]
      exact .missing hlines
    next line hlines =>
      split_ifs at hf with hne
      · rw [List.mem_singleton.mp hf]
        exact .amount line hlines hne
      · cases hf
    next => cases hf
  · intro h
    cases h with
    | missing hlines =>
      rw [hlines]
      exact ⟨_, List.mem_singleton_self _, rfl⟩
    | amount line hlines hne =>
      rw [hlines]
      simp only
      rw [if_pos hne]
      exact ⟨_, List.mem_singleton_self _, rfl⟩

/-- The movement findings of the payouts. -/
def movementFindings (b : Books) (movements : List ExpectedMovement) : List Finding :=
  b.records.payouts.flatMap fun payout =>
    (expectedForDate movements payout.payoutDate).flatMap (b.movementFinding payout)

theorem mem_movementFindings {x : ReconciliationException} :
    x ∈ (b.movementFindings movements).map Finding.exception ↔
      ∃ payout ∈ b.records.payouts, ∃ m ∈ movements, m.availableOn = payout.payoutDate ∧
        b.MovementOrigin payout m x := by
  simp only [movementFindings, List.mem_map, List.mem_flatMap, expectedForDate_eq, List.mem_filter,
    decide_eq_true_eq, ← mem_movementFinding]
  constructor
  · rintro ⟨f, ⟨payout, hpayout, m, ⟨hm, hdate⟩, hf⟩, rfl⟩
    exact ⟨payout, hpayout, m, hm, hdate, f, hf, rfl⟩
  · rintro ⟨payout, hpayout, m, hm, hdate, f, hf, rfl⟩
    exact ⟨f, ⟨payout, hpayout, m, ⟨hm, hdate⟩, hf⟩, rfl⟩

theorem codesIn_movementFinding {payout : Payout} {m : ExpectedMovement} :
    CodesIn [.missingSettlementLine, .settlementLineAmountMismatch]
      (b.movementFinding payout m) := by
  intro f hf
  have horigin := mem_movementFinding.mp ⟨f, hf, rfl⟩
  generalize f.exception = x at horigin
  cases horigin with
  | missing => exact List.mem_cons_self
  | amount => exact List.mem_cons_of_mem _ (List.mem_singleton_self _)

theorem codesIn_movementFindings :
    CodesIn [.missingSettlementLine, .settlementLineAmountMismatch]
      (b.movementFindings movements) :=
  CodesIn.flatMap fun _ _ => CodesIn.flatMap fun _ _ => codesIn_movementFinding

/-- The line of a fee movement must have the amount of the fee that bears its name. -/
theorem expectedLineAmount_of_names {p q : Payment} {fee : Fee} {m : ExpectedMovement}
    (hnames : b.records.NamesExpectedFee p q fee) (hkey : m.movementKey = (.fee, fee.feeId)) :
    b.expectedLineAmount m = -fee.amount := by
  obtain ⟨htype, hid⟩ := Prod.mk.inj hkey
  have hmem : fee ∈ b.records.feesOf p := hnames.sole ▸ List.mem_singleton_self _
  have hfee := feeById_eq_some.mpr ⟨List.mem_of_mem_filter hmem, rfl⟩
  rw [expectedLineAmount, if_pos htype, hid, hfee]

/-- With their fees apart, movements of one name are not reported together. -/
theorem FeesApart.eq_of_missing (hapart : b.records.FeesApart)
    (h : b.expectedMovements = .ok movements) {m m' : ExpectedMovement} (hm : m ∈ movements)
    (hm' : m' ∈ movements) (hkey : m.movementKey = m'.movementKey) {payout payout' : Payout}
    (hpayout : payout ∈ b.records.payouts) (hpayout' : payout' ∈ b.records.payouts)
    (hdate : m.availableOn = payout.payoutDate) (hdate' : m'.availableOn = payout'.payoutDate)
    (hnil : b.records.payoutLines payout m.movementKey = [])
    (hnil' : b.records.payoutLines payout' m'.movementKey = []) : m = m' := by
  refine (movement_eq_or_names h hm hm' hkey).resolve_right ?_
  rintro ⟨p, q, fee, hfee, hnames | hnames, hp, hq⟩
  · rw [hdate] at hp
    rw [hdate'] at hq
    rw [← hkey, hfee] at hnil'
    rw [hfee] at hnil
    exact (hapart p q fee hnames payout hpayout payout' hpayout' hp hq).1.elim
      (fun hne => hne hnil) fun hne => hne hnil'
  · rw [hdate] at hp
    rw [hdate'] at hq
    rw [← hkey, hfee] at hnil'
    rw [hfee] at hnil
    exact (hapart q p fee hnames payout' hpayout' payout hpayout hq hp).1.elim
      (fun hne => hne hnil') fun hne => hne hnil

theorem FeesApart.eq_of_amount (hapart : b.records.FeesApart)
    (h : b.expectedMovements = .ok movements) {m m' : ExpectedMovement} (hm : m ∈ movements)
    (hm' : m' ∈ movements) (hkey : m.movementKey = m'.movementKey) {payout : Payout}
    (hpayout : payout ∈ b.records.payouts) (hdate : m.availableOn = payout.payoutDate)
    (hdate' : m'.availableOn = payout.payoutDate) {line : SettlementLine}
    (hline : b.records.payoutLines payout m.movementKey = [line])
    (hne : line.signedAmount ≠ b.expectedLineAmount m) : m = m' := by
  refine (movement_eq_or_names h hm hm' hkey).resolve_right ?_
  rintro ⟨p, q, fee, hfee, hnames | hnames, hp, hq⟩
  · rw [hdate] at hp
    rw [hdate'] at hq
    rw [hfee] at hline
    rw [expectedLineAmount_of_names hnames hfee] at hne
    exact hne ((hapart p q fee hnames payout hpayout payout hpayout hp hq).2 rfl line hline)
  · rw [hdate] at hp
    rw [hdate'] at hq
    rw [hfee] at hline
    rw [expectedLineAmount_of_names hnames hfee] at hne
    exact hne ((hapart q p fee hnames payout hpayout payout hpayout hq hp).2 rfl line hline)

/-- The movement of a fee refers to its payment. -/
theorem payment_eq_of_support {p q : Payment} (hp : p ∈ b.capturedPayments)
    (hq : q ∈ b.capturedPayments) {day : Date}
    (h : sourceReference (.payment p) ∈ (b.feeMovement q day).supportingSourceRecordIds) :
    p = q := by
  simp only [feeMovement, List.mem_cons, List.mem_map, sourceReference_eq_iff] at h
  rcases h with ⟨-, hid⟩ | ⟨fee, -, htype, -⟩
  · exact List.inj_on_of_nodup_map capturedPayments_nodup hp hq hid
  · cases htype

theorem unmerged_movementFindings (h : b.expectedMovements = .ok movements) :
    Unmerged (b.movementFindings movements) ↔ b.records.FeesApart := by
  constructor
  · intro hunmerged p q fee hnames payout hpayout payout' hpayout' hp hq
    have hm := feeMovement_mem h hnames.captured hp
    have hm' := feeMovement_mem h hnames.other hq
    have hkey : (b.feeMovement p payout.payoutDate).movementKey = (.fee, fee.feeId) :=
      Prod.ext rfl (feeMovementId_of_sole hnames.sole)
    have hkey' : (b.feeMovement q payout'.payoutDate).movementKey = (.fee, fee.feeId) :=
      Prod.ext rfl ((b.feeMovementId_eq q).trans hnames.name)
    -- No exception is about both movements: it refers to one payment.
    have hdiffer : sourceReference (.payment p) ∉
        (b.feeMovement q payout'.payoutDate).supportingSourceRecordIds := by
      intro hmem
      have hsole := hnames.sole
      rw [payment_eq_of_support hnames.captured hnames.other hmem] at hsole
      exact hnames.notSole fee hsole
    constructor
    · by_contra hnone
      rw [not_or, not_not, not_not] at hnone
      rw [← hkey] at hnone
      have hx := mem_movementFindings.mpr ⟨payout, hpayout, _, hm, rfl, .missing hnone.1⟩
      rw [hkey, ← hkey'] at hnone
      have hy := mem_movementFindings.mpr ⟨payout', hpayout', _, hm', rfl, .missing hnone.2⟩
      have hsame := hunmerged hx hy (by
        simp only [exceptionKey_eq_iff, missingLineException, newException, hkey, hkey', and_self])
      have hsupport : sourceReference (.payment p) ∈ (b.missingLineException
          (b.feeMovement p payout.payoutDate)).supportingSourceRecordIds :=
        mem_sortedSet.mpr List.mem_cons_self
      rw [hsame] at hsupport
      exact hdiffer (mem_sortedSet.mp hsupport)
    · rintro rfl line hline
      by_contra hne
      have hx := mem_movementFindings.mpr ⟨payout, hpayout, _, hm, rfl, .amount line
        (hkey ▸ hline) (by rwa [expectedLineAmount_of_names hnames hkey])⟩
      have hy := mem_movementFindings.mpr ⟨payout, hpayout, _, hm', rfl, .amount line
        (hkey' ▸ hline) (by rwa [expectedLineAmount_of_names hnames hkey'])⟩
      have hsame := hunmerged hx hy rfl
      have hsupport : sourceReference (.payment p) ∈ (b.lineAmountException
          (b.feeMovement p payout.payoutDate) line).supportingSourceRecordIds :=
        mem_sortedSet.mpr (List.mem_append_left _ List.mem_cons_self)
      rw [hsame] at hsupport
      rcases List.mem_append.mp (mem_sortedSet.mp hsupport) with hmem | hmem
      · exact hdiffer hmem
      · have htype := (sourceReference_eq_iff.mp (List.mem_singleton.mp hmem)).1
        cases htype
  · intro hapart x hx y hy hkey
    obtain ⟨payout, hpayout, m, hm, hdate, hx⟩ := mem_movementFindings.mp hx
    obtain ⟨payout', hpayout', m', hm', hdate', hy⟩ := mem_movementFindings.mp hy
    obtain ⟨-, htype, -, hid⟩ := exceptionKey_eq_iff.mp hkey
    rcases hx.cases with ⟨hnil, hxe⟩ | ⟨line, hline, hne, hxe⟩
    · rcases hy.cases with ⟨hnil', hye⟩ | ⟨line', -, -, hye⟩
      · rw [hxe, hye] at hid
        have hmovement : m.movementKey = m'.movementKey := movementText_injective hid
        rw [hxe, hye, FeesApart.eq_of_missing hapart h hm hm' hmovement hpayout hpayout' hdate
          hdate' hnil hnil']
      · rw [hxe, hye] at htype
        exact absurd htype missingLine_ne_lineAmount
    · rcases hy.cases with ⟨-, hye⟩ | ⟨line', hline', -, hye⟩
      · rw [hxe, hye] at htype
        exact absurd htype.symm missingLine_ne_lineAmount
      · rw [hxe, hye] at hid
        have hid : line.settlementLineId = line'.settlementLineId := hid
        have hmem : line ∈ b.records.payoutLines payout m.movementKey :=
          hline ▸ List.mem_singleton_self _
        have hmem' : line' ∈ b.records.payoutLines payout' m'.movementKey :=
          hline' ▸ List.mem_singleton_self _
        simp only [CanonicalRecords.payoutLines, List.mem_filter, decide_eq_true_eq] at hmem hmem'
        obtain rfl := List.inj_on_of_nodup_map b.records.settlementLines_nodup hmem.1.1 hmem'.1.1 hid
        obtain rfl := List.inj_on_of_nodup_map b.records.payouts_nodup hpayout hpayout'
          (hmem.1.2.symm.trans hmem'.1.2)
        rw [hxe, hye, FeesApart.eq_of_amount hapart h hm hm' (hmem.2.symm.trans hmem'.2) hpayout
          hdate hdate' hline hne]

/-- The findings of the payout loop, pass by pass. -/
theorem mem_payoutFindings {x : ReconciliationException} :
    x ∈ (b.records.payouts.flatMap (b.payoutFindings movements)).map Finding.exception ↔
      x ∈ ((if reportsComplete b.states [.payments, .refunds, .fees, .settlementLines] then
        b.movementFindings movements else []) ++
          b.records.payouts.flatMap b.payoutTotalFinding).map Finding.exception := by
  rw [List.mem_map, List.mem_map]
  refine exists_congr fun f => and_congr_left fun _ => ?_
  simp only [payoutFindings, movementFindings, List.mem_append, List.mem_flatMap]
  split_ifs
  · simp only [List.mem_flatMap]
    constructor
    · rintro ⟨payout, hpayout, hf | hf⟩
      · exact .inl ⟨payout, hpayout, hf⟩
      · exact .inr ⟨payout, hpayout, hf⟩
    · rintro (⟨payout, hpayout, hf⟩ | ⟨payout, hpayout, hf⟩)
      · exact ⟨payout, hpayout, .inl hf⟩
      · exact ⟨payout, hpayout, .inr hf⟩
  · simp

theorem codesIn_payoutFindings :
    CodesIn [.missingSettlementLine, .settlementLineAmountMismatch, .payoutTotalMismatch]
      (b.records.payouts.flatMap (b.payoutFindings movements)) := by
  have htotals : CodesIn [.payoutTotalMismatch]
      (b.records.payouts.flatMap b.payoutTotalFinding) :=
    CodesIn.flatMap fun payout _ => (about_payoutTotalFinding payout).codes
  intro f hf
  obtain ⟨g, hg, he⟩ := List.mem_map.mp (mem_payoutFindings.mp (List.mem_map_of_mem hf))
  rw [← he]
  exact (codesIn_gate codesIn_movementFindings).append htotals g hg

theorem unmerged_payoutFindings (h : b.expectedMovements = .ok movements) :
    Unmerged (b.records.payouts.flatMap (b.payoutFindings movements)) ↔
      (reportsComplete b.states [.payments, .refunds, .fees, .settlementLines] →
        b.records.FeesApart) := by
  have htotals : Unmerged (b.records.payouts.flatMap b.payoutTotalFinding) :=
    About.flatMap (fun payout _ => about_payoutTotalFinding payout) b.records.payouts_nodup
  rw [Unmerged, separates_congr fun x => mem_payoutFindings]
  refine (unmerged_append (codesIn_gate codesIn_movementFindings)
    (CodesIn.flatMap fun payout _ => (about_payoutTotalFinding payout).codes) (by decide)).trans ?_
  rw [unmerged_gate, unmerged_movementFindings h]
  exact and_iff_left htotals

end Books

/-! ## The run -/

section Run

variable {runId : Text} {detectedAt : UtcDateTime} {canonicalization : CanonicalizationResult}
  {completenessResults : List CompletenessResult} {b : Books} {movements : List ExpectedMovement}

/-- No two exceptions of a run meet under one key. -/
structure ExceptionsApart (canonicalization : CanonicalizationResult)
    (completenessResults : List CompletenessResult) : Prop where
  conflicts : ConflictsAgree canonicalization.conflicts
  captures : (∀ t ∈ [ReportType.orders, .payments], ReportComplete completenessResults t) →
    OneCapture (splitCanonicalRecords canonicalization)
  fees : (∀ t ∈ [ReportType.payments, .refunds, .fees, .settlementLines],
    ReportComplete completenessResults t) → (splitCanonicalRecords canonicalization).FeesApart

theorem Opened.reportsComplete_iff
    (h : Opened runId detectedAt canonicalization completenessResults b movements)
    (required : List ReportType) : reportsComplete b.states required = true ↔
      ∀ t ∈ required, ReportComplete completenessResults t := by
  rw [Threadline.reportsComplete_iff]
  exact forall₂_congr fun t _ => h.complete_iff t

theorem Opened.unmerged_iff
    (h : Opened runId detectedAt canonicalization completenessResults b movements) :
    Unmerged (b.allFindings canonicalization
      (sortedBy CompletenessResult.sortKey completenessResults) movements) ↔
      ExceptionsApart canonicalization completenessResults := by
  obtain ⟨states, hstates, -⟩ := PyExcept.bind_eq_ok.mp h.states_eq
  have hreports := @unmerged_sourceCompletenessFindings b.run _ (reportTypes_nodup hstates)
  have hs := @codesIn_sourceCompletenessFindings b.run
    (sortedBy CompletenessResult.sortKey completenessResults)
  have hc := hs.append (@codesIn_canonicalConflictFindings b.run canonicalization)
  have hp := hc.append (Books.codesIn_paymentFindings (b := b))
  have hr := hp.append (Books.codesIn_refundFindings (b := b))
  have hf := hr.append (Books.codesIn_feeFindings (b := b))
  have ho := hf.append (CodesIn.flatMap fun o (_ : o ∈ b.records.orders) =>
    (Books.about_orderFindings (b := b) o).codes)
  have hd := ho.append (Books.codesIn_duplicateMovementFindings (b := b))
  unfold Books.allFindings Books.middleFindings Books.earlyFindings
  rw [unmerged_append hd Books.codesIn_payoutFindings (by decide),
    unmerged_append ho Books.codesIn_duplicateMovementFindings (by decide),
    unmerged_append hf (CodesIn.flatMap fun o _ => (Books.about_orderFindings o).codes) (by decide),
    unmerged_append hr Books.codesIn_feeFindings (by decide),
    unmerged_append hp Books.codesIn_refundFindings (by decide),
    unmerged_append hc Books.codesIn_paymentFindings (by decide),
    unmerged_append hs codesIn_canonicalConflictFindings (by decide),
    unmerged_canonicalConflictFindings, Books.paymentFindings, unmerged_gate,
    Books.unmerged_paymentFindings, Books.unmerged_payoutFindings h.movements_eq,
    h.reportsComplete_iff, h.reportsComplete_iff]
  have horders : Unmerged (b.records.orders.flatMap b.orderFindings) := Books.unmerged_orderFindings
  constructor
  · rintro ⟨⟨⟨⟨⟨⟨⟨-, hconflicts⟩, hcaptures⟩, -⟩, -⟩, -⟩, -⟩, hfees⟩
    exact ⟨hconflicts, h.records_eq ▸ hcaptures, h.records_eq ▸ hfees⟩
  · rintro ⟨hconflicts, hcaptures, hfees⟩
    rw [← h.records_eq] at hcaptures hfees
    exact ⟨⟨⟨⟨⟨⟨⟨hreports, hconflicts⟩, hcaptures⟩, Books.unmerged_refundFindings⟩,
      Books.unmerged_feeFindings⟩, horders⟩, Books.unmerged_duplicateMovementFindings⟩, hfees⟩

end Run

/-- The run keeps what it generates: exceptions with one key are equal, none is dropped, and every
capture of a cancelled order is reported with its amount and its reference. -/
structure ExceptionsKept (b : Books) (findings : List Finding) (result : ReconciliationResult) :
    Prop where
  unmerged : ∀ f ∈ findings, ∀ g ∈ findings,
    exceptionKey f.exception = exceptionKey g.exception → f.exception = g.exception
  kept : ∀ f ∈ findings, f.exception ∈ result.exceptions
  cancelled : reportsComplete b.states [.orders, .payments] → ∀ o ∈ b.records.orders,
    o.status = .cancelled → ∀ p ∈ b.records.capturesOf o,
      b.nonPayableException o p ∈ result.exceptions

theorem unmerged_eq_forall {findings : List Finding} : Unmerged findings ↔
    ∀ f ∈ findings, ∀ g ∈ findings,
      exceptionKey f.exception = exceptionKey g.exception → f.exception = g.exception :=
  separates_map

/-- A run keeps its exceptions exactly when the conflicts about one entity agree, no cancelled order
has two captures, and no two fee movements of one name are reported. -/
theorem exceptions_kept_iff {runId : Text} {detectedAt : UtcDateTime}
    {canonicalization : CanonicalizationResult} {completenessResults : List CompletenessResult}
    {quarantineRecords : List QuarantinedRecord} {result : ReconciliationResult}
    (h : reconcile runId detectedAt canonicalization completenessResults quarantineRecords =
      .ok result) :
    ∃ b movements, Opened runId detectedAt canonicalization completenessResults b movements ∧
      result = b.result canonicalization (sortedBy CompletenessResult.sortKey completenessResults)
        quarantineRecords movements ∧
      (ExceptionsKept b (b.allFindings canonicalization
        (sortedBy CompletenessResult.sortKey completenessResults) movements) result ↔
        ExceptionsApart canonicalization completenessResults) := by
  obtain ⟨b, movements, hopened, rfl⟩ := reconcile_ok h
  refine ⟨b, movements, hopened, rfl, ?_⟩
  constructor
  · intro hkept
    exact hopened.unmerged_iff.mp (unmerged_eq_forall.mpr hkept.unmerged)
  · intro hapart
    have hunmerged := hopened.unmerged_iff.mpr hapart
    have hkept : ∀ f ∈ b.allFindings canonicalization
        (sortedBy CompletenessResult.sortKey completenessResults) movements,
        f.exception ∈ (b.result canonicalization (sortedBy CompletenessResult.sortKey
          completenessResults) quarantineRecords movements).exceptions := fun f hf =>
      (mem_sortedBy _).mpr (mem_values_ofPairs hunmerged (List.mem_map_of_mem hf))
    refine ⟨unmerged_eq_forall.mp hunmerged, hkept, fun hgate o ho hcancelled p hp => ?_⟩
    obtain ⟨hp, hid⟩ := Books.mem_capturesOf.mp hp
    obtain ⟨f, hf, he⟩ := Books.exists_nonPayable ho hcancelled hid
    rw [← he]
    refine hkept f ?_
    simp only [Books.allFindings, Books.middleFindings, Books.earlyFindings, List.mem_append,
      Books.paymentFindings, if_pos hgate]
    exact .inl (.inl (.inl (.inl (.inl (.inr (List.mem_flatMap.mpr ⟨p, hp, hf⟩))))))

/-! ## Two captures of a cancelled order -/

namespace PaidDay

def cancelledOrder : Order := { order with status := .cancelled }

def secondPayment : Payment := { payment with paymentId := txt "PAY-2", amount := 5000 }

def cancelledReceipts : DigestTable where
  rows := [
    ⟨txt "orders.json:1", .order cancelledOrder,
      txt "8a49911c28439a306359cbbfc12496f0400ebf1b3441a6136a152f5df07c4552"⟩,
    paymentRow,
    ⟨txt "payments.json:2", .payment secondPayment,
      txt "35d1d8c7bfc136bcf3ab03be08c3e51a76650594f1c138e89f611b7aa1478cdd"⟩]
  digest_iff := by decide +kernel
  receiptIds := by decide +kernel
  encodable := by decide +kernel

def twoCapturesDay : ReplayedDay where
  receipts := cancelledReceipts
  completenessResults := completeReports
  canonicalizes := by decide +kernel
  reconciles := by decide +kernel

/-- Of two captures of a cancelled order, one is not in the exception of the order. -/
theorem twoCapturesDay_merged :
    (∃ b movements, Opened (txt "run-1") (atTen (september 18 rfl))
      twoCapturesDay.canonicalization twoCapturesDay.completenessResults b movements ∧
      ¬ ExceptionsKept b (b.allFindings twoCapturesDay.canonicalization (sortedBy
        CompletenessResult.sortKey twoCapturesDay.completenessResults) movements)
          twoCapturesDay.result) ∧
    .order cancelledOrder ∈ twoCapturesDay.canonicalization.canonicalRecords ∧
    .payment payment ∈ twoCapturesDay.canonicalization.canonicalRecords ∧
    .payment secondPayment ∈ twoCapturesDay.canonicalization.canonicalRecords ∧
    (twoCapturesDay.result.exceptions.filter fun x =>
      x.exceptionType = .captureForNonPayableOrder).map (fun x =>
        (x.actualAmount, x.supportingSourceRecordIds)) =
      [(some (.money 5000), [txt "ORDER:ORD-1", txt "PAYMENT:PAY-2"])] := by
  refine ⟨?_, by decide +kernel⟩
  obtain ⟨b, movements, hopened, -⟩ := reconcile_ok twoCapturesDay.reconcile_eq
  refine ⟨b, movements, hopened, fun hkept => ?_⟩
  have hapart := hopened.unmerged_iff.mp (unmerged_eq_forall.mpr hkept.unmerged)
  have hrecords : cancelledOrder ∈ (splitCanonicalRecords twoCapturesDay.canonicalization).orders ∧
      payment ∈ (splitCanonicalRecords twoCapturesDay.canonicalization).capturesOf cancelledOrder ∧
      secondPayment ∈
        (splitCanonicalRecords twoCapturesDay.canonicalization).capturesOf cancelledOrder := by
    decide +kernel
  have hsame := hapart.captures (fun t _ => completeReports_complete t) cancelledOrder hrecords.1 rfl
    payment hrecords.2.1 secondPayment hrecords.2.2
  exact absurd hsame (by decide)

/-- On the settled day the exceptions are kept. -/
theorem settledDay_kept :
    ∃ b movements, Opened (txt "run-1") (atTen (september 18 rfl)) settledDay.canonicalization
      settledDay.completenessResults b movements ∧
      ExceptionsKept b (b.allFindings settledDay.canonicalization (sortedBy
        CompletenessResult.sortKey settledDay.completenessResults) movements) settledDay.result := by
  obtain ⟨b, movements, hopened, -, hiff⟩ := exceptions_kept_iff settledDay.reconcile_eq
  refine ⟨b, movements, hopened, hiff.mpr ⟨?_, fun _ => ?_, fun _ p q fee hnames => ?_⟩⟩
  · have hnone : settledDay.canonicalization.conflicts = [] := by decide +kernel
    intro x hx
    rw [hnone] at hx
    cases hx
  · have hpaid : ∀ o ∈ (splitCanonicalRecords settledDay.canonicalization).orders,
        o.status ≠ .cancelled := by decide +kernel
    exact fun o ho hcancelled => absurd hcancelled (hpaid o ho)
  · have hone : (splitCanonicalRecords settledDay.canonicalization).capturedPayments = [payment] := by
      decide +kernel
    obtain rfl := List.mem_singleton.mp (hone ▸ hnames.captured)
    obtain rfl := List.mem_singleton.mp (hone ▸ hnames.other)
    exact absurd hnames.sole (hnames.notSole fee)

end PaidDay

end Threadline
