import Threadline.ArrivalOrder
import Threadline.BusinessDays
import Threadline.Conservation
import Threadline.RowContract

/-!
# Late data

The business dates that a record affects, resolved from its own fields and from
the dates of its parents. The fields are read by name, and a record that lacks
one counts as unresolved.
-/

open PyText PyJson PyCalendar PySorted PyExcept

namespace Threadline

/-- Relationship data required to resolve financial dates. -/
structure ImpactContext where
  paymentAvailableOn : PyDict Text Date
  payoutDates : PyDict Text Date

/-- Affected dates are kept as an ordered set. -/
structure ImpactResolution where
  affectedDates : List Date
  unresolvedReason : Option Text
  deriving DecidableEq

def ImpactResolution.unresolved (reason : Text) : ImpactResolution := ⟨sortedSet [], some reason⟩

def ImpactResolution.onDay (day : Date) : ImpactResolution := ⟨sortedSet [day], none⟩

namespace FinancialRecord

/-! ## Fields by name -/

/-- `getattr(record, "available_on", None)`. -/
def availableOn? : FinancialRecord → Option Date
  | .payment r => r.availableOn
  | .refund r => r.availableOn
  | .fee r => some r.availableOn
  | _ => none

/-- `getattr(record, "payment_id", None)`. -/
def paymentId? : FinancialRecord → Option Text
  | .payment r => some r.paymentId
  | .refund r => some r.paymentId
  | .fee r => some r.paymentId
  | _ => none

/-- `getattr(record, "payout_id", None)`. -/
def payoutId? : FinancialRecord → Option Text
  | .settlementLine r => some r.payoutId
  | .payout r => some r.payoutId
  | _ => none

/-- `getattr(record, "payout_date", None)`. -/
def payoutDate? : FinancialRecord → Option Date
  | .payout r => some r.payoutDate
  | _ => none

/-- `getattr(record, "effective_at_utc", None)`, which an order does not have. -/
def effectiveAtUtc? : FinancialRecord → Option UtcDateTime
  | .payment r => some r.effectiveAtUtc
  | .refund r => some r.effectiveAtUtc
  | .fee r => some r.effectiveAtUtc
  | _ => none

end FinancialRecord

/-- `dates.get(id) if id else None`. -/
def lookUpDate (dates : PyDict Text Date) (id : Option Text) : Option Date :=
  id.bind fun id => if id = [] then none else dates.get? id

/-- `resolve_record_impact`; the date of an order may lie outside the calendar. -/
def resolveRecordImpact (zone : Zone) (record : FinancialRecord) (context : ImpactContext) :
    Option ImpactResolution :=
  match record.entityType with
  | .payment | .refund =>
    match record.availableOn? with
    | none => some (.unresolved (record.entityType.value ++ txt " has no available_on date"))
    | some day => some (.onDay day)
  | .fee =>
    match lookUpDate context.paymentAvailableOn record.paymentId? with
    | none => some (.unresolved (txt "FEE requires the parent payment's available_on date"))
    | some day => some (.onDay day)
  | .settlementLine =>
    match lookUpDate context.payoutDates record.payoutId? with
    | none => some (.unresolved (txt "SETTLEMENT_LINE requires its payout date"))
    | some day => some (.onDay day)
  | .payout =>
    match record.payoutDate? with
    | none => some (.unresolved (txt "PAYOUT has no payout_date"))
    | some day => some (.onDay day)
  | .order =>
    match record.effectiveAtUtc? with
    | none => some (.unresolved (txt "ORDER has no effective_at_utc"))
    | some effectiveAt => (businessDateFromTimestamp zone effectiveAt).map .onDay

/-! ## What a resolution should say -/

/-- A record that moves money or describes how it moves. -/
def FinancialRecord.HasEffect : FinancialRecord → Prop
  | .payment r => r.status = .captured
  | .refund r => r.status = .succeeded
  | _ => True

/-- The record of a source row. -/
def Parsed (iso : IsoParsers) (record : FinancialRecord) : Prop :=
  ∃ payload entityName, parseSourceRecord iso payload entityName = .ok record

/-- The context has a date for the parent of a record. -/
def ImpactContext.Locates (context : ImpactContext) : FinancialRecord → Prop
  | .fee r => ∃ day, context.paymentAvailableOn.get? r.paymentId = some day
  | .settlementLine r => ∃ day, context.payoutDates.get? r.payoutId = some day
  | _ => True

/-- The context has the date of the parent payment or payout of a record. -/
def ImpactContext.Knows (context : ImpactContext) (records : List FinancialRecord) :
    FinancialRecord → Prop
  | .fee r => ∃ p day, .payment p ∈ records ∧ p.paymentId = r.paymentId ∧
      p.availableOn = some day ∧ context.paymentAvailableOn.get? r.paymentId = some day
  | .settlementLine r => ∃ p, .payout p ∈ records ∧ p.payoutId = r.payoutId ∧
      context.payoutDates.get? r.payoutId = some p.payoutDate
  | _ => True

def IsResolved (resolution : Option ImpactResolution) : Prop :=
  ∃ r, resolution = some r ∧ r.affectedDates ≠ [] ∧ r.unresolvedReason = none

/-- A movement of the day has the record among its sources. -/
def MovedOn (result : ReconciliationResult) (record : FinancialRecord) (day : Date) : Prop :=
  ∃ m ∈ result.expectedMovements, sourceReference record ∈ m.supportingSourceRecordIds ∧
    m.availableOn = day

/-- The payout is reconciled on the day. -/
def PaidOn (result : ReconciliationResult) (payoutId : Text) (day : Date) : Prop :=
  ∃ row ∈ result.payouts, row.payoutId = payoutId ∧ row.payoutDate = day

/-- The payout dates on which a run uses the movement, the line or the header of a record. -/
def UsedOn (result : ReconciliationResult) : FinancialRecord → Date → Prop
  | .order _, _ => False
  | .payment r, day => MovedOn result (.payment r) day
  | .refund r, day => MovedOn result (.refund r) day
  | .fee r, day => MovedOn result (.fee r) day
  | .settlementLine r, day => PaidOn result r.payoutId day
  | .payout r, day => PaidOn result r.payoutId day

/-- The resolution gives the dates on which a run uses the record. -/
def ResolvesToUse (result : ReconciliationResult) (record : FinancialRecord)
    (resolution : Option ImpactResolution) : Prop :=
  ∃ r, resolution = some r ∧ r.affectedDates ≠ [] ∧ r.unresolvedReason = none ∧
    ∀ day, day ∈ r.affectedDates ↔ UsedOn result record day

/-! ## Parsed records -/

section Parsing

variable {iso : IsoParsers} {payload : Payload}

theorem parseAvailableOn_isSome {final : Bool} {requiredMessage absentMessage : Text}
    {availableOn : Option Date}
    (h : parseAvailableOn iso payload final requiredMessage absentMessage = .ok availableOn) :
    availableOn.isSome = final := by
  unfold parseAvailableOn violate at h
  dsimp only at h
  split_ifs at h with hfinal
  · cases hday : parseDate iso (payload.field (txt "available_on")) (txt "available_on") with
    | error err =>
      rw [hday] at h
      cases h
    | ok day =>
      rw [hday] at h
      rw [← Except.ok.inj h, hfinal]
      rfl
  · rw [← Except.ok.inj h, Bool.eq_false_of_not_eq_true hfinal]
    rfl

/-- Exactly a captured payment has a date. -/
theorem parsePayment_available {r : Payment} (h : parsePayment iso payload = .ok r) :
    r.availableOn.isSome ↔ r.status = .captured := by
  simp only [parsePayment, bind_eq_ok] at h
  obtain ⟨_, -, status, -, availableOn, havailable, _, -, _, -, _, -, _, -, _, -, _, -, _, -, _, -,
    hr⟩ := h
  rw [← Except.ok.inj hr]
  show availableOn.isSome ↔ status = .captured
  rw [parseAvailableOn_isSome havailable, decide_eq_true_eq]

/-- Exactly a succeeded refund has a date. -/
theorem parseRefund_available {r : Refund} (h : parseRefund iso payload = .ok r) :
    r.availableOn.isSome ↔ r.status = .succeeded := by
  simp only [parseRefund, bind_eq_ok] at h
  obtain ⟨_, -, status, -, availableOn, havailable, _, -, _, -, _, -, _, -, _, -, _, -, hr⟩ := h
  rw [← Except.ok.inj hr]
  show availableOn.isSome ↔ status = .succeeded
  rw [parseAvailableOn_isSome havailable, decide_eq_true_eq]

/-- The identifiers of a record are not empty. -/
theorem trimmed_recordIds {entityType : EntityType} {record : FinancialRecord}
    (h : recordParser iso payload entityType = .ok record) {id : Text}
    (hid : id ∈ recordIds record) : Trimmed id := by
  have hmet := (follows_recordParser entityType).ok.mp ⟨record, h⟩
  have hjson : Json.str id ∈ (textFields entityType).map payload.field := by
    rw [(recordIds_of_recordParser h).1]
    exact List.mem_map_of_mem hid
  obtain ⟨field, hfield, hvalue⟩ := List.mem_map.mp hjson
  obtain ⟨rule, hrule, htext⟩ := List.mem_filterMap.mp hfield
  have hrule' : rule = .text field := by
    cases rule with
    | text found => exact congrArg Rule.text (Option.some.inj htext)
    | _ => cases htext
  rw [hrule'] at hrule
  obtain ⟨s, hs, htrimmed⟩ := hmet _ hrule
  rw [hvalue] at hs
  rwa [Json.str.inj hs]

theorem Parsed.recordParser {record : FinancialRecord} (h : Parsed iso record) :
    ∃ payload entityType, recordParser iso payload entityType = .ok record := by
  obtain ⟨payload, entityName, h⟩ := h
  unfold parseSourceRecord at h
  cases entityName with
  | member entityType => exact ⟨payload, entityType, h⟩
  | name text =>
    dsimp only at h
    split at h
    · exact ⟨payload, _, h⟩
    · cases h

theorem Parsed.trimmed {record : FinancialRecord} (h : Parsed iso record) {id : Text}
    (hid : id ∈ recordIds record) : Trimmed id := by
  obtain ⟨payload, entityType, hrecord⟩ := h.recordParser
  exact trimmed_recordIds hrecord hid

theorem Parsed.payment_available {r : Payment} (h : Parsed iso (.payment r)) :
    r.availableOn.isSome ↔ r.status = .captured := by
  obtain ⟨payload, entityType, hrecord⟩ := h.recordParser
  have htype : EntityType.payment = entityType := entityType_of_recordParser hrecord
  rw [← htype] at hrecord
  obtain ⟨found, hfound, heq⟩ := map_eq_ok.mp hrecord
  rw [← FinancialRecord.payment.inj heq]
  exact parsePayment_available hfound

theorem Parsed.refund_available {r : Refund} (h : Parsed iso (.refund r)) :
    r.availableOn.isSome ↔ r.status = .succeeded := by
  obtain ⟨payload, entityType, hrecord⟩ := h.recordParser
  have htype : EntityType.refund = entityType := entityType_of_recordParser hrecord
  rw [← htype] at hrecord
  obtain ⟨found, hfound, heq⟩ := map_eq_ok.mp hrecord
  rw [← FinancialRecord.refund.inj heq]
  exact parseRefund_available hfound

end Parsing

/-! ## Resolution -/

theorem isResolved_onDay (day : Date) : IsResolved (some (.onDay day)) := by
  refine ⟨_, rfl, ?_, rfl⟩
  rw [ImpactResolution.onDay, Ne, sortedSet_eq_nil]
  exact List.cons_ne_nil _ _

theorem mem_onDay {day d : Date} : d ∈ (ImpactResolution.onDay day).affectedDates ↔ d = day := by
  rw [ImpactResolution.onDay, mem_sortedSet, List.mem_singleton]

theorem order_not_isResolved (zone : Zone) (r : Order) (context : ImpactContext) :
    ¬ IsResolved (resolveRecordImpact zone (.order r) context) := by
  intro ⟨resolution, hresolution, _, hreason⟩
  have hunresolved : resolveRecordImpact zone (.order r) context =
      some (.unresolved (txt "ORDER has no effective_at_utc")) := rfl
  rw [hunresolved] at hresolution
  rw [← Option.some.inj hresolution] at hreason
  cases hreason

/-- The day to which a record resolves. -/
def ImpactDay (context : ImpactContext) : FinancialRecord → Date → Prop
  | .order _, _ => False
  | .payment r, day => r.availableOn = some day
  | .refund r, day => r.availableOn = some day
  | .fee r, day => context.paymentAvailableOn.get? r.paymentId = some day
  | .settlementLine r, day => context.payoutDates.get? r.payoutId = some day
  | .payout r, day => r.payoutDate = day

theorem lookUpDate_of_trimmed {dates : PyDict Text Date} {id : Text} (h : Trimmed id) :
    lookUpDate dates (some id) = dates.get? id := if_neg h.1

/-- Every record with effect that is no order resolves to one day. -/
theorem exists_impactDay {iso : IsoParsers} (zone : Zone) {record : FinancialRecord}
    (hparsed : Parsed iso record) (heffect : record.HasEffect) {context : ImpactContext}
    (hlocates : context.Locates record) (horder : record.entityType ≠ .order) :
    ∃ day, ImpactDay context record day ∧
      resolveRecordImpact zone record context = some (.onDay day) := by
  cases record with
  | order r => exact absurd rfl horder
  | payment r =>
    obtain ⟨day, hday⟩ := Option.isSome_iff_exists.mp (hparsed.payment_available.mpr heffect)
    refine ⟨day, hday, ?_⟩
    simp [resolveRecordImpact, FinancialRecord.entityType, FinancialRecord.availableOn?, hday]
  | refund r =>
    obtain ⟨day, hday⟩ := Option.isSome_iff_exists.mp (hparsed.refund_available.mpr heffect)
    refine ⟨day, hday, ?_⟩
    simp [resolveRecordImpact, FinancialRecord.entityType, FinancialRecord.availableOn?, hday]
  | fee r =>
    obtain ⟨day, hday⟩ := hlocates
    have hid : Trimmed r.paymentId := hparsed.trimmed (by simp [recordIds])
    refine ⟨day, hday, ?_⟩
    simp [resolveRecordImpact, FinancialRecord.entityType, FinancialRecord.paymentId?,
      lookUpDate_of_trimmed hid, hday]
  | settlementLine r =>
    obtain ⟨day, hday⟩ := hlocates
    have hid : Trimmed r.payoutId := hparsed.trimmed (by simp [recordIds])
    refine ⟨day, hday, ?_⟩
    simp [resolveRecordImpact, FinancialRecord.entityType, FinancialRecord.payoutId?,
      lookUpDate_of_trimmed hid, hday]
  | payout r => exact ⟨r.payoutDate, rfl, rfl⟩

theorem ImpactContext.Knows.locates {context : ImpactContext} {records : List FinancialRecord}
    {record : FinancialRecord} (h : context.Knows records record) : context.Locates record := by
  cases record with
  | fee r =>
    obtain ⟨p, day, -, -, -, hday⟩ := h
    exact ⟨day, hday⟩
  | settlementLine r =>
    obtain ⟨p, -, -, hday⟩ := h
    exact ⟨_, hday⟩
  | _ => trivial

/-! ## Use -/

section Use

variable {runId : Text} {detectedAt : UtcDateTime} {canonicalization : CanonicalizationResult}
  {completenessResults : List CompletenessResult} {quarantineRecords : List QuarantinedRecord}
  {result : ReconciliationResult}

/-- A payout is reconciled on its own date. -/
theorem paidOn_iff (h : reconcile runId detectedAt canonicalization completenessResults
    quarantineRecords = .ok result) {p : Payout} (hp : .payout p ∈ canonicalization.canonicalRecords)
    {day : Date} : PaidOn result p.payoutId day ↔ p.payoutDate = day := by
  obtain ⟨b, movements, hopened, rfl⟩ := reconcile_ok h
  have hpayout : p ∈ b.records.payouts := by
    rw [hopened.records_eq]
    exact mem_payouts_iff.mpr hp
  simp only [PaidOn, Books.result, mem_sortedBy, mem_payoutRows]
  constructor
  · intro ⟨row, ⟨found, hfound, hrow⟩, hid, hdate⟩
    rw [← hrow] at hid hdate
    have heq : found = p := List.inj_on_of_nodup_map b.records.payouts_nodup hfound hpayout hid
    rw [← heq]
    exact hdate
  · intro hdate
    exact ⟨_, ⟨p, hpayout, rfl⟩, rfl, hdate⟩

section Movements

variable {b : Books} {movements : List ExpectedMovement}

/-- The sources of a movement: its payment with the fees of the payment, or its refund. -/
theorem movement_sources (h : b.expectedMovements = .ok movements) {m : ExpectedMovement}
    (hm : m ∈ movements) :
    (∃ p ∈ b.capturedPayments, p.availableOn = some m.availableOn ∧
      ∀ reference ∈ m.supportingSourceRecordIds, reference = sourceReference (.payment p) ∨
        ∃ f ∈ b.feesByPayment p.paymentId, reference = sourceReference (.fee f)) ∨
    ∃ r ∈ b.successfulRefunds, r.availableOn = some m.availableOn ∧
      ∀ reference ∈ m.supportingSourceRecordIds, reference = sourceReference (.refund r) := by
  obtain ⟨-, -, hperm⟩ := Books.expectedMovements_perm h
  rcases List.mem_append.mp (hperm.mem_iff.mp hm) with hm | hm
  · obtain ⟨p, hp, hm⟩ := List.mem_flatMap.mp hm
    obtain ⟨day, hday, hm⟩ := Books.mem_paymentMovements.mp hm
    simp only [Books.captureMovements, List.mem_cons, List.not_mem_nil, or_false] at hm
    left
    rcases hm with rfl | rfl
    · exact ⟨p, hp, hday, fun reference href => .inl (List.mem_singleton.mp href)⟩
    · refine ⟨p, hp, hday, fun reference href => ?_⟩
      rcases List.mem_cons.mp href with href | href
      · exact .inl href
      · obtain ⟨f, hf, heq⟩ := List.mem_map.mp href
        exact .inr ⟨f, hf, heq.symm⟩
  · obtain ⟨r, hr, hm⟩ := List.mem_flatMap.mp hm
    obtain ⟨day, hday, rfl⟩ := List.mem_map.mp hm
    exact .inr ⟨r, hr, Option.mem_toList.mp hday, fun reference href => List.mem_singleton.mp href⟩

theorem mem_movements_of_captured (h : b.expectedMovements = .ok movements) {p : Payment}
    (hp : p ∈ b.capturedPayments) {day : Date} (hday : p.availableOn = some day)
    {m : ExpectedMovement} (hm : m ∈ b.captureMovements p day) : m ∈ movements := by
  obtain ⟨-, -, hperm⟩ := Books.expectedMovements_perm h
  apply hperm.mem_iff.mpr
  apply List.mem_append_left
  exact List.mem_flatMap.mpr ⟨p, hp, Books.mem_paymentMovements.mpr ⟨day, hday, hm⟩⟩

theorem mem_movements_of_succeeded (h : b.expectedMovements = .ok movements) {r : Refund}
    (hr : r ∈ b.successfulRefunds) {day : Date} (hday : r.availableOn = some day) :
    Books.refundMovement r day ∈ movements := by
  obtain ⟨-, -, hperm⟩ := Books.expectedMovements_perm h
  apply hperm.mem_iff.mpr
  apply List.mem_append_right
  refine List.mem_flatMap.mpr ⟨r, hr, ?_⟩
  rw [Books.refundMovements, hday]
  exact List.mem_singleton.mpr rfl

/-- A reference names one record of the type and the ID. -/
theorem sourceReference_inj {a c : FinancialRecord} (h : sourceReference a = sourceReference c) :
    a.entityType = c.entityType ∧ a.recordId = c.recordId := sourceReference_eq_iff.mp h

theorem moved_payment (h : b.expectedMovements = .ok movements) {p : Payment}
    (hp : p ∈ b.capturedPayments) {day : Date} :
    (∃ m ∈ movements, sourceReference (.payment p) ∈ m.supportingSourceRecordIds ∧
      m.availableOn = day) ↔ p.availableOn = some day := by
  constructor
  · intro ⟨m, hm, href, hday⟩
    rcases movement_sources h hm with ⟨q, hq, hdate, hsources⟩ | ⟨r, hr, hdate, hsources⟩
    · rcases hsources _ href with heq | ⟨f, hf, heq⟩
      · have hsame : p = q := Books.captured_eq_of_id hp hq (sourceReference_inj heq).2
        rw [hsame, hdate, hday]
      · exact nomatch (sourceReference_inj heq).1
    · exact nomatch (sourceReference_inj (hsources _ href)).1
  · intro hday
    exact ⟨_, mem_movements_of_captured h hp hday List.mem_cons_self, List.mem_cons_self, rfl⟩

theorem moved_refund (h : b.expectedMovements = .ok movements) {r : Refund}
    (hr : r ∈ b.successfulRefunds) {day : Date} :
    (∃ m ∈ movements, sourceReference (.refund r) ∈ m.supportingSourceRecordIds ∧
      m.availableOn = day) ↔ r.availableOn = some day := by
  constructor
  · intro ⟨m, hm, href, hday⟩
    rcases movement_sources h hm with ⟨q, hq, hdate, hsources⟩ | ⟨r', hr', hdate, hsources⟩
    · rcases hsources _ href with heq | ⟨f, hf, heq⟩
      · exact nomatch (sourceReference_inj heq).1
      · exact nomatch (sourceReference_inj heq).1
    · have hsame : r = r' :=
        Books.succeeded_eq_of_id hr hr' (sourceReference_inj (hsources _ href)).2
      rw [hsame, hdate, hday]
  · intro hday
    exact ⟨_, mem_movements_of_succeeded h hr hday, List.mem_cons_self, rfl⟩

/-- The movement of a fee is dated by its payment. -/
theorem moved_fee (h : b.expectedMovements = .ok movements) {f : Fee} (hf : f ∈ b.records.fees)
    {p : Payment} (hp : p ∈ b.capturedPayments) (hid : p.paymentId = f.paymentId) {day : Date} :
    (∃ m ∈ movements, sourceReference (.fee f) ∈ m.supportingSourceRecordIds ∧
      m.availableOn = day) ↔ p.availableOn = some day := by
  constructor
  · intro ⟨m, hm, href, hday⟩
    rcases movement_sources h hm with ⟨q, hq, hdate, hsources⟩ | ⟨r, hr, hdate, hsources⟩
    · rcases hsources _ href with heq | ⟨g, hg, heq⟩
      · exact nomatch (sourceReference_inj heq).1
      · rw [Books.feesByPayment_eq, List.mem_filter, decide_eq_true_eq] at hg
        have hfee : f = g := List.inj_on_of_nodup_map b.records.fees_nodup hf hg.1
          (sourceReference_inj heq).2
        have hsame : p = q := Books.captured_eq_of_id hp hq (by rw [hid, hfee, hg.2])
        rw [hsame, hdate, hday]
    · exact nomatch (sourceReference_inj (hsources _ href)).1
  · intro hday
    have hmem : f ∈ b.feesByPayment p.paymentId := by
      rw [Books.feesByPayment_eq, List.mem_filter, decide_eq_true_eq]
      exact ⟨hf, hid.symm⟩
    refine ⟨_, mem_movements_of_captured h hp hday
      (List.mem_cons_of_mem _ (List.mem_singleton.mpr rfl)), ?_, rfl⟩
    exact List.mem_cons_of_mem _ (List.mem_map.mpr ⟨f, hmem, rfl⟩)

end Movements

/-- The day to which a record resolves is the one on which the run uses it. -/
theorem usedOn_iff (h : reconcile runId detectedAt canonicalization completenessResults
    quarantineRecords = .ok result) {iso : IsoParsers}
    (hparsed : ∀ r ∈ canonicalization.canonicalRecords, Parsed iso r) {record : FinancialRecord}
    (hrecord : record ∈ canonicalization.canonicalRecords) (heffect : record.HasEffect)
    {context : ImpactContext} (hknows : context.Knows canonicalization.canonicalRecords record)
    {day : Date} (hday : ImpactDay context record day) (d : Date) :
    UsedOn result record d ↔ d = day := by
  have hrun := h
  obtain ⟨b, movements, hopened, hresult⟩ := reconcile_ok h
  have hmoved : ∀ r, MovedOn result r d ↔ ∃ m ∈ movements,
      sourceReference r ∈ m.supportingSourceRecordIds ∧ m.availableOn = d := by
    intro r
    rw [hresult]
    exact Iff.rfl
  have hdate : ∀ {date : Option Date}, date = some day → (date = some d ↔ d = day) := by
    intro date hsome
    rw [hsome, Option.some.injEq, eq_comm]
  cases record with
  | order r => exact absurd hday id
  | payment r =>
    have hr : r ∈ b.capturedPayments := by
      rw [Books.mem_capturedPayments, hopened.records_eq, mem_payments_iff]
      exact ⟨hrecord, heffect⟩
    rw [UsedOn, hmoved, moved_payment hopened.movements_eq hr]
    exact hdate hday
  | refund r =>
    have hr : r ∈ b.successfulRefunds := by
      rw [Books.mem_successfulRefunds, hopened.records_eq, mem_refunds_iff]
      exact ⟨hrecord, heffect⟩
    rw [UsedOn, hmoved, moved_refund hopened.movements_eq hr]
    exact hdate hday
  | fee r =>
    obtain ⟨p, available, hp, hid, havailable, hcontext⟩ := hknows
    have hr : r ∈ b.records.fees := by
      rw [hopened.records_eq]
      exact mem_fees_iff.mpr hrecord
    -- A parent payment with a date is captured.
    have hcaptured : p ∈ b.capturedPayments := by
      rw [Books.mem_capturedPayments, hopened.records_eq, mem_payments_iff]
      exact ⟨hp, (hparsed _ hp).payment_available.mp (by rw [havailable]; rfl)⟩
    have hsame : available = day := Option.some.inj (hcontext.symm.trans hday)
    rw [UsedOn, hmoved, moved_fee hopened.movements_eq hr hcaptured hid]
    exact hdate (hsame ▸ havailable)
  | settlementLine r =>
    obtain ⟨p, hp, hid, hcontext⟩ := hknows
    have hsame : p.payoutDate = day := Option.some.inj (hcontext.symm.trans hday)
    rw [UsedOn, ← hid, paidOn_iff hrun hp, hsame, eq_comm]
  | payout r =>
    have hsame : r.payoutDate = day := hday
    rw [UsedOn, paidOn_iff hrun hrecord, hsame, eq_comm]

end Use

/-- The impact of a record with effect is resolved, to the dates on which a run uses the record,
exactly when it is no order. -/
theorem impact_resolution_iff (zone : Zone) (iso : IsoParsers) :
    (∀ record, Parsed iso record → record.HasEffect → ∀ context : ImpactContext,
      context.Locates record →
      (IsResolved (resolveRecordImpact zone record context) ↔ record.entityType ≠ .order)) ∧
    ∀ runId detectedAt canonicalization completenessResults quarantineRecords result,
      reconcile runId detectedAt canonicalization completenessResults quarantineRecords =
        .ok result →
      (∀ r ∈ canonicalization.canonicalRecords, Parsed iso r) →
      ∀ record ∈ canonicalization.canonicalRecords, record.HasEffect →
      ∀ context : ImpactContext, context.Knows canonicalization.canonicalRecords record →
      (ResolvesToUse result record (resolveRecordImpact zone record context) ↔
        record.entityType ≠ .order) := by
  have horder : ∀ record (context : ImpactContext),
      IsResolved (resolveRecordImpact zone record context) → record.entityType ≠ .order := by
    intro record context hresolved
    cases record with
    | order r => exact absurd hresolved (order_not_isResolved zone r context)
    | _ => nofun
  constructor
  · intro record hparsed heffect context hlocates
    refine ⟨horder record context, fun hne => ?_⟩
    obtain ⟨day, -, hday⟩ := exists_impactDay zone hparsed heffect hlocates hne
    rw [hday]
    exact isResolved_onDay day
  · intro runId detectedAt canonicalization completenessResults quarantineRecords result h hparsed
      record hrecord heffect context hknows
    constructor
    · intro ⟨r, hr, hdates, hreason, _⟩
      exact horder record context ⟨r, hr, hdates, hreason⟩
    · intro hne
      obtain ⟨day, hday, hresolve⟩ :=
        exists_impactDay zone (hparsed record hrecord) heffect hknows.locates hne
      obtain ⟨r, hr, hdates, hreason⟩ := isResolved_onDay day
      refine ⟨r, hresolve.trans hr, hdates, hreason, fun d => ?_⟩
      rw [← Option.some.inj hr, mem_onDay]
      exact (usedOn_iff h hparsed hrecord heffect hknows hday d).symm

namespace PaidDay

/-- Parsers that also read the date of the payout. -/
def payoutParsers : IsoParsers where
  date s := if s = (september 16 valid16).isoformat then some (september 16 valid16) else none
  datetime := isoParsers.datetime

def payoutPayload : Payload := PyDict.ofPairs
  [(txt "payout_id", .str (txt "POUT-1")),
   (txt "payout_date", .str (txt "2026-09-16")),
   (txt "currency", .str (txt "EUR")),
   (txt "reported_net_amount", .str (txt "98.00")),
   (txt "source_version", .num (.int 1))]

/-- A day on which only a payout is reported. -/
def payoutOnlyDay : ReplayedDay where
  receipts :=
    { rows := [payoutRow]
      digest_iff := by decide +kernel
      receiptIds := by decide +kernel
      encodable := by decide +kernel }
  completenessResults := completeReports
  canonicalizes := by decide +kernel
  reconciles := by decide +kernel

theorem parsed_payout : Parsed payoutParsers (.payout payout) :=
  ⟨payoutPayload, .member .payout, by decide +kernel⟩

/-- The payout resolves to its date, the only one on which the run uses it. -/
theorem impact_resolution_payoutOnlyDay :
    ResolvesToUse payoutOnlyDay.result (.payout payout)
      (resolveRecordImpact oneHourAhead (.payout payout) ⟨∅, ∅⟩) := by
  have hrecords : payoutOnlyDay.canonicalization.canonicalRecords = [.payout payout] := by
    decide +kernel
  have hall : ∀ r ∈ payoutOnlyDay.canonicalization.canonicalRecords,
      Parsed payoutParsers r := by
    intro r hr
    rw [hrecords, List.mem_singleton] at hr
    exact hr ▸ parsed_payout
  apply ((impact_resolution_iff oneHourAhead payoutParsers).2 _ _ _ _ _ _
    payoutOnlyDay.reconcile_eq hall (.payout payout) (hrecords ▸ List.mem_singleton.mpr rfl) trivial _
    trivial).mpr
  decide

theorem parsed_order : Parsed isoParsers (.order order) :=
  ⟨orderPayload, .member .order, by decide +kernel⟩

/-- An order has financial effect and its impact is not resolved. -/
theorem order_impact_unresolved : ¬ ∀ zone iso record, Parsed iso record → record.HasEffect →
    ∀ context : ImpactContext, context.Locates record →
      IsResolved (resolveRecordImpact zone record context) := by
  intro hresolved
  apply order_not_isResolved oneHourAhead order ⟨∅, ∅⟩
  exact hresolved oneHourAhead isoParsers (.order order) parsed_order trivial ⟨∅, ∅⟩ trivial

end PaidDay

end Threadline
