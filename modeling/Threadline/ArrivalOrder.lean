import Threadline.CanonicalSpec
import Threadline.ReconcileLookup
import Threadline.SourceContract
import Threadline.TransactionRules

/-!
# Order of arrival

Raw rows are parsed one by one, the valid ones are canonicalized and reconciled,
and the others are quarantined. Only the order of the quarantine evidence can
depend on the order of arrival.
-/

open PyText PyCalendar PySorted PyExcept PyJson

namespace Threadline

/-- A raw source row with the ID of its receipt. -/
structure SourceRow where
  receiptId : Text
  entityType : EntityName
  payload : Payload

inductive RowsError
  | overflow
  | canonicalization (error : CanonicalizationError)
  | reconciliation (error : ReconciliationError)
  deriving DecidableEq

inductive RowOutcome (sha256 : Bytes → Text)
  | valid (envelope : RecordEnvelope sha256)
  | quarantined (evidence : QuarantinedRecord)

namespace RowOutcome

variable {sha256 : Bytes → Text}

def envelope? : RowOutcome sha256 → Option (RecordEnvelope sha256)
  | .valid envelope => some envelope
  | .quarantined _ => none

def evidence? : RowOutcome sha256 → Option QuarantinedRecord
  | .valid _ => none
  | .quarantined evidence => some evidence

end RowOutcome

/-- One round of `_parse_financial_records`. -/
def readRow (iso : IsoParsers) (sha256 : Bytes → Text) (row : SourceRow) :
    Except RowsError (RowOutcome sha256) :=
  match parseSourceRecord iso row.payload row.entityType with
  | .ok record =>
    RowOutcome.valid <$> (RecordEnvelope.make? sha256 row.receiptId record).mapError
      .canonicalization
  | .error (.contract violation) =>
    .ok (.quarantined (quarantineFromViolation row.entityType row.payload violation))
  | .error .overflow => .error .overflow

/-- The evidence that a row is quarantined with. -/
def quarantineOf? (iso : IsoParsers) (row : SourceRow) : Option QuarantinedRecord :=
  match parseSourceRecord iso row.payload row.entityType with
  | .error (.contract violation) =>
    some (quarantineFromViolation row.entityType row.payload violation)
  | _ => none

/-- Parse the rows in the order given, canonicalize and reconcile. -/
def reconcileRows (iso : IsoParsers) (sha256 : Bytes → Text) (runId : Text)
    (detectedAt : UtcDateTime) (completenessResults : List CompletenessResult)
    (rows : List SourceRow) : Except RowsError ReconciliationResult := do
  let outcomes ← rows.mapM (readRow iso sha256)
  let canonicalization ←
    (canonicalize (outcomes.filterMap RowOutcome.envelope?)).mapError .canonicalization
  (reconcile runId detectedAt canonicalization completenessResults
    (outcomes.filterMap RowOutcome.evidence?)).mapError .reconciliation

/-! ## Completeness results -/

/-- Results for distinct report types are sorted the same from any order. -/
theorem sortedResults_perm {results results' : List CompletenessResult}
    {states : ReportType → SourceCompleteness} (hp : results'.Perm results)
    (h : buildReportStateMap (sortedBy CompletenessResult.sortKey results) = .ok states) :
    sortedBy CompletenessResult.sortKey results' = sortedBy CompletenessResult.sortKey results := by
  obtain ⟨dict, hdict, -⟩ := bind_eq_ok.mp h
  have hn : (results.map fun c => c.status.reportType).Nodup :=
    ((sortedBy_perm CompletenessResult.sortKey results).map _).nodup_iff.mp
      (reportTypes_nodup hdict)
  refine (sortedBy_eq_of_perm _ hp.symm fun a ha b hb hab => ?_).symm
  have htype := (Prod.mk.inj (toLex.injective (Prod.mk.inj (toLex.injective hab)).2)).2
  exact List.inj_on_of_nodup_map hn ha hb (ReportType.value_injective htype)

/-- A run sorts the completeness results and the quarantine evidence, and uses neither order. -/
theorem reconcile_perm {runId : Text} {detectedAt : UtcDateTime}
    {canonicalization : CanonicalizationResult} {results results' : List CompletenessResult}
    {quarantine : List QuarantinedRecord} {r : ReconciliationResult} (hp : results'.Perm results)
    (h : reconcile runId detectedAt canonicalization results quarantine = .ok r)
    (quarantine' : List QuarantinedRecord) :
    reconcile runId detectedAt canonicalization results' quarantine' =
      .ok { r with quarantineRecords := sortedBy QuarantinedRecord.sortKey quarantine' } := by
  obtain ⟨b, movements, hopened, rfl⟩ := reconcile_ok h
  have hsorted := sortedResults_perm hp hopened.states_eq
  have hopened' : Opened runId detectedAt canonicalization results' b movements :=
    { hopened with states_eq := hsorted ▸ hopened.states_eq }
  rw [hopened'.reconcile_eq, hsorted]
  rfl

/-! ## Rows -/

section Rows

variable {iso : IsoParsers} {sha256 : Bytes → Text} {runId : Text} {detectedAt : UtcDateTime}
  {results results' : List CompletenessResult} {rows rows' : List SourceRow}
  {r : ReconciliationResult}

theorem reconcileRows_eq_ok :
    reconcileRows iso sha256 runId detectedAt results rows = .ok r ↔
      ∃ outcomes canonicalization, rows.mapM (readRow iso sha256) = .ok outcomes ∧
        canonicalize (outcomes.filterMap RowOutcome.envelope?) = .ok canonicalization ∧
        reconcile runId detectedAt canonicalization results
          (outcomes.filterMap RowOutcome.evidence?) = .ok r := by
  simp only [reconcileRows, bind_eq_ok, mapError_eq_ok, exists_and_left]

/-- A parsed row is an envelope with its receipt ID, or evidence. -/
theorem readRow_ok {row : SourceRow} {outcome : RowOutcome sha256}
    (h : readRow iso sha256 row = .ok outcome) :
    (∃ e, outcome = .valid e ∧ e.receiptId = row.receiptId ∧ quarantineOf? iso row = none ∧
      parseSourceRecord iso row.payload row.entityType = .ok e.record) ∨
      ∃ q, outcome = .quarantined q ∧ quarantineOf? iso row = some q := by
  unfold readRow at h
  unfold quarantineOf?
  split at h
  · next record hparse =>
    cases hmake : RecordEnvelope.make? sha256 row.receiptId record with
    | error err => simp [hmake, Except.mapError, Functor.map, Except.map] at h
    | ok envelope =>
      simp only [hmake, Except.mapError, Functor.map, Except.map, Except.ok.injEq] at h
      subst h
      unfold RecordEnvelope.make? at hmake
      split_ifs at hmake with hid
      split at hmake
      · obtain rfl := Except.ok.inj hmake
        exact .inl ⟨_, rfl, rfl, by rw [hparse], hparse⟩
      · cases hmake
  · next violation hparse =>
    rw [hparse]
    exact .inr ⟨_, (Except.ok.inj h).symm, rfl⟩
  · cases h

/-- The evidence is that of the rejected rows, in their order. -/
theorem evidence_eq {outcomes : List (RowOutcome sha256)}
    (h : rows.mapM (readRow iso sha256) = .ok outcomes) :
    outcomes.filterMap RowOutcome.evidence? = rows.filterMap (quarantineOf? iso) := by
  rw [mapM_eq_ok] at h
  induction h with
  | nil => rfl
  | cons hrow _ ih =>
    rcases readRow_ok hrow with ⟨e, rfl, -, hnone, -⟩ | ⟨q, rfl, hsome⟩
    · rw [List.filterMap_cons_none hnone, ← ih]
      rfl
    · rw [List.filterMap_cons_some hsome, ← ih]
      rfl

/-- No two records of one receipt ID have payloads that collide. -/
def RowHashesTell (iso : IsoParsers) (sha256 : Bytes → Text) (rows : List SourceRow) : Prop :=
  ∀ a ∈ rows, ∀ b ∈ rows, a.receiptId = b.receiptId → ∀ record record',
    parseSourceRecord iso a.payload a.entityType = .ok record →
    parseSourceRecord iso b.payload b.entityType = .ok record' →
    calculatePayloadHash sha256 record = calculatePayloadHash sha256 record' → record = record'

theorem rowHashesTell_of_nodup (hn : (rows.map SourceRow.receiptId).Nodup) :
    RowHashesTell iso sha256 rows := by
  intro a ha b hb hid record record' hrecord hrecord' _
  obtain rfl : a = b := List.inj_on_of_nodup_map hn ha hb hid
  exact Except.ok.inj (hrecord.symm.trans hrecord')

theorem hashTellsReplays_of_rows {outcomes : List (RowOutcome sha256)}
    (htell : RowHashesTell iso sha256 rows) (h : rows.mapM (readRow iso sha256) = .ok outcomes) :
    HashTellsReplays (outcomes.filterMap RowOutcome.envelope?) := by
  have hrow : ∀ e ∈ outcomes.filterMap RowOutcome.envelope?, ∃ row ∈ rows,
      e.receiptId = row.receiptId ∧
        parseSourceRecord iso row.payload row.entityType = .ok e.record := by
    intro e he
    obtain ⟨outcome, houtcome, he⟩ := List.mem_filterMap.mp he
    obtain ⟨row, hrow, hread⟩ := (mem_of_mapM_eq_ok h).mp houtcome
    rcases readRow_ok hread with ⟨e', rfl, hid, -, hparse⟩ | ⟨q, rfl, -⟩
    · obtain rfl := Option.some.inj he
      exact ⟨row, hrow, hid, hparse⟩
    · cases he
  intro e he f hf hid hp
  obtain ⟨a, ha, hia, hra⟩ := hrow e he
  obtain ⟨b, hb, hib, hrb⟩ := hrow f hf
  refine htell a ha b hb (hia ▸ hib ▸ hid) _ _ hra hrb ?_
  rw [e.payloadHash_eq, f.payloadHash_eq, hp]

theorem reconcileRows_quarantine
    (h : reconcileRows iso sha256 runId detectedAt results rows = .ok r) :
    r.quarantineRecords =
      sortedBy QuarantinedRecord.sortKey (rows.filterMap (quarantineOf? iso)) := by
  obtain ⟨outcomes, canonicalization, houtcomes, -, hreconcile⟩ := reconcileRows_eq_ok.mp h
  have hsame := reconcile_perm (List.Perm.refl results) hreconcile
    (outcomes.filterMap RowOutcome.evidence?)
  rw [← evidence_eq houtcomes]
  exact congrArg ReconciliationResult.quarantineRecords (Except.ok.inj (hreconcile.symm.trans hsame))

/-- Rows in another order give a result that differs at most in the order of the evidence. -/
theorem reconcileRows_perm (htell : RowHashesTell iso sha256 rows) (hrows : rows'.Perm rows)
    (hresults : results'.Perm results)
    (h : reconcileRows iso sha256 runId detectedAt results rows = .ok r) :
    reconcileRows iso sha256 runId detectedAt results' rows' = .ok { r with
      quarantineRecords :=
        sortedBy QuarantinedRecord.sortKey (rows'.filterMap (quarantineOf? iso)) } := by
  obtain ⟨outcomes, canonicalization, houtcomes, hcanonicalize, hreconcile⟩ :=
    reconcileRows_eq_ok.mp h
  obtain ⟨outcomes', houtcomes', hperm⟩ := mapM_eq_ok_perm hrows houtcomes
  have hcanonicalize' := (canonicalize_ok_congr (hashTellsReplays_of_rows htell houtcomes)
    (fun e => (hperm.filterMap RowOutcome.envelope?).mem_iff) canonicalization).mpr hcanonicalize
  have hreconcile' := reconcile_perm hresults hreconcile (outcomes'.filterMap RowOutcome.evidence?)
  rw [← evidence_eq houtcomes']
  exact reconcileRows_eq_ok.mpr
    ⟨outcomes', canonicalization, houtcomes', hcanonicalize', hreconcile'⟩

/-- Every order of the rows and of the completeness results gives the same result exactly when the
sort key of the quarantine evidence tells the rejected rows apart. -/
theorem reconcileRows_order_iff (htell : RowHashesTell iso sha256 rows)
    (h : reconcileRows iso sha256 runId detectedAt results rows = .ok r) :
    (∀ rows' results', rows'.Perm rows → results'.Perm results →
      reconcileRows iso sha256 runId detectedAt results' rows' = .ok r) ↔
      ∀ p ∈ rows.filterMap (quarantineOf? iso), ∀ q ∈ rows.filterMap (quarantineOf? iso),
        p.sortKey = q.sortKey → p = q := by
  constructor
  · intro hall p hp q hq hkey
    by_contra hne
    obtain ⟨a, ha, hpa⟩ := List.mem_filterMap.mp hp
    obtain ⟨b, hb, hqb⟩ := List.mem_filterMap.mp hq
    have hab : b ≠ a := by
      rintro rfl
      exact hne (Option.some.inj (hpa.symm.trans hqb))
    -- list the two rows first, in either order
    obtain ⟨s, t, rfl⟩ := List.append_of_mem ha
    have hbrest : b ∈ s ++ t := by
      rcases List.mem_append.mp hb with hb | hb
      · exact List.mem_append_left _ hb
      · exact List.mem_append_right _ ((List.mem_cons.mp hb).resolve_left hab)
    obtain ⟨s', t', hrest⟩ := List.append_of_mem hbrest
    have hperm : (a :: b :: (s' ++ t')).Perm (s ++ a :: t) := by
      refine List.Perm.trans (List.Perm.cons a ?_) List.perm_middle.symm
      rw [hrest]
      exact List.perm_middle.symm
    have hfirst := hall _ results hperm (List.Perm.refl _)
    have hsecond := hall _ results ((List.Perm.swap a b _).trans hperm) (List.Perm.refl _)
    have hfirst := reconcileRows_quarantine hfirst
    have hsecond := reconcileRows_quarantine hsecond
    rw [List.filterMap_cons_some hpa, List.filterMap_cons_some hqb] at hfirst
    rw [List.filterMap_cons_some hqb, List.filterMap_cons_some hpa] at hsecond
    exact hne (eq_of_sortedBy_swap _ hkey (hfirst.symm.trans hsecond))
  · intro htold rows' results' hrows hresults
    have hsorted := sortedBy_eq_of_perm QuarantinedRecord.sortKey
      (hrows.symm.filterMap (quarantineOf? iso)) htold
    rw [reconcileRows_perm htell hrows hresults h, ← hsorted, ← reconcileRows_quarantine h]

end Rows

namespace PaidDay

/-- Parsers that read the timestamp of the paid day. -/
def isoParsers : IsoParsers where
  date _ := none
  datetime s :=
    if s = (atTen (september 14 valid14)).isoformat then
      some (.aware (some (atTen (september 14 valid14))))
    else none

def orderPayload : Payload := PyDict.ofPairs
  [(txt "order_id", .str (txt "ORD-1")),
   (txt "created_at_utc", .str (txt "2026-09-14T10:00:00Z")),
   (txt "status", .str (txt "PAID")),
   (txt "currency", .str (txt "EUR")),
   (txt "order_total", .str (txt "100.00")),
   (txt "source_version", .num (.int 1))]

/-- The order, a row without its fields, and a payment that is not a payment. -/
def mixedRows : List SourceRow :=
  [⟨txt "orders.json:1", .member .order, orderPayload⟩,
   ⟨txt "orders.json:2", .member .order, PyDict.ofPairs [(txt "order_id", .str (txt "ORD-2"))]⟩,
   ⟨txt "payments.json:1", .member .payment, ∅⟩]

/-- Rows that are rejected for different entities give one result in every order. -/
theorem reconcileRows_mixedRows :
    ∃ r, reconcileRows isoParsers receipts.sha256 (txt "run-1") (atTen (september 18 rfl))
        completeReports mixedRows = .ok r ∧
      ∀ rows' results', rows'.Perm mixedRows → results'.Perm completeReports →
        reconcileRows isoParsers receipts.sha256 (txt "run-1") (atTen (september 18 rfl)) results'
          rows' = .ok r := by
  have hr := eq_ok_of_isSome (x := reconcileRows isoParsers receipts.sha256 (txt "run-1")
    (atTen (september 18 rfl)) completeReports mixedRows) (by decide +kernel)
  exact ⟨_, hr, (reconcileRows_order_iff (rowHashesTell_of_nodup (by decide +kernel)) hr).mpr
    (by decide +kernel)⟩

/-- Two orders without an ID, rejected for missing fields. -/
def anonymousRows : List SourceRow :=
  [⟨txt "orders.json:1", .member .order, ∅⟩,
   ⟨txt "orders.json:2", .member .order, PyDict.ofPairs [(txt "status", .str (txt "PAID"))]⟩]

/-- Rejected rows without an ID keep their order of arrival in the result. -/
theorem reconcileRows_anonymousRows :
    ∃ r r', reconcileRows isoParsers receipts.sha256 (txt "run-1") (atTen (september 18 rfl))
        completeReports anonymousRows = .ok r ∧
      reconcileRows isoParsers receipts.sha256 (txt "run-1") (atTen (september 18 rfl))
        completeReports anonymousRows.reverse = .ok r' ∧ r ≠ r' := by
  have hr := eq_ok_of_isSome (x := reconcileRows isoParsers receipts.sha256 (txt "run-1")
    (atTen (september 18 rfl)) completeReports anonymousRows) (by decide +kernel)
  have hr' := eq_ok_of_isSome (x := reconcileRows isoParsers receipts.sha256 (txt "run-1")
    (atTen (september 18 rfl)) completeReports anonymousRows.reverse) (by decide +kernel)
  refine ⟨_, _, hr, hr', fun he => ?_⟩
  have hq := (reconcileRows_quarantine hr).symm.trans
    ((congrArg ReconciliationResult.quarantineRecords he).trans (reconcileRows_quarantine hr'))
  exact absurd hq (by decide +kernel)

end PaidDay

end Threadline
