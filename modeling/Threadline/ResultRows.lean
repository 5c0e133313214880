import Threadline.Completeness
import Threadline.RecoveryQueue
import Threadline.ResultDocument

/-!
# Result rows

The document of a candidate, and the rows it leaves in the four result tables.
-/

open PyText PyJson PyCalendar PyExcept

namespace Threadline

/-- What a recovery call raises: an exception of the builder, a hook or the driver by its printed
form, or one of the checks of the call. -/
inductive RecoveryError
  | raised (text : Text)
  | candidateNotObject
  | candidateRunId
  | candidateAsOf
  | unserializable
  | deadlineOverflow
  | publication (error : PublicationError)
  | arithmetic (error : ArithmeticError)
  | queue (error : QueueError)
  | database (error : DatabaseError)
  deriving DecidableEq

inductive ResultTable
  | transactions | payouts | exceptions | completeness
  deriving DecidableEq

/-- The columns that an `INSERT` names. -/
def ResultTable.columns : ResultTable → List Text
  | .transactions =>
    [txt "run_id", txt "order_id", txt "order_status", txt "currency", txt "expected_collection",
      txt "captured_total", txt "collection_variance", txt "successful_refund_total",
      txt "expected_fee_total", txt "reported_fee_total", txt "lifetime_net_collection",
      txt "captured_payment_count", txt "successful_refund_count", txt "state",
      txt "exception_codes"]
  | .payouts =>
    [txt "run_id", txt "payout_id", txt "payout_date", txt "currency", txt "expected_payout",
      txt "reported_line_total", txt "reported_net_amount", txt "provider_report_variance",
      txt "end_to_end_payout_variance", txt "expected_movement_count",
      txt "settlement_line_count", txt "state", txt "exception_codes"]
  | .exceptions =>
    [txt "run_id", txt "rule_id", txt "exception_type", txt "entity_type", txt "entity_id",
      txt "expected_amount", txt "actual_amount", txt "variance", txt "detected_at_utc",
      txt "status", txt "supporting_source_record_ids"]
  | .completeness =>
    [txt "run_id", txt "report_type", txt "report_date", txt "state", txt "deadline_utc",
      txt "observed_at_utc", txt "issue_codes"]

/-- How many of the columns, from the first, are the primary key. An exception has a generated
key. -/
def ResultTable.keyLength : ResultTable → Option ℕ
  | .transactions => some 2
  | .payouts => some 2
  | .exceptions => none
  | .completeness => some 3

/-- A row, its values in the order of the columns. -/
structure ResultRow where
  table : ResultTable
  values : List Json
  deriving DecidableEq

/-- `run_id`, the first column of every result table. -/
def ResultRow.runId? (row : ResultRow) : Option Uuid :=
  match row.values with
  | .str runId :: _ => some runId
  | _ => none

/-- Rows of one table with one primary key. -/
def ResultRow.clash (row other : ResultRow) : Bool :=
  match row.table.keyLength with
  | some n => other.table = row.table && other.values.take n = row.values.take n
  | none => false

/-- The row that `_insert` builds from an item of the document. -/
def rowOf (table : ResultTable) (row : Json) : Except RecoveryError ResultRow := do
  let values ← (table.columns.mapM (item row)).mapError RecoveryError.arithmetic
  pure ⟨table, values⟩

def insertRow (runExists : Uuid → Bool) (rows : List ResultRow) (row : ResultRow) :
    Except RecoveryError (List ResultRow) :=
  match row.runId? with
  | none => .error (.database .foreignKeyViolation)
  | some runId =>
    if rows.any row.clash then .error (.database .uniqueViolation)
    else if !runExists runId then .error (.database .foreignKeyViolation)
    else .ok (rows ++ [row])

/-- `_insert`. -/
def insertRows (runExists : Uuid → Bool) (table : ResultTable) (rows : List ResultRow)
    (items : List Json) : Except RecoveryError (List ResultRow) :=
  items.foldlM (fun rows i => do
    let row ← rowOf table i
    insertRow runExists rows row) rows

section Persist

variable (berlinToUtc : Date → ℕ → UtcDateTime) (r : ReconciliationResult)

/-- A row for `source_completeness_snapshot`. -/
def snapshot (status : SourceReportStatus) : Except RecoveryError Json :=
  match reportDeadlineUtc berlinToUtc status.businessDate status.reportType with
  | none => .error .deadlineOverflow
  | some deadline => .ok (.obj
    [(txt "run_id", .str r.runId),
     (txt "report_type", .str status.reportType.value),
     (txt "report_date", .str status.businessDate.isoformat),
     (txt "state", .str status.state.value),
     (txt "deadline_utc", .str deadline.isoformat),
     (txt "observed_at_utc", .str r.detectedAtUtc.isoformat),
     (txt "issue_codes", if status.state = .complete then .arr []
       else .arr [.str (txt "SOURCE_EVIDENCE_INCOMPLETE")])])

/-- The items of the document under a key. -/
def documentItems (document : Json) (key : Text) : Except RecoveryError (List Json) :=
  (items document key).mapError RecoveryError.arithmetic

/-- `persist_candidate_rows`. -/
def persistCandidateRows (runExists : Uuid → Bool) (rows : List ResultRow) (document : Json) :
    Except RecoveryError (List ResultRow) := do
  let transactions ← documentItems document (txt "transactions")
  let rows ← insertRows runExists .transactions rows transactions
  let payouts ← documentItems document (txt "payouts")
  let rows ← insertRows runExists .payouts rows payouts
  let exceptions ← documentItems document (txt "exceptions")
  let rows ← insertRows runExists .exceptions rows exceptions
  let completeness ← r.sourceCompleteness.mapM (snapshot berlinToUtc r)
  insertRows runExists .completeness rows completeness

/-- The rows of a document, in the order in which they are inserted. -/
def candidateRows (document : Json) : Except RecoveryError (List ResultRow) := do
  let transactions ← documentItems document (txt "transactions")
  let transactionRows ← transactions.mapM (rowOf .transactions)
  let payouts ← documentItems document (txt "payouts")
  let payoutRows ← payouts.mapM (rowOf .payouts)
  let exceptions ← documentItems document (txt "exceptions")
  let exceptionRows ← exceptions.mapM (rowOf .exceptions)
  let completeness ← r.sourceCompleteness.mapM (snapshot berlinToUtc r)
  let completenessRows ← completeness.mapM (rowOf .completeness)
  pure (transactionRows ++ payoutRows ++ exceptionRows ++ completenessRows)

end Persist

/-- The candidate with the version of the fingerprint. -/
def ReconciliationResult.storedValue (r : ReconciliationResult) : Value :=
  match r.toValue with
  | .fields members => .fields (members ++
    [(txt "financial_fingerprint_version", .number (.int financialFingerprintVersion))])
  | v => v

/-- The document that is stored as `result_payload`. -/
def ReconciliationResult.document (r : ReconciliationResult) : Except RecoveryError Json :=
  match r.storedValue.jsonValue with
  | some document => .ok document
  | none => .error .candidateNotObject

/-! ## What is inserted -/

theorem insertRow_eq_ok {runExists : Uuid → Bool} {rows rows' : List ResultRow} {row : ResultRow}
    (h : insertRow runExists rows row = .ok rows') :
    (∃ runId, row.runId? = some runId ∧ runExists runId = true) ∧ rows' = rows ++ [row] := by
  unfold insertRow at h
  split at h
  · cases h
  · next runId hrun =>
    split_ifs at h with hclash hexists
    exact ⟨⟨runId, hrun, by simpa using hexists⟩, (Except.ok.inj h).symm⟩

theorem insertRows_eq_ok {runExists : Uuid → Bool} {table : ResultTable}
    {rows rows' : List ResultRow} {items : List Json}
    (h : insertRows runExists table rows items = .ok rows') :
    ∃ new, items.mapM (rowOf table) = .ok new ∧ rows' = rows ++ new ∧
      ∀ row ∈ new, ∃ runId, row.runId? = some runId ∧ runExists runId = true := by
  induction items generalizing rows with
  | nil =>
    obtain rfl : rows = rows' := Except.ok.inj h
    exact ⟨[], rfl, (List.append_nil rows).symm, fun _ hrow => nomatch hrow⟩
  | cons i items ih =>
    rw [insertRows, List.foldlM_cons, bind_eq_ok] at h
    obtain ⟨rows₁, hstep, hrest⟩ := h
    obtain ⟨row, hrow, hinsert⟩ := bind_eq_ok.mp hstep
    obtain ⟨hrun, rfl⟩ := insertRow_eq_ok hinsert
    obtain ⟨new, hnew, rfl, hruns⟩ := ih hrest
    refine ⟨row :: new, ?_, by rw [List.append_assoc]; rfl, ?_⟩
    · rw [List.mapM_cons, hrow]
      simp only [bind, Except.bind, hnew, pure, Except.pure]
    · exact List.forall_mem_cons.mpr ⟨hrun, hruns⟩

/-- Inserting the rows of a document appends them, each under an existing run. -/
theorem persistCandidateRows_eq_ok {berlinToUtc : Date → ℕ → UtcDateTime} {r : ReconciliationResult}
    {runExists : Uuid → Bool} {rows rows' : List ResultRow} {document : Json}
    (h : persistCandidateRows berlinToUtc r runExists rows document = .ok rows') :
    ∃ new, candidateRows berlinToUtc r document = .ok new ∧ rows' = rows ++ new ∧
      ∀ row ∈ new, ∃ runId, row.runId? = some runId ∧ runExists runId = true := by
  simp only [persistCandidateRows, bind_eq_ok] at h
  obtain ⟨transactions, htransactions, rows₁, h₁, payouts, hpayouts, rows₂, h₂, exceptions,
    hexceptions, rows₃, h₃, completeness, hcompleteness, h₄⟩ := h
  obtain ⟨new₁, hnew₁, rfl, hruns₁⟩ := insertRows_eq_ok h₁
  obtain ⟨new₂, hnew₂, rfl, hruns₂⟩ := insertRows_eq_ok h₂
  obtain ⟨new₃, hnew₃, rfl, hruns₃⟩ := insertRows_eq_ok h₃
  obtain ⟨new₄, hnew₄, rfl, hruns₄⟩ := insertRows_eq_ok h₄
  refine ⟨new₁ ++ new₂ ++ new₃ ++ new₄, ?_, by simp only [List.append_assoc], ?_⟩
  · simp only [candidateRows, bind_eq_ok]
    exact ⟨transactions, htransactions, new₁, hnew₁, payouts, hpayouts, new₂, hnew₂, exceptions,
      hexceptions, new₃, hnew₃, completeness, hcompleteness, new₄, hnew₄, rfl⟩
  · simp only [List.forall_mem_append]
    exact ⟨⟨⟨hruns₁, hruns₂⟩, hruns₃⟩, hruns₄⟩

/-! ## Whose rows they are -/

theorem rowOf_runId {table : ResultTable} {i : Json} {row : ResultRow} {runId : Uuid}
    (h : rowOf table i = .ok row) (hitem : item i (txt "run_id") = .ok (.str runId)) :
    row.runId? = some runId := by
  obtain ⟨rest, hcolumns⟩ : ∃ rest, table.columns = txt "run_id" :: rest := by
    cases table <;> exact ⟨_, rfl⟩
  rw [rowOf, hcolumns, List.mapM_cons, hitem] at h
  simp only [bind, Except.bind] at h
  cases hrest : rest.mapM (item i) with
  | error err => simp [hrest, Except.mapError] at h
  | ok values =>
    simp only [hrest, Except.mapError, pure, Except.pure, Except.ok.injEq] at h
    exact h ▸ rfl

theorem mapM_rowOf_runId {table : ResultTable} {items : List Json} {rows : List ResultRow}
    {runId : Uuid} (h : items.mapM (rowOf table) = .ok rows)
    (hitem : ∀ i ∈ items, item i (txt "run_id") = .ok (.str runId)) :
    ∀ row ∈ rows, row.runId? = some runId := by
  intro row hrow
  obtain ⟨i, hi, hof⟩ := (mem_of_mapM_eq_ok h).mp hrow
  exact rowOf_runId hof (hitem i hi)

theorem documentItems_eq_ok {document : Json} {key : Text} {rows rows' : List Json}
    (h : documentItems document key = .ok rows) (hitems : items document key = .ok rows') :
    rows = rows' := by
  rw [documentItems, hitems] at h
  exact (Except.ok.inj h).symm

/-- The rows of a candidate are the candidate's own when its parts name its run. -/
theorem candidateRows_runId {berlinToUtc : Date → ℕ → UtcDateTime} {r : ReconciliationResult}
    {document : Json} {rows : List ResultRow} (hdocument : r.storedValue.jsonValue = some document)
    (h : candidateRows berlinToUtc r document = .ok rows)
    (htransactions : ∀ t ∈ r.transactions, t.runId = r.runId)
    (hpayouts : ∀ p ∈ r.payouts, p.runId = r.runId)
    (hexceptions : ∀ x ∈ r.exceptions, x.runId = r.runId) :
    ∀ row ∈ rows, row.runId? = some r.runId := by
  simp only [candidateRows, bind_eq_ok] at h
  obtain ⟨transactions, h₁, rows₁, hrows₁, payouts, h₂, rows₂, hrows₂, exceptions, h₃, rows₃, hrows₃,
    completeness, h₄, rows₄, hrows₄, hrows⟩ := h
  obtain ⟨transactions', hitems₁, hforall₁⟩ := items_of_field hdocument (txt "transactions") rfl
  obtain ⟨payouts', hitems₂, hforall₂⟩ := items_of_field hdocument (txt "payouts") rfl
  obtain ⟨exceptions', hitems₃, hforall₃⟩ := items_of_field hdocument (txt "exceptions") rfl
  obtain rfl := documentItems_eq_ok h₁ hitems₁
  obtain rfl := documentItems_eq_ok h₂ hitems₂
  obtain rfl := documentItems_eq_ok h₃ hitems₃
  have howned₁ := mapM_rowOf_runId hrows₁ (forall_of_forall₂ hforall₁ fun t ht row hrow =>
    htransactions t ht ▸ textOf_field hrow (txt "run_id") rfl)
  have howned₂ := mapM_rowOf_runId hrows₂ (forall_of_forall₂ hforall₂ fun p hp row hrow =>
    hpayouts p hp ▸ textOf_field hrow (txt "run_id") rfl)
  have howned₃ := mapM_rowOf_runId hrows₃ (forall_of_forall₂ hforall₃ fun x hx row hrow =>
    hexceptions x hx ▸ textOf_field hrow (txt "run_id") rfl)
  have hsnapshots : ∀ i ∈ completeness, item i (txt "run_id") = .ok (.str r.runId) := by
    intro i hi
    obtain ⟨status, _, hsnapshot⟩ := (mem_of_mapM_eq_ok h₄).mp hi
    unfold snapshot at hsnapshot
    split at hsnapshot
    · cases hsnapshot
    · exact Except.ok.inj hsnapshot ▸ rfl
  have howned₄ := mapM_rowOf_runId hrows₄ hsnapshots
  obtain rfl := Except.ok.inj hrows
  simp only [List.forall_mem_append]
  exact ⟨⟨⟨howned₁, howned₂⟩, howned₃⟩, howned₄⟩

end Threadline
