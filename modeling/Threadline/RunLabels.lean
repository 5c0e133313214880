import Threadline.DuplicateSafety

/-!
# Run labels

A run writes its ID and its time into its rows and exceptions, and nothing else
of a result depends on them. The logical document leaves them out.
-/

open PyText PyJson PyCalendar PySorted PyExcept

namespace Threadline

/-! ## Labels -/

def ReconciliationException.relabel (run : Run) (x : ReconciliationException) :
    ReconciliationException :=
  { x with
    runId := run.runId
    detectedAtUtc := run.detectedAtUtc }

def Finding.relabel (run : Run) (f : Finding) : Finding :=
  { f with exception := f.exception.relabel run }

def TransactionReconciliation.relabel (run : Run) (row : TransactionReconciliation) :
    TransactionReconciliation :=
  { row with runId := run.runId }

def PayoutReconciliation.relabel (run : Run) (row : PayoutReconciliation) : PayoutReconciliation :=
  { row with runId := run.runId }

/-- The result under the ID and the time of another run. -/
def ReconciliationResult.relabel (run : Run) (r : ReconciliationResult) : ReconciliationResult :=
  { r with
    runId := run.runId
    detectedAtUtc := run.detectedAtUtc
    transactions := r.transactions.map (TransactionReconciliation.relabel run)
    payouts := r.payouts.map (PayoutReconciliation.relabel run)
    exceptions := r.exceptions.map (ReconciliationException.relabel run) }

namespace Books

variable (b : Books) (run : Run)

/-- The books of another run over the same records. -/
def relabel : Books := { b with run := run }

@[simp] theorem relabel_run : (b.relabel run).run = run := rfl

@[simp] theorem relabel_states : (b.relabel run).states = b.states := rfl

@[simp] theorem relabel_records : (b.relabel run).records = b.records := rfl

@[simp] theorem relabel_orderById : (b.relabel run).orderById = b.orderById := rfl

@[simp] theorem relabel_feeById : (b.relabel run).feeById = b.feeById := rfl

@[simp] theorem relabel_capturedPayments : (b.relabel run).capturedPayments = b.capturedPayments :=
  rfl

@[simp] theorem relabel_successfulRefunds :
    (b.relabel run).successfulRefunds = b.successfulRefunds := rfl

@[simp] theorem relabel_capturedByOrder : (b.relabel run).capturedByOrder = b.capturedByOrder := rfl

@[simp] theorem relabel_refundsByPayment :
    (b.relabel run).refundsByPayment = b.refundsByPayment := rfl

@[simp] theorem relabel_feesByPayment : (b.relabel run).feesByPayment = b.feesByPayment := rfl

@[simp] theorem relabel_expectedFee : (b.relabel run).expectedFee = b.expectedFee := rfl

@[simp] theorem relabel_capturedPaymentById :
    (b.relabel run).capturedPaymentById = b.capturedPaymentById := rfl

@[simp] theorem relabel_capturedTotal : (b.relabel run).capturedTotal = b.capturedTotal := rfl

@[simp] theorem relabel_linesByPayout : (b.relabel run).linesByPayout = b.linesByPayout := rfl

@[simp] theorem relabel_reportedLineTotal :
    (b.relabel run).reportedLineTotal = b.reportedLineTotal := rfl

@[simp] theorem relabel_expectedLineAmount :
    (b.relabel run).expectedLineAmount = b.expectedLineAmount := rfl

/-! ## Findings -/

theorem paymentFinding_relabel : (b.relabel run).paymentFinding =
    fun payment => (b.paymentFinding payment).map (Finding.relabel run) := by
  funext payment
  unfold paymentFinding
  rw [relabel_orderById]
  cases b.orderById payment.orderId with
  | none => rfl
  | some order =>
    dsimp only
    split_ifs <;> rfl

theorem refundFinding_relabel : (b.relabel run).refundFinding =
    fun refund => (b.refundFinding refund).map (Finding.relabel run) := by
  funext refund
  unfold refundFinding
  rw [relabel_capturedPaymentById]
  cases b.capturedPaymentById refund.paymentId with
  | none => rfl
  | some payment =>
    dsimp only
    split_ifs <;> rfl

theorem excessRefundFinding_relabel : (b.relabel run).excessRefundFinding =
    fun payment => (b.excessRefundFinding payment).map (Finding.relabel run) := by
  funext payment
  unfold excessRefundFinding
  rw [relabel_refundsByPayment]
  dsimp only
  split_ifs <;> rfl

theorem capturedFeeFinding_relabel : (b.relabel run).capturedFeeFinding =
    fun payment => (b.capturedFeeFinding payment).map (Finding.relabel run) := by
  funext payment
  unfold capturedFeeFinding
  rw [relabel_feesByPayment, relabel_expectedFee]
  dsimp only
  split_ifs <;> rfl

theorem unexpectedFeeFinding_relabel : (b.relabel run).unexpectedFeeFinding =
    fun fee => (b.unexpectedFeeFinding fee).map (Finding.relabel run) := by
  funext fee
  unfold unexpectedFeeFinding
  rw [relabel_capturedPaymentById]
  cases b.capturedPaymentById fee.paymentId <;> rfl

theorem collectionFinding_relabel : (b.relabel run).collectionFinding =
    fun order => (b.collectionFinding order).map (Finding.relabel run) := by
  funext order
  unfold collectionFinding
  rw [relabel_capturedByOrder, relabel_capturedTotal]
  dsimp only
  split_ifs <;> rfl

theorem multipleCaptureFinding_relabel : (b.relabel run).multipleCaptureFinding =
    fun order => (b.multipleCaptureFinding order).map (Finding.relabel run) := by
  funext order
  unfold multipleCaptureFinding
  rw [relabel_capturedByOrder]
  dsimp only
  split_ifs <;> rfl

theorem duplicateMovementFinding_relabel : (b.relabel run).duplicateMovementFinding =
    fun item => (b.duplicateMovementFinding item).map (Finding.relabel run) := by
  funext item
  unfold duplicateMovementFinding
  split_ifs <;> rfl

theorem movementFinding_relabel (payout : Payout) : (b.relabel run).movementFinding payout =
    fun movement => (b.movementFinding payout movement).map (Finding.relabel run) := by
  funext movement
  unfold movementFinding
  rw [relabel_linesByPayout, relabel_expectedLineAmount]
  split
  · rfl
  · split_ifs <;> rfl
  · rfl

theorem payoutTotalFinding_relabel : (b.relabel run).payoutTotalFinding =
    fun payout => (b.payoutTotalFinding payout).map (Finding.relabel run) := by
  funext payout
  unfold payoutTotalFinding
  rw [relabel_states, relabel_reportedLineTotal]
  split_ifs <;> rfl

/-- The findings of a pass that is made when its reports are complete. -/
theorem map_relabel_ite {c : Prop} [Decidable c] {xs ys : List Finding}
    (h : ys = xs.map (Finding.relabel run)) :
    (if c then ys else []) = (if c then xs else []).map (Finding.relabel run) := by
  split_ifs
  · exact h
  · rfl

theorem paymentFindings_relabel :
    (b.relabel run).paymentFindings = b.paymentFindings.map (Finding.relabel run) := by
  refine map_relabel_ite run ?_
  simp only [relabel_capturedPayments, paymentFinding_relabel, List.map_flatMap]

theorem refundFindings_relabel :
    (b.relabel run).refundFindings = b.refundFindings.map (Finding.relabel run) := by
  refine map_relabel_ite run ?_
  simp only [relabel_capturedPayments, relabel_successfulRefunds, refundFinding_relabel,
    excessRefundFinding_relabel, List.map_append, List.map_flatMap]

theorem feeFindings_relabel :
    (b.relabel run).feeFindings = b.feeFindings.map (Finding.relabel run) := by
  refine map_relabel_ite run ?_
  simp only [relabel_capturedPayments, relabel_records, capturedFeeFinding_relabel,
    unexpectedFeeFinding_relabel, List.map_append, List.map_flatMap]

theorem orderFindings_relabel : (b.relabel run).orderFindings =
    fun order => (b.orderFindings order).map (Finding.relabel run) := by
  funext order
  refine map_relabel_ite run ?_
  simp only [collectionFinding_relabel, multipleCaptureFinding_relabel, List.map_append]

theorem duplicateMovementFindings_relabel :
    (b.relabel run).duplicateMovementFindings =
      b.duplicateMovementFindings.map (Finding.relabel run) := by
  refine map_relabel_ite run ?_
  simp only [relabel_records, duplicateMovementFinding_relabel, List.map_flatMap]

theorem payoutFindings_relabel (movements : List ExpectedMovement) :
    (b.relabel run).payoutFindings movements =
      fun payout => (b.payoutFindings movements payout).map (Finding.relabel run) := by
  funext payout
  unfold payoutFindings
  rw [List.map_append, payoutTotalFinding_relabel]
  refine congrArg (· ++ _) (map_relabel_ite run ?_)
  simp only [movementFinding_relabel, List.map_flatMap]

variable (canonicalization : CanonicalizationResult) (completenessResults : List CompletenessResult)

theorem earlyFindings_relabel :
    (b.relabel run).earlyFindings canonicalization completenessResults =
      (b.earlyFindings canonicalization completenessResults).map (Finding.relabel run) := by
  have hsources : sourceCompletenessFindings run completenessResults =
      (sourceCompletenessFindings b.run completenessResults).map (Finding.relabel run) := by
    rw [sourceCompletenessFindings, sourceCompletenessFindings, List.map_map]
    rfl
  have hconflicts : canonicalConflictFindings run canonicalization =
      (canonicalConflictFindings b.run canonicalization).map (Finding.relabel run) := by
    rw [canonicalConflictFindings, canonicalConflictFindings, List.map_map]
    rfl
  simp only [earlyFindings, List.map_append, relabel_run, hsources, hconflicts,
    paymentFindings_relabel, refundFindings_relabel, feeFindings_relabel]

theorem middleFindings_relabel :
    (b.relabel run).middleFindings canonicalization completenessResults =
      (b.middleFindings canonicalization completenessResults).map (Finding.relabel run) := by
  simp only [middleFindings, List.map_append, List.map_flatMap, relabel_records,
    earlyFindings_relabel, orderFindings_relabel, duplicateMovementFindings_relabel]

theorem allFindings_relabel (movements : List ExpectedMovement) :
    (b.relabel run).allFindings canonicalization completenessResults movements =
      (b.allFindings canonicalization completenessResults movements).map (Finding.relabel run) := by
  simp only [allFindings, List.map_append, List.map_flatMap, relabel_records,
    middleFindings_relabel, payoutFindings_relabel]

/-! ## Rows -/

/-- The codes of an order or a payout do not depend on the run. -/
theorem codesOf_relabel {keys : Finding → List Text}
    (hkeys : ∀ f : Finding, keys (f.relabel run) = keys f) (findings : List Finding) (key : Text) :
    codesOf keys (findings.map (Finding.relabel run)) key = codesOf keys findings key := by
  have hcode : (fun f : Finding => f.exception.exceptionType) ∘ Finding.relabel run =
      fun f => f.exception.exceptionType := rfl
  have hkey : (fun f : Finding => decide (key ∈ keys f)) ∘ Finding.relabel run =
      fun f => decide (key ∈ keys f) := by
    funext f
    rw [Function.comp_apply, hkeys]
  rw [codesOf, codesOf, List.filter_map, List.map_map, hcode, hkey]

theorem transactionRows_relabel (before : List Finding) :
    (b.relabel run).transactionRows (before.map (Finding.relabel run)) =
      (b.transactionRows before).map (TransactionReconciliation.relabel run) := by
  rw [transactionRows, transactionRows, List.map_map]
  refine List.map_congr_left fun order _ => ?_
  rw [orderFindings_relabel, ← List.map_append, codesOf_relabel run fun _ => rfl]
  rfl

theorem payoutRows_relabel (movements : List ExpectedMovement) (before : List Finding) :
    (b.relabel run).payoutRows movements (before.map (Finding.relabel run)) =
      (b.payoutRows movements before).map (PayoutReconciliation.relabel run) := by
  rw [payoutRows, payoutRows, List.map_map]
  refine List.map_congr_left fun payout _ => ?_
  rw [payoutFindings_relabel, ← List.map_append, codesOf_relabel run fun _ => rfl]
  rfl

/-- Another run over the same records returns the same result under its own labels. -/
theorem result_relabel (quarantineRecords : List QuarantinedRecord)
    (movements : List ExpectedMovement) :
    (b.relabel run).result canonicalization completenessResults quarantineRecords movements =
      (b.result canonicalization completenessResults quarantineRecords movements).relabel run := by
  have hexceptions : ∀ findings : List Finding,
      uniqueExceptions ((findings.map (Finding.relabel run)).map Finding.exception) =
        (uniqueExceptions (findings.map Finding.exception)).map
          (ReconciliationException.relabel run) := by
    intro findings
    have hmap : (findings.map (Finding.relabel run)).map Finding.exception =
        (findings.map Finding.exception).map (ReconciliationException.relabel run) := by
      rw [List.map_map, List.map_map]
      rfl
    have hkey : ∀ x : ReconciliationException, exceptionKey (x.relabel run) = exceptionKey x :=
      fun _ => rfl
    rw [hmap, uniqueExceptions_map hkey]
  unfold result ReconciliationResult.relabel
  simp only [relabel_run, earlyFindings_relabel, middleFindings_relabel, allFindings_relabel,
    transactionRows_relabel, payoutRows_relabel, sortedBy_map, hexceptions]
  rfl

end Books

/-! ## Runs -/

section

variable {runId : Text} {detectedAt : UtcDateTime} {run : Run}
  {canonicalization : CanonicalizationResult} {completenessResults : List CompletenessResult}
  {quarantineRecords : List QuarantinedRecord} {r : ReconciliationResult}

theorem Opened.relabel {b : Books} {movements : List ExpectedMovement}
    (h : Opened runId detectedAt canonicalization completenessResults b movements)
    (hid : requireRunId run.runId = .ok run.runId) :
    Opened run.runId run.detectedAtUtc canonicalization completenessResults (b.relabel run)
      movements where
  runId_ok := hid
  run_eq := rfl
  states_eq := h.states_eq
  records_eq := h.records_eq
  expectedFees_eq := h.expectedFees_eq
  movements_eq := h.movements_eq
  payoutDates := h.payoutDates

/-- Reconciling under another label gives the same result under that label. -/
theorem reconcile_relabel (hid : requireRunId run.runId = .ok run.runId)
    (h : reconcile runId detectedAt canonicalization completenessResults quarantineRecords =
      .ok r) :
    reconcile run.runId run.detectedAtUtc canonicalization completenessResults quarantineRecords =
      .ok (r.relabel run) := by
  obtain ⟨b, movements, hopened, rfl⟩ := reconcile_ok h
  rw [(hopened.relabel hid).reconcile_eq, b.result_relabel]

theorem conflictReceiptIds_relabel : conflictReceiptIds (r.relabel run) = conflictReceiptIds r := by
  change ((r.exceptions.map _).filter isConflictException).flatMap _ = _
  rw [List.filter_map, List.flatMap_map]
  rfl

/-- Stabilized exceptions keep their labels. -/
theorem stabilizeConflictEvidence_relabel {sha256 : Bytes → Text} {variants : List SourceVariant}
    (hagree : ∀ v ∈ variants, ∀ w ∈ variants, v.receiptId = w.receiptId → v = w)
    {stable : ReconciliationResult} (h : stabilizeConflictEvidence sha256 variants r = .ok stable) :
    stabilizeConflictEvidence sha256 variants (r.relabel run) = .ok (stable.relabel run) := by
  obtain ⟨hsome, rfl⟩ := (stabilizeConflictEvidence_eq_ok hagree).mp h
  refine (stabilizeConflictEvidence_eq_ok hagree).mpr ⟨?_, ?_⟩
  · rwa [conflictReceiptIds_relabel]
  · have hresolve : ∀ x : ReconciliationException,
        (resolve (referenceOf sha256 variants) x).relabel run =
          resolve (referenceOf sha256 variants) (x.relabel run) := by
      intro x
      have hconflict : isConflictException (x.relabel run) = isConflictException x := rfl
      unfold resolve
      rw [hconflict]
      split_ifs <;> rfl
    simp only [ReconciliationResult.relabel, List.map_map]
    refine congrArg (fun exceptions => ReconciliationResult.mk _ _ _ _ _ _ exceptions _ _) ?_
    exact List.map_congr_left fun x _ => hresolve x

theorem replay_relabel (run : Run) {sha256 : Bytes → Text}
    {envelopes : List (RecordEnvelope sha256)} (hid : requireRunId run.runId = .ok run.runId)
    (h : replay sha256 runId detectedAt completenessResults quarantineRecords envelopes = .ok r) :
    replay sha256 run.runId run.detectedAtUtc completenessResults quarantineRecords envelopes =
      .ok (r.relabel run) := by
  obtain ⟨c, hc, candidate, hcandidate, hstable⟩ := replay_eq_ok.mp h
  have hagree := (describes_of_agree (canonicalize_ok_iff.mp ⟨c, hc⟩)).agree
  exact replay_eq_ok.mpr ⟨c, hc, candidate.relabel run, reconcile_relabel hid hcandidate,
    stabilizeConflictEvidence_relabel hagree hstable⟩

end

/-! ## The logical document -/

namespace Value

/-- Audit fields have no part in a logical value. -/
theorem logicalMembers_congr {ms ms' : List (Text × Value)}
    (h : List.Forall₂ (fun m m' => m.1 = m'.1 ∧ (m.1 ∈ auditFields ∨ m.2 = m'.2)) ms ms') :
    logicalMembers ms = logicalMembers ms' := by
  induction h with
  | nil => rfl
  | @cons m m' ms ms' hm _ ih =>
    obtain ⟨k, v⟩ := m
    obtain ⟨k', v'⟩ := m'
    obtain ⟨hk, hv⟩ := hm
    dsimp only at hk hv
    subst hk
    rw [logicalMembers, logicalMembers, ih]
    split_ifs with haudit
    · rfl
    · obtain rfl := hv.resolve_left haudit
      rfl
    · obtain rfl := hv.resolve_left haudit
      rfl

theorem logicalItems_congr {α : Type} {f g : α → Value} {xs : List α}
    (h : ∀ x ∈ xs, (f x).logicalValue = (g x).logicalValue) :
    logicalItems (xs.map f) = logicalItems (xs.map g) := by
  induction xs with
  | nil => rfl
  | cons x xs ih =>
    obtain ⟨hx, hxs⟩ := List.forall_mem_cons.mp h
    rw [List.map_cons, List.map_cons, logicalItems, logicalItems, hx, ih hxs]

theorem mapM_congr {α β : Type} {f g : α → Option β} {xs : List α} (h : ∀ x ∈ xs, f x = g x) :
    xs.mapM f = xs.mapM g := by
  induction xs with
  | nil => rfl
  | cons x xs ih =>
    obtain ⟨hx, hxs⟩ := List.forall_mem_cons.mp h
    rw [List.mapM_cons, List.mapM_cons, hx, ih hxs]

/-- The logical document is made of the version and the logical values of the sections. -/
theorem logicalDocument_congr {a b : Value}
    (hversion : a.field? (txt "contract_version") = b.field? (txt "contract_version"))
    (hsections : ∀ name ∈ logicalSections,
      (a.field? name).bind logicalValue = (b.field? name).bind logicalValue) :
    logicalDocument a = logicalDocument b := by
  unfold logicalDocument
  rw [hversion, mapM_congr fun name hname => ?_]
  have hvalue := congrArg (Option.bind · fun j => some (name, j)) (hsections name hname)
  simpa only [Option.bind_assoc, Option.bind_eq_bind, Option.pure_def] using hvalue

end Value

section

variable (run : Run)

theorem runId_audited : txt "run_id" ∈ auditFields := by decide

theorem detectedAtUtc_audited : txt "detected_at_utc" ∈ auditFields := by decide

theorem TransactionReconciliation.logicalValue_relabel (row : TransactionReconciliation) :
    (row.relabel run).toValue.logicalValue = row.toValue.logicalValue := by
  refine congrArg (Option.map Json.obj) (Value.logicalMembers_congr ?_)
  refine .cons ⟨rfl, .inl runId_audited⟩ ?_
  exact List.forall₂_same.mpr fun _ _ => ⟨rfl, .inr rfl⟩

theorem PayoutReconciliation.logicalValue_relabel (row : PayoutReconciliation) :
    (row.relabel run).toValue.logicalValue = row.toValue.logicalValue := by
  refine congrArg (Option.map Json.obj) (Value.logicalMembers_congr ?_)
  refine .cons ⟨rfl, .inl runId_audited⟩ ?_
  exact List.forall₂_same.mpr fun _ _ => ⟨rfl, .inr rfl⟩

theorem ReconciliationException.logicalValue_relabel (x : ReconciliationException) :
    (x.relabel run).toValue.logicalValue = x.toValue.logicalValue := by
  refine congrArg (Option.map Json.obj) (Value.logicalMembers_congr ?_)
  have hsame : ∀ m : Text × Value, m.1 = m.1 ∧ (m.1 ∈ auditFields ∨ m.2 = m.2) :=
    fun _ => ⟨rfl, .inr rfl⟩
  refine .cons ⟨rfl, .inl runId_audited⟩ ?_
  refine .cons (hsame _) (.cons (hsame _) (.cons (hsame _) (.cons (hsame _) (.cons (hsame _)
    (.cons (hsame _) (.cons (hsame _) (.cons (hsame _) ?_)))))))
  -- The time at which the exception was detected.
  refine .cons ⟨rfl, .inl detectedAtUtc_audited⟩ ?_
  exact List.forall₂_same.mpr fun m _ => hsame m

/-- A section of relabelled rows. -/
theorem logicalValue_rows {α : Type} {toValue : α → Value} {relabel : α → α} (rows : List α)
    (h : ∀ row, (toValue (relabel row)).logicalValue = (toValue row).logicalValue) :
    (Value.list ((rows.map relabel).map toValue)).logicalValue =
      (Value.list (rows.map toValue)).logicalValue := by
  have hitems : Value.logicalItems (rows.map (toValue ∘ relabel)) =
      Value.logicalItems (rows.map toValue) := Value.logicalItems_congr fun row _ => h row
  rw [List.map_map]
  unfold Value.logicalValue
  rw [hitems]

/-- Neither the labels of a run nor the rejected rows are in the logical document. -/
theorem logicalDocument_relabel (r : ReconciliationResult)
    (quarantineRecords : List QuarantinedRecord) :
    logicalDocument { r.relabel run with quarantineRecords := quarantineRecords }.toValue =
      logicalDocument r.toValue := by
  refine Value.logicalDocument_congr rfl ?_
  intro name hname
  simp only [logicalSections, List.mem_cons, List.not_mem_nil, or_false] at hname
  obtain rfl | rfl | rfl | rfl | rfl := hname
  · exact logicalValue_rows r.transactions fun row => row.logicalValue_relabel run
  · rfl
  · exact logicalValue_rows r.payouts fun row => row.logicalValue_relabel run
  · exact logicalValue_rows r.exceptions fun x => x.logicalValue_relabel run
  · rfl

theorem logicalFingerprint_relabel (sha256 : Bytes → Text) (r : ReconciliationResult)
    (quarantineRecords : List QuarantinedRecord) :
    logicalFingerprint sha256 { r.relabel run with quarantineRecords := quarantineRecords }.toValue =
      logicalFingerprint sha256 r.toValue := by
  rw [logicalFingerprint, logicalFingerprint, logicalDocument_relabel]

end

end Threadline
