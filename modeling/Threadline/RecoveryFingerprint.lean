import Threadline.ReconcileData
import Threadline.SourceContract
import Mathlib.Data.Rat.Defs
import Mathlib.Algebra.Field.Rat

/-!
# Fingerprints of documents

The JSON form of a result, and the hash of its logical part: audit fields are
left out, money is written with two decimals, and lists are compared without
their order.
-/

open PyText PyJson PyCalendar PySorted

namespace Threadline

/-- `canonical_json(document).encode("utf-8")`. -/
def documentBytes (document : Json) : Option Bytes := do
  let text ← dumps document
  encodeUtf8 text

/-- `document_fingerprint`. -/
def documentFingerprint (sha256 : Bytes → Text) (document : Json) : Option Text :=
  (documentBytes document).map sha256

/-! ## Values -/

/-- The values that results are made of: an enumeration member by its value, a dataclass or a
mapping by its fields. -/
inductive Value
  | none
  | bool (b : Bool)
  | number (n : Number)
  | text (s : Text)
  | decimal (a : Amount)
  | datetime (t : UtcDateTime)
  | date (d : Date)
  | list (items : List Value)
  | fields (members : List (Text × Value))

/-- `format(value, "f")`. -/
def Amount.text : Amount → Text
  | .money cents => moneyText cents
  | .count n => natText n

namespace Value

def optional {α : Type*} (f : α → Value) : Option α → Value
  | .none => .none
  | .some a => f a

def strings (items : List Text) : Value := .list (items.map .text)

mutual

/-- `json_value`, which refuses a float. -/
def jsonValue : Value → Option Json
  | .none => some .null
  | .bool b => some (.bool b)
  | .number (.int n) => some (.num (.int n))
  | .number _ => Option.none
  | .text s => some (.str s)
  | .decimal a => some (.str a.text)
  | .datetime t => some (.str t.isoformat)
  | .date d => some (.str d.isoformat)
  | .list items => (jsonItems items).map .arr
  | .fields members => (jsonMembers members).map .obj

def jsonItems : List Value → Option (List Json)
  | [] => some []
  | v :: items => do
    let j ← jsonValue v
    let js ← jsonItems items
    pure (j :: js)

def jsonMembers : List (Text × Value) → Option (List (Text × Json))
  | [] => some []
  | (k, v) :: members => do
    let j ← jsonValue v
    let js ← jsonMembers members
    pure ((k, j) :: js)

end

end Value

/-! ## Amounts -/

/-- The characters of a decimal text: an ASCII digit for each decimal digit of Unicode. -/
def asciiDigit (c : CodePoint) : CodePoint :=
  match decimalDigit? c with
  | some d => digit d
  | none => c

def lowerAscii (c : CodePoint) : CodePoint :=
  if h : 65 ≤ c.val ∧ c.val ≤ 90 then ⟨c.val + 32, by omega⟩ else c

def digitsValue (s : Text) : ℕ := s.foldl (fun n c => 10 * n + (c.val - 48)) 0

/-- A sign, and the text behind it. -/
def splitSign (s : Text) : Bool × Text :=
  match s with
  | [] => (false, [])
  | c :: rest =>
    if c = minus then (true, rest) else if c = ofChar '+' then (false, rest) else (false, s)

/-- An exponent behind its letter. -/
def exponentText? (s : Text) : Option ℤ :=
  match s with
  | [] => some 0
  | _ :: rest =>
    let (negative, digits) := splitSign rest
    if digits ≠ [] ∧ digits.all isDigit then
      some (if negative then -(digitsValue digits : ℤ) else digitsValue digits)
    else none

/-- A finite decimal without its sign. -/
def unsignedDecimal? (s : Text) : Option ℚ :=
  let mantissa := s.takeWhile fun c => lowerAscii c ≠ ofChar 'e'
  let whole := mantissa.takeWhile fun c => c ≠ ofChar '.'
  let fraction := (mantissa.drop whole.length).tail
  if (whole ++ fraction).all isDigit ∧ whole ++ fraction ≠ [] then
    (exponentText? (s.drop mantissa.length)).map fun exponent =>
      (digitsValue (whole ++ fraction) : ℚ) * (10 : ℚ) ^ (exponent - (fraction.length : ℤ))
  else none

/-- `Decimal(text)`, where it is finite. -/
def decimalText? (s : Text) : Option ℚ :=
  let (negative, unsigned) := splitSign (((strip s).filter fun c => c ≠ ofChar '_').map asciiDigit)
  (unsignedDecimal? unsigned).map fun q => if negative then -q else q

def Amount.value : Amount → ℚ
  | .money cents => (cents : ℚ) / 100
  | .count n => n

/-- `_money_string`. -/
def moneyString (v : Value) : Option Json := do
  let amount ← match v with
    | .decimal a => some a.value
    | .number (.int n) => some (n : ℚ)
    | .text s => decimalText? s
    | .none => return .null
    | _ => none
  let cents := amount * 100
  if |cents| ≤ maxMoney ∧ cents.den = 1 then some (.str (moneyText cents.num)) else none

/-! ## The logical document -/

def auditFields : List Text :=
  [txt "run_id", txt "detected_at", txt "detected_at_utc", txt "observed_at",
    txt "observed_at_utc", txt "received_at_utc", txt "ingested_at_utc", txt "published_at_utc",
    txt "created_at_utc", txt "receipt_id", txt "batch_id", txt "original_filename",
    txt "archive_path"]

def logicalSections : List Text :=
  [txt "transactions", txt "expected_movements", txt "payouts", txt "exceptions",
    txt "source_completeness"]

def moneyFields : List Text :=
  [txt "expected_collection", txt "captured_total", txt "collection_variance",
    txt "successful_refund_total", txt "expected_fee_total", txt "reported_fee_total",
    txt "lifetime_net_collection", txt "expected_payout", txt "reported_line_total",
    txt "reported_net_amount", txt "provider_report_variance", txt "end_to_end_payout_variance",
    txt "signed_amount", txt "expected_amount", txt "actual_amount", txt "variance"]

namespace Value

mutual

/-- `_logical_value`. -/
def logicalValue : Value → Option Json
  | .list items => (logicalItems items).map fun js =>
    .arr (sortedBy (fun j => render (canon j)) js)
  | .fields members => (logicalMembers members).map .obj
  | v => v.jsonValue

def logicalItems : List Value → Option (List Json)
  | [] => some []
  | v :: items => do
    let j ← logicalValue v
    let js ← logicalItems items
    pure (j :: js)

def logicalMembers : List (Text × Value) → Option (List (Text × Json))
  | [] => some []
  | (k, v) :: members =>
    if k ∈ auditFields then logicalMembers members
    else do
      let j ← if k ∈ moneyFields then moneyString v else logicalValue v
      let js ← logicalMembers members
      pure ((k, j) :: js)

end

/-- A field of a dataclass, or an item of a mapping. -/
def field? (v : Value) (name : Text) : Option Value :=
  match v with
  | .fields members => (members.find? fun m => m.1 = name).map Prod.snd
  | _ => Option.none

end Value

def financialFingerprintVersion : ℤ := 2

def logicalDocument (result : Value) : Option Json := do
  let contractVersion ← result.field? (txt "contract_version")
  let version ← contractVersion.jsonValue
  let sections ← logicalSections.mapM fun name => do
    let v ← result.field? name
    let j ← v.logicalValue
    pure (name, j)
  pure (.obj ((txt "fingerprint_version", .num (.int financialFingerprintVersion)) ::
    (txt "contract_version", version) :: sections))

def logicalFingerprint (sha256 : Bytes → Text) (result : Value) : Option Text := do
  let document ← logicalDocument result
  documentFingerprint sha256 document

/-! ## Results as values -/

def ExpectedMovement.toValue (m : ExpectedMovement) : Value := .fields
  [(txt "movement_type", .text m.movementType.value),
   (txt "movement_id", .text m.movementId),
   (txt "available_on", .date m.availableOn),
   (txt "signed_amount", .decimal (.money m.signedAmount)),
   (txt "supporting_source_record_ids", .strings m.supportingSourceRecordIds)]

def ReconciliationException.toValue (x : ReconciliationException) : Value := .fields
  [(txt "run_id", .text x.runId),
   (txt "contract_version", .text x.contractVersion),
   (txt "rule_id", .text x.ruleId),
   (txt "exception_type", .text x.exceptionType.value),
   (txt "entity_type", .text x.entityType),
   (txt "entity_id", .text x.entityId),
   (txt "expected_amount", .optional .decimal x.expectedAmount),
   (txt "actual_amount", .optional .decimal x.actualAmount),
   (txt "variance", .optional .decimal x.variance),
   (txt "detected_at_utc", .datetime x.detectedAtUtc),
   (txt "status", .text x.status),
   (txt "supporting_source_record_ids", .strings x.supportingSourceRecordIds)]

def TransactionReconciliation.toValue (t : TransactionReconciliation) : Value := .fields
  [(txt "run_id", .text t.runId),
   (txt "contract_version", .text t.contractVersion),
   (txt "order_id", .text t.orderId),
   (txt "order_status", .text t.orderStatus.value),
   (txt "currency", .text t.currency),
   (txt "expected_collection", .decimal (.money t.expectedCollection)),
   (txt "captured_total", .decimal (.money t.capturedTotal)),
   (txt "collection_variance", .decimal (.money t.collectionVariance)),
   (txt "successful_refund_total", .decimal (.money t.successfulRefundTotal)),
   (txt "expected_fee_total", .decimal (.money t.expectedFeeTotal)),
   (txt "reported_fee_total", .decimal (.money t.reportedFeeTotal)),
   (txt "lifetime_net_collection", .decimal (.money t.lifetimeNetCollection)),
   (txt "captured_payment_count", .number (.int t.capturedPaymentCount)),
   (txt "successful_refund_count", .number (.int t.successfulRefundCount)),
   (txt "state", .text t.state.value),
   (txt "exception_codes", .strings (t.exceptionCodes.map ExceptionCode.value))]

def PayoutReconciliation.toValue (p : PayoutReconciliation) : Value := .fields
  [(txt "run_id", .text p.runId),
   (txt "contract_version", .text p.contractVersion),
   (txt "payout_id", .text p.payoutId),
   (txt "payout_date", .date p.payoutDate),
   (txt "currency", .text p.currency),
   (txt "expected_payout", .decimal (.money p.expectedPayout)),
   (txt "reported_line_total", .decimal (.money p.reportedLineTotal)),
   (txt "reported_net_amount", .decimal (.money p.reportedNetAmount)),
   (txt "provider_report_variance", .decimal (.money p.providerReportVariance)),
   (txt "end_to_end_payout_variance", .decimal (.money p.endToEndPayoutVariance)),
   (txt "expected_movement_count", .number (.int p.expectedMovementCount)),
   (txt "settlement_line_count", .number (.int p.settlementLineCount)),
   (txt "state", .text p.state.value),
   (txt "exception_codes", .strings (p.exceptionCodes.map ExceptionCode.value))]

def SourceReportStatus.toValue (s : SourceReportStatus) : Value := .fields
  [(txt "source_system", .text s.sourceSystem.value),
   (txt "report_type", .text s.reportType.value),
   (txt "business_date", .date s.businessDate),
   (txt "state", .text s.state.value),
   (txt "batch_id", .optional .text s.batchId),
   (txt "reason", .optional .text s.reason)]

def QuarantinedRecord.toValue (q : QuarantinedRecord) : Value := .fields
  [(txt "entity_type", .text q.entityType),
   (txt "source_id", .optional .text q.sourceId),
   (txt "reason_code", .text q.reasonCode),
   (txt "reason_detail", .text q.reasonDetail),
   (txt "raw_payload_json", .text q.rawPayloadJson)]

def ReconciliationResult.toValue (r : ReconciliationResult) : Value := .fields
  [(txt "run_id", .text r.runId),
   (txt "contract_version", .text r.contractVersion),
   (txt "detected_at_utc", .datetime r.detectedAtUtc),
   (txt "transactions", .list (r.transactions.map TransactionReconciliation.toValue)),
   (txt "expected_movements", .list (r.expectedMovements.map ExpectedMovement.toValue)),
   (txt "payouts", .list (r.payouts.map PayoutReconciliation.toValue)),
   (txt "exceptions", .list (r.exceptions.map ReconciliationException.toValue)),
   (txt "source_completeness", .list (r.sourceCompleteness.map SourceReportStatus.toValue)),
   (txt "quarantine_records", .list (r.quarantineRecords.map QuarantinedRecord.toValue))]

end Threadline
