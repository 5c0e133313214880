import Threadline.Money
import Threadline.PyDict
import Threadline.PyExcept
import Threadline.ReconcileData

/-!
# The contract of source rows

Untrusted JSON rows become financial records, or violations of the contract
that are kept as quarantine evidence. The parsers of ISO dates and timestamps
are parameters.
-/

open PyText PyCalendar PyJson PySorted PyExcept

namespace Threadline

structure ContractViolation where
  code : Text
  message : Text
  deriving DecidableEq

/-- `ContractViolation(message, code=code, field=field)`. -/
def violation (message code : Text) (field : Option Text) : ContractViolation :=
  match field with
  | none => ⟨code, message⟩
  | some field => ⟨code, field ++ txt ": " ++ message⟩

def invalidValue : Text := txt "INVALID_VALUE"

def invalidType : Text := txt "INVALID_TYPE"

/-- What a parser raises: a violation, or the overflow of a timestamp near the ends of the calendar
that has no UTC date. -/
inductive ParseError
  | contract (violation : ContractViolation)
  | overflow
  deriving DecidableEq

def violate {α : Type} (message code : Text) (field : Option Text) : Except ParseError α :=
  .error (.contract (violation message code field))

/-- What `datetime.fromisoformat` reads: an aware datetime may have no UTC instant. -/
inductive IsoDatetime
  | naive
  | aware (instant : Option UtcDateTime)
  deriving DecidableEq

/-- `date.fromisoformat` and `datetime.fromisoformat`, which raise on other texts. -/
structure IsoParsers where
  date : Text → Option Date
  datetime : Text → Option IsoDatetime

abbrev Payload := PyDict Text Json

/-! ## Fields -/

/-- `", ".join(items)`. -/
def commaJoin (items : List Text) : Text := (txt ", ").intercalate items

def requireKeys (payload : Payload) (required optional : List Text) : Except ParseError Unit :=
  let missing := sortedSet (required.filter fun k => k ∉ payload.keys)
  let unexpected := sortedSet (payload.keys.filter fun k => k ∉ required ∧ k ∉ optional)
  if missing ≠ [] then
    violate (txt "missing required fields: " ++ commaJoin missing) (txt "MISSING_FIELD") none
  else if unexpected ≠ [] then
    violate (txt "unexpected fields: " ++ commaJoin unexpected) (txt "UNEXPECTED_FIELD") none
  else .ok ()

/-- `payload[field]`, for a field that `requireKeys` found. -/
def Payload.field (payload : Payload) (field : Text) : Json := payload.getD field .null

def parseText (value : Json) (field : Text) : Except ParseError Text :=
  match value with
  | .str s =>
    if s = [] ∨ s ≠ strip s then
      violate (txt "must be non-empty and contain no surrounding whitespace") invalidValue
        (some field)
    else .ok s
  | _ => violate (txt "must be a string") invalidType (some field)

def parsePositiveInteger (value : Json) (field : Text) : Except ParseError ℤ :=
  match value with
  | .num (.int n) =>
    if n ≤ 0 then violate (txt "must be greater than zero") invalidValue (some field) else .ok n
  | _ => violate (txt "must be an integer") invalidType (some field)

/-- `_parse_enum` over the members of an enumeration with their values. -/
def parseEnum {α : Type} (members : List α) (memberValue : α → Text) (value : Json)
    (field : Text) : Except ParseError α := do
  let rawValue ← parseText value field
  match members.find? fun member => memberValue member = rawValue with
  | some member => .ok member
  | none =>
    violate (txt "must be one of: " ++ commaJoin (members.map memberValue)) invalidValue
      (some field)

def parseTimestamp (iso : IsoParsers) (value : Json) (field : Text) :
    Except ParseError UtcDateTime := do
  let rawValue ← parseText value field
  let normalized :=
    if rawValue.getLast? = some (ofChar 'Z') then rawValue.dropLast ++ txt "+00:00" else rawValue
  match iso.datetime normalized with
  | none => violate (txt "must be a valid ISO-8601 timestamp") invalidValue (some field)
  | some .naive => violate (txt "must include an explicit UTC offset") invalidValue (some field)
  | some (.aware none) => .error .overflow
  | some (.aware (some instant)) => .ok instant

def parseDate (iso : IsoParsers) (value : Json) (field : Text) : Except ParseError Date := do
  let rawValue ← parseText value field
  match iso.date rawValue with
  | none =>
    violate (txt "must be a valid ISO date in YYYY-MM-DD format") invalidValue (some field)
  | some parsed =>
    if parsed.isoformat ≠ rawValue then
      violate (txt "must use canonical YYYY-MM-DD format") invalidValue (some field)
    else .ok parsed

def parseCurrency (value : Json) : Except ParseError Text := do
  let currency ← parseText value (txt "currency")
  if currency ≠ eur then
    violate (txt "must equal " ++ eur) (txt "UNSUPPORTED_CURRENCY") (some (txt "currency"))
  else .ok currency

/-! ## Amounts -/

/-- The first digits of the decimal digit blocks of Unicode. -/
def digitZeros : List ℕ :=
  [0x30, 0x660, 0x6f0, 0x7c0, 0x966, 0x9e6, 0xa66, 0xae6, 0xb66, 0xbe6, 0xc66, 0xce6, 0xd66,
    0xde6, 0xe50, 0xed0, 0xf20, 0x1040, 0x1090, 0x17e0, 0x1810, 0x1946, 0x19d0, 0x1a80, 0x1a90,
    0x1b50, 0x1bb0, 0x1c40, 0x1c50, 0xa620, 0xa8d0, 0xa900, 0xa9d0, 0xa9f0, 0xaa50, 0xabf0,
    0xff10, 0x104a0, 0x10d30, 0x11066, 0x110f0, 0x11136, 0x111d0, 0x112f0, 0x11450, 0x114d0,
    0x11650, 0x116c0, 0x11730, 0x118e0, 0x11950, 0x11c50, 0x11d50, 0x11da0, 0x16a60, 0x16ac0,
    0x16b50, 0x1d7ce, 0x1d7d8, 0x1d7e2, 0x1d7ec, 0x1d7f6, 0x1e140, 0x1e2f0, 0x1e950, 0x1fbf0]

/-- The value of a character that the pattern `\d` matches. -/
def decimalDigit? (c : CodePoint) : Option ℕ :=
  (digitZeros.find? fun first => first ≤ c.val ∧ c.val < first + 10).map fun first =>
    c.val - first

def decimalDigits? (s : Text) : Option (List ℕ) := s.mapM decimalDigit?

def decimalValue (digits : List ℕ) : ℕ := digits.foldl (fun n d => 10 * n + d) 0

/-- `0|[1-9]\d*`: the leading digit is an ASCII one. -/
def wholePart? (s : Text) : Option (List ℕ) :=
  match s with
  | [] => none
  | c :: rest =>
    if c = ofChar '0' ∧ rest = [] then some [0]
    else if 49 ≤ c.val ∧ c.val ≤ 57 then (decimalDigits? rest).map fun ds => (c.val - 48) :: ds
    else none

/-- The cents of a text that matches `_MONEY_PATTERN`. -/
def moneyPattern? (s : Text) : Option ℤ :=
  let negative := s.head? = some minus
  let unsigned := if negative then s.tail else s
  let whole := unsigned.takeWhile fun c => c ≠ ofChar '.'
  match unsigned.drop whole.length with
  | _ :: d :: e :: [] => do
    let cents ← decimalDigits? [d, e]
    let wholeDigits ← wholePart? whole
    let value : ℕ := decimalValue (wholeDigits ++ cents)
    pure (if negative then -value else value)
  | _ => none

/-- `parse_money`, with the text of the exception it raises. -/
def parseMoney (value : Json) (allowNegative : Bool) : Except Text ℤ :=
  match value with
  | .str s =>
    match moneyPattern? s with
    | none => .error (txt "money must use canonical decimal notation with exactly two decimals")
    | some amount =>
      if amount.natAbs > maxMoney.natAbs then
        .error (txt "money exceeds the supported NUMERIC(18, 2) range: " ++ moneyText amount)
      else if amount < 0 ∧ allowNegative = false then
        .error (txt "negative money is not allowed for this field")
      else .ok amount
  | _ => .error (txt "money must be provided as a string")

/-- `_parse_money`. -/
def parseMoneyField (value : Json) (field : Text) (positive allowNegative : Bool) :
    Except ParseError ℤ :=
  match parseMoney value allowNegative with
  | .error message => violate message (txt "INVALID_AMOUNT") (some field)
  | .ok amount =>
    if positive ∧ amount ≤ 0 then
      violate (txt "must be greater than zero") (txt "INVALID_AMOUNT") (some field)
    else .ok amount

/-! ## Records -/

section Parsers

variable (iso : IsoParsers) (payload : Payload)

def parseOrder : Except ParseError Order := do
  requireKeys payload
    [txt "order_id", txt "created_at_utc", txt "status", txt "currency", txt "order_total",
      txt "source_version"] []
  let orderId ← parseText (payload.field (txt "order_id")) (txt "order_id")
  let createdAtUtc ← parseTimestamp iso (payload.field (txt "created_at_utc"))
    (txt "created_at_utc")
  let status ← parseEnum [.paymentPending, .paid, .cancelled] OrderStatus.value
    (payload.field (txt "status")) (txt "status")
  let currency ← parseCurrency (payload.field (txt "currency"))
  let orderTotal ← parseMoneyField (payload.field (txt "order_total")) (txt "order_total") true
    false
  let sourceVersion ← parsePositiveInteger (payload.field (txt "source_version"))
    (txt "source_version")
  .ok { sourceVersion, orderId, createdAtUtc, status, currency, orderTotal }

/-- The `available_on` of a payment or a refund, which only a final movement has. -/
def parseAvailableOn (final : Bool) (requiredMessage absentMessage : Text) :
    Except ParseError (Option Date) :=
  let field := txt "available_on"
  if final then
    if field ∉ payload.keys then violate requiredMessage (txt "MISSING_FIELD") (some field)
    else some <$> parseDate iso (payload.field field) field
  else if field ∈ payload.keys then violate absentMessage invalidValue (some field)
  else .ok none

def parsePayment : Except ParseError Payment := do
  requireKeys payload
    [txt "payment_id", txt "order_id", txt "attempt_number", txt "payment_method", txt "status",
      txt "amount", txt "currency", txt "effective_at_utc", txt "source_version"]
    [txt "available_on"]
  let status ← parseEnum [.failed, .captured] PaymentStatus.value (payload.field (txt "status"))
    (txt "status")
  let availableOn ← parseAvailableOn iso payload (status = .captured)
    (txt "is required for CAPTURED payments") (txt "must be absent for FAILED payments")
  let paymentId ← parseText (payload.field (txt "payment_id")) (txt "payment_id")
  let orderId ← parseText (payload.field (txt "order_id")) (txt "order_id")
  let attemptNumber ← parsePositiveInteger (payload.field (txt "attempt_number"))
    (txt "attempt_number")
  let paymentMethod ← parseEnum [.card, .wallet] PaymentMethod.value
    (payload.field (txt "payment_method")) (txt "payment_method")
  let amount ← parseMoneyField (payload.field (txt "amount")) (txt "amount") true false
  let currency ← parseCurrency (payload.field (txt "currency"))
  let effectiveAtUtc ← parseTimestamp iso (payload.field (txt "effective_at_utc"))
    (txt "effective_at_utc")
  let sourceVersion ← parsePositiveInteger (payload.field (txt "source_version"))
    (txt "source_version")
  .ok { sourceVersion, paymentId, orderId, attemptNumber, paymentMethod, status, amount, currency,
        effectiveAtUtc, availableOn }

def parseRefund : Except ParseError Refund := do
  requireKeys payload
    [txt "refund_id", txt "payment_id", txt "status", txt "amount", txt "currency",
      txt "effective_at_utc", txt "source_version"]
    [txt "available_on"]
  let status ← parseEnum [.failed, .succeeded] RefundStatus.value (payload.field (txt "status"))
    (txt "status")
  let availableOn ← parseAvailableOn iso payload (status = .succeeded)
    (txt "is required for SUCCEEDED refunds") (txt "must be absent for FAILED refunds")
  let refundId ← parseText (payload.field (txt "refund_id")) (txt "refund_id")
  let paymentId ← parseText (payload.field (txt "payment_id")) (txt "payment_id")
  let amount ← parseMoneyField (payload.field (txt "amount")) (txt "amount") true false
  let currency ← parseCurrency (payload.field (txt "currency"))
  let effectiveAtUtc ← parseTimestamp iso (payload.field (txt "effective_at_utc"))
    (txt "effective_at_utc")
  let sourceVersion ← parsePositiveInteger (payload.field (txt "source_version"))
    (txt "source_version")
  .ok { sourceVersion, refundId, paymentId, status, amount, currency, effectiveAtUtc, availableOn }

def parseFee : Except ParseError Fee := do
  requireKeys payload
    [txt "fee_id", txt "payment_id", txt "fee_type", txt "amount", txt "currency",
      txt "effective_at_utc", txt "available_on", txt "source_version"] []
  let feeId ← parseText (payload.field (txt "fee_id")) (txt "fee_id")
  let paymentId ← parseText (payload.field (txt "payment_id")) (txt "payment_id")
  let feeType ← parseEnum [.processing] FeeType.value (payload.field (txt "fee_type"))
    (txt "fee_type")
  let amount ← parseMoneyField (payload.field (txt "amount")) (txt "amount") true false
  let currency ← parseCurrency (payload.field (txt "currency"))
  let effectiveAtUtc ← parseTimestamp iso (payload.field (txt "effective_at_utc"))
    (txt "effective_at_utc")
  let availableOn ← parseDate iso (payload.field (txt "available_on")) (txt "available_on")
  let sourceVersion ← parsePositiveInteger (payload.field (txt "source_version"))
    (txt "source_version")
  .ok { sourceVersion, feeId, paymentId, feeType, amount, currency, effectiveAtUtc, availableOn }

def parseSettlementLine : Except ParseError SettlementLine := do
  requireKeys payload
    [txt "settlement_line_id", txt "payout_id", txt "movement_type", txt "movement_id",
      txt "signed_amount", txt "currency", txt "source_version"] []
  let movementType ← parseEnum [.capture, .refund, .fee] MovementType.value
    (payload.field (txt "movement_type")) (txt "movement_type")
  let signedAmount ← parseMoneyField (payload.field (txt "signed_amount")) (txt "signed_amount")
    false true
  if movementType = .capture then
    if signedAmount ≤ 0 then
      violate (txt "must be positive for CAPTURE movements") (txt "INVALID_MONEY_SIGN")
        (some (txt "signed_amount"))
  else if signedAmount ≥ 0 then
    violate (txt "must be negative for REFUND and FEE movements") (txt "INVALID_MONEY_SIGN")
      (some (txt "signed_amount"))
  let settlementLineId ← parseText (payload.field (txt "settlement_line_id"))
    (txt "settlement_line_id")
  let payoutId ← parseText (payload.field (txt "payout_id")) (txt "payout_id")
  let movementId ← parseText (payload.field (txt "movement_id")) (txt "movement_id")
  let currency ← parseCurrency (payload.field (txt "currency"))
  let sourceVersion ← parsePositiveInteger (payload.field (txt "source_version"))
    (txt "source_version")
  .ok { sourceVersion, settlementLineId, payoutId, movementType, movementId, signedAmount,
        currency }

def parsePayout : Except ParseError Payout := do
  requireKeys payload
    [txt "payout_id", txt "payout_date", txt "currency", txt "reported_net_amount",
      txt "source_version"] []
  let payoutId ← parseText (payload.field (txt "payout_id")) (txt "payout_id")
  let payoutDate ← parseDate iso (payload.field (txt "payout_date")) (txt "payout_date")
  let currency ← parseCurrency (payload.field (txt "currency"))
  let reportedNetAmount ← parseMoneyField (payload.field (txt "reported_net_amount"))
    (txt "reported_net_amount") false false
  let sourceVersion ← parsePositiveInteger (payload.field (txt "source_version"))
    (txt "source_version")
  .ok { sourceVersion, payoutId, payoutDate, currency, reportedNetAmount }

/-- `_RECORD_PARSERS`. -/
def recordParser : EntityType → Except ParseError FinancialRecord
  | .order => .order <$> parseOrder iso payload
  | .payment => .payment <$> parsePayment iso payload
  | .refund => .refund <$> parseRefund iso payload
  | .fee => .fee <$> parseFee iso payload
  | .settlementLine => .settlementLine <$> parseSettlementLine payload
  | .payout => .payout <$> parsePayout iso payload

def EntityType.all : List EntityType := [.order, .payment, .refund, .fee, .settlementLine, .payout]

/-- An entity type is given as a member, or by name. -/
inductive EntityName
  | member (entityType : EntityType)
  | name (text : Text)
  deriving DecidableEq

/-- Validate and parse one financial source record. -/
def parseSourceRecord (entityType : EntityName) : Except ParseError FinancialRecord :=
  match entityType with
  | .member entityType => recordParser iso payload entityType
  | .name text =>
    match EntityType.all.find? fun member => member.value = text with
    | some entityType => recordParser iso payload entityType
    | none =>
      violate (txt "unsupported entity type; expected one of: " ++
        commaJoin (EntityType.all.map EntityType.value)) (txt "UNSUPPORTED_ENTITY_TYPE")
        (some (txt "entity_type"))

end Parsers

/-! ## Quarantine -/

/-- `_ID_FIELDS`. -/
def idField : EntityType → Text
  | .order => txt "order_id"
  | .payment => txt "payment_id"
  | .refund => txt "refund_id"
  | .fee => txt "fee_id"
  | .settlementLine => txt "settlement_line_id"
  | .payout => txt "payout_id"

def EntityName.text : EntityName → Text
  | .member entityType => entityType.value
  | .name text => text

/-- The ID of a row that has a text for one. -/
def candidateId (entityType : EntityName) (payload : Payload) : Option Text :=
  match entityType with
  | .name _ => none
  | .member entityType =>
    match payload.get? (idField entityType) with
    | some (.str s) => some s
    | _ => none

/-- Convert a validation failure into deterministic quarantine evidence. -/
def quarantineFromViolation (entityType : EntityName) (payload : Payload)
    (violation : ContractViolation) : QuarantinedRecord where
  entityType := entityType.text
  sourceId := candidateId entityType payload
  reasonCode := violation.code
  reasonDetail := violation.message
  rawPayloadJson := render (canon (.obj payload.items))

/-! ## Codes of violations -/

/-- Every violation raised has a code that is not blank. -/
def Coded {α : Type} (x : Except ParseError α) : Prop :=
  ∀ v, x = .error (.contract v) → strip v.code ≠ []

section Coded

variable {α β : Type} {iso : IsoParsers} {payload : Payload}

theorem Coded.bind {x : Except ParseError α} {f : α → Except ParseError β} (hx : Coded x)
    (hf : ∀ a, Coded (f a)) : Coded (x >>= f) := by
  intro v h
  obtain h | ⟨a, -, h⟩ := bind_eq_error.mp h
  · exact hx v h
  · exact hf a v h

theorem Coded.map {x : Except ParseError α} {f : α → β} (hx : Coded x) : Coded (f <$> x) := by
  intro v h
  cases x with
  | ok a => cases h
  | error err => exact hx v (congrArg Except.error (Except.error.inj h))

theorem coded_ok (a : α) : Coded (.ok a) := fun _ h => nomatch h

/-- The codes that the parsers raise. -/
def violationCodes : List Text :=
  [invalidType, invalidValue, txt "INVALID_AMOUNT", txt "INVALID_MONEY_SIGN",
    txt "MISSING_FIELD", txt "UNEXPECTED_FIELD", txt "UNSUPPORTED_CURRENCY",
    txt "UNSUPPORTED_ENTITY_TYPE"]

theorem strip_violationCodes : ∀ code ∈ violationCodes, strip code ≠ [] := by decide

theorem coded_violate {message code : Text} {field : Option Text} (hcode : code ∈ violationCodes) :
    Coded (violate message code field : Except ParseError α) := by
  intro v h
  obtain rfl := ParseError.contract.inj (Except.error.inj h)
  cases field <;> exact strip_violationCodes _ hcode

theorem coded_requireKeys {required optional : List Text} :
    Coded (requireKeys payload required optional) := by
  unfold requireKeys
  simp only
  split_ifs
  · exact coded_violate (by simp [violationCodes])
  · exact coded_violate (by simp [violationCodes])
  · exact coded_ok _

theorem coded_parseText {value : Json} {field : Text} : Coded (parseText value field) := by
  unfold parseText
  split
  · split_ifs
    · exact coded_violate (by simp [violationCodes])
    · exact coded_ok _
  · exact coded_violate (by simp [violationCodes])

theorem coded_parsePositiveInteger {value : Json} {field : Text} :
    Coded (parsePositiveInteger value field) := by
  unfold parsePositiveInteger
  split
  · split_ifs
    · exact coded_violate (by simp [violationCodes])
    · exact coded_ok _
  · exact coded_violate (by simp [violationCodes])

theorem coded_parseEnum {members : List α} {memberValue : α → Text} {value : Json} {field : Text} :
    Coded (parseEnum members memberValue value field) := by
  refine .bind coded_parseText fun rawValue => ?_
  split
  · exact coded_ok _
  · exact coded_violate (by simp [violationCodes])

theorem coded_parseTimestamp {value : Json} {field : Text} :
    Coded (parseTimestamp iso value field) := by
  refine .bind coded_parseText fun rawValue => ?_
  simp only
  split
  · exact coded_violate (by simp [violationCodes])
  · exact coded_violate (by simp [violationCodes])
  · exact fun _ h => nomatch h
  · exact coded_ok _

theorem coded_parseDate {value : Json} {field : Text} : Coded (parseDate iso value field) := by
  refine .bind coded_parseText fun rawValue => ?_
  split
  · exact coded_violate (by simp [violationCodes])
  · split_ifs
    · exact coded_violate (by simp [violationCodes])
    · exact coded_ok _

theorem coded_parseCurrency {value : Json} : Coded (parseCurrency value) := by
  refine .bind coded_parseText fun currency => ?_
  split_ifs
  · exact coded_violate (by simp [violationCodes])
  · exact coded_ok _

theorem coded_parseMoneyField {value : Json} {field : Text} {positive allowNegative : Bool} :
    Coded (parseMoneyField value field positive allowNegative) := by
  unfold parseMoneyField
  split
  · exact coded_violate (by simp [violationCodes])
  · split_ifs
    · exact coded_violate (by simp [violationCodes])
    · exact coded_ok _

theorem coded_parseAvailableOn {final : Bool} {requiredMessage absentMessage : Text} :
    Coded (parseAvailableOn iso payload final requiredMessage absentMessage) := by
  cases final with
  | true =>
    unfold parseAvailableOn
    simp only [if_true]
    split_ifs
    · exact .map coded_parseDate
    · exact coded_violate (by simp [violationCodes])
  | false =>
    unfold parseAvailableOn
    simp only [Bool.false_eq_true, if_false]
    split_ifs
    · exact coded_violate (by simp [violationCodes])
    · exact coded_ok _

theorem coded_parseOrder : Coded (parseOrder iso payload) :=
  .bind coded_requireKeys fun _ => .bind coded_parseText fun _ =>
    .bind coded_parseTimestamp fun _ =>
    .bind coded_parseEnum fun _ => .bind coded_parseCurrency fun _ =>
    .bind coded_parseMoneyField fun _ => .bind coded_parsePositiveInteger fun _ => coded_ok _

theorem coded_parsePayment : Coded (parsePayment iso payload) :=
  .bind coded_requireKeys fun _ => .bind coded_parseEnum fun _ =>
    .bind coded_parseAvailableOn fun _ =>
    .bind coded_parseText fun _ => .bind coded_parseText fun _ =>
    .bind coded_parsePositiveInteger fun _ => .bind coded_parseEnum fun _ =>
    .bind coded_parseMoneyField fun _ => .bind coded_parseCurrency fun _ =>
    .bind coded_parseTimestamp fun _ => .bind coded_parsePositiveInteger fun _ => coded_ok _

theorem coded_parseRefund : Coded (parseRefund iso payload) :=
  .bind coded_requireKeys fun _ => .bind coded_parseEnum fun _ =>
    .bind coded_parseAvailableOn fun _ =>
    .bind coded_parseText fun _ => .bind coded_parseText fun _ =>
    .bind coded_parseMoneyField fun _ => .bind coded_parseCurrency fun _ =>
    .bind coded_parseTimestamp fun _ => .bind coded_parsePositiveInteger fun _ => coded_ok _

theorem coded_parseFee : Coded (parseFee iso payload) :=
  .bind coded_requireKeys fun _ => .bind coded_parseText fun _ => .bind coded_parseText fun _ =>
    .bind coded_parseEnum fun _ => .bind coded_parseMoneyField fun _ =>
    .bind coded_parseCurrency fun _ => .bind coded_parseTimestamp fun _ =>
    .bind coded_parseDate fun _ => .bind coded_parsePositiveInteger fun _ => coded_ok _

theorem coded_parseSettlementLine : Coded (parseSettlementLine payload) := by
  refine .bind coded_requireKeys fun _ => .bind coded_parseEnum fun movementType =>
    .bind coded_parseMoneyField fun signedAmount => ?_
  have hrest : ∀ u : PUnit.{1}, Coded (do
      let settlementLineId ← parseText (payload.field (txt "settlement_line_id"))
        (txt "settlement_line_id")
      let payoutId ← parseText (payload.field (txt "payout_id")) (txt "payout_id")
      let movementId ← parseText (payload.field (txt "movement_id")) (txt "movement_id")
      let currency ← parseCurrency (payload.field (txt "currency"))
      let sourceVersion ← parsePositiveInteger (payload.field (txt "source_version"))
        (txt "source_version")
      .ok ({ sourceVersion, settlementLineId, payoutId, movementType, movementId, signedAmount,
             currency } : SettlementLine)) := fun _ =>
    .bind coded_parseText fun _ => .bind coded_parseText fun _ => .bind coded_parseText fun _ =>
      .bind coded_parseCurrency fun _ => .bind coded_parsePositiveInteger fun _ => coded_ok _
  split_ifs
  · exact .bind (coded_violate (by simp [violationCodes])) hrest
  · exact hrest ⟨⟩
  · exact .bind (coded_violate (by simp [violationCodes])) hrest
  · exact hrest ⟨⟩

theorem coded_parsePayout : Coded (parsePayout iso payload) :=
  .bind coded_requireKeys fun _ => .bind coded_parseText fun _ => .bind coded_parseDate fun _ =>
    .bind coded_parseCurrency fun _ => .bind coded_parseMoneyField fun _ =>
    .bind coded_parsePositiveInteger fun _ => coded_ok _

theorem coded_recordParser (entityType : EntityType) :
    Coded (recordParser iso payload entityType) := by
  cases entityType
  · exact .map coded_parseOrder
  · exact .map coded_parsePayment
  · exact .map coded_parseRefund
  · exact .map coded_parseFee
  · exact .map coded_parseSettlementLine
  · exact .map coded_parsePayout

/-- A row is never rejected without a reason. -/
theorem coded_parseSourceRecord (entityType : EntityName) :
    Coded (parseSourceRecord iso payload entityType) := by
  cases entityType with
  | member entityType => exact coded_recordParser entityType
  | name text =>
    unfold parseSourceRecord
    simp only
    split
    · exact coded_recordParser _
    · exact coded_violate (by simp [violationCodes])

end Coded

theorem entityType_of_recordParser {iso : IsoParsers} {payload : Payload} {entityType : EntityType}
    {record : FinancialRecord} (h : recordParser iso payload entityType = .ok record) :
    record.entityType = entityType := by
  cases entityType <;> obtain ⟨a, -, rfl⟩ := map_eq_ok.mp h <;> rfl

end Threadline
