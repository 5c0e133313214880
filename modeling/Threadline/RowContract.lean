import Threadline.EncodableDocuments
import Threadline.SourceContract

/-!
# The contract of a row

The contract as a list of rules, in the order in which the parser of the row
checks them. A row becomes a record when it meets every rule; otherwise it is
rejected at the first rule that it breaks, or a timestamp overflows there.
-/

open PyText PyCalendar PyJson PySorted PyExcept

namespace Threadline

/-- A text that `_parse_text` accepts. -/
def Trimmed (s : Text) : Prop := s ≠ [] ∧ s = strip s

/-- `Z` is read as an offset of zero. -/
def normalizedOffset (s : Text) : Text :=
  if s.getLast? = some (ofChar 'Z') then s.dropLast ++ txt "+00:00" else s

/-- What the contract asks of one field, or of how fields agree. -/
inductive Rule
  | keys (required optional : List Text)
  | text (field : Text)
  | positiveInteger (field : Text)
  | oneOf (values : List Text) (field : Text)
  | timestamp (field : Text)
  | date (field : Text)
  | currency
  | money (field : Text) (positive allowNegative : Bool)
  /-- A final movement has a date, another one has none. -/
  | availableOn (final : Text)
  /-- A capture adds to a payout, another movement takes from it. -/
  | sign
  deriving DecidableEq

section Rules

variable (iso : IsoParsers) (payload : Payload)

def DateAt (field : Text) : Prop :=
  ∃ s, payload.field field = .str s ∧ Trimmed s ∧ ∃ d, iso.date s = some d ∧ d.isoformat = s

def MoneyAt (field : Text) (positive allowNegative : Bool) : Prop :=
  ∃ s amount, payload.field field = .str s ∧ moneyPattern? s = some amount ∧
    amount.natAbs ≤ maxMoney.natAbs ∧ (0 ≤ amount ∨ allowNegative) ∧ (positive → 0 < amount)

/-- The timestamp at a field, whose instant may lie outside the calendar. -/
def TimestampAt (field : Text) (instant : Option UtcDateTime) : Prop :=
  ∃ s, payload.field field = .str s ∧ Trimmed s ∧
    iso.datetime (normalizedOffset s) = some (.aware instant)

namespace Rule

def Met : Rule → Prop
  | keys required optional => (∀ k ∈ required, k ∈ payload.keys) ∧
      ∀ k ∈ payload.keys, k ∈ required ∨ k ∈ optional
  | text field => ∃ s, payload.field field = .str s ∧ Trimmed s
  | positiveInteger field => ∃ n, payload.field field = .num (.int n) ∧ 0 < n
  | oneOf values field => ∃ s ∈ values, payload.field field = .str s ∧ Trimmed s
  | timestamp field => ∃ instant, TimestampAt iso payload field (some instant)
  | date field => DateAt iso payload field
  | currency => payload.field (txt "currency") = .str eur
  | money field positive allowNegative => MoneyAt payload field positive allowNegative
  | availableOn final =>
      (payload.field (txt "status") = .str final →
        txt "available_on" ∈ payload.keys ∧ DateAt iso payload (txt "available_on")) ∧
      (payload.field (txt "status") ≠ .str final → txt "available_on" ∉ payload.keys)
  | sign => ∃ s amount, payload.field (txt "signed_amount") = .str s ∧
      moneyPattern? s = some amount ∧
      (payload.field (txt "movement_type") = .str MovementType.capture.value → 0 < amount) ∧
      (payload.field (txt "movement_type") ≠ .str MovementType.capture.value → amount < 0)

/-- The instant of a timestamp has no UTC date. -/
def Overflows : Rule → Prop
  | timestamp field => TimestampAt iso payload field none
  | _ => False

end Rule

/-- The row meets the contract up to a timestamp that overflows. -/
def OverflowsAt : List Rule → Prop
  | [] => False
  | rule :: rules => rule.Overflows iso payload ∨ rule.Met iso payload ∧ OverflowsAt rules

end Rules

/-- The contract of a row. -/
def rowRules : EntityType → List Rule
  | .order =>
    [.keys [txt "order_id", txt "created_at_utc", txt "status", txt "currency", txt "order_total",
        txt "source_version"] [],
      .text (txt "order_id"), .timestamp (txt "created_at_utc"),
      .oneOf ([.paymentPending, .paid, .cancelled].map OrderStatus.value) (txt "status"),
      .currency, .money (txt "order_total") true false, .positiveInteger (txt "source_version")]
  | .payment =>
    [.keys [txt "payment_id", txt "order_id", txt "attempt_number", txt "payment_method",
        txt "status", txt "amount", txt "currency", txt "effective_at_utc", txt "source_version"]
        [txt "available_on"],
      .oneOf ([.failed, .captured].map PaymentStatus.value) (txt "status"),
      .availableOn PaymentStatus.captured.value, .text (txt "payment_id"), .text (txt "order_id"),
      .positiveInteger (txt "attempt_number"),
      .oneOf ([.card, .wallet].map PaymentMethod.value) (txt "payment_method"),
      .money (txt "amount") true false, .currency, .timestamp (txt "effective_at_utc"),
      .positiveInteger (txt "source_version")]
  | .refund =>
    [.keys [txt "refund_id", txt "payment_id", txt "status", txt "amount", txt "currency",
        txt "effective_at_utc", txt "source_version"] [txt "available_on"],
      .oneOf ([.failed, .succeeded].map RefundStatus.value) (txt "status"),
      .availableOn RefundStatus.succeeded.value, .text (txt "refund_id"), .text (txt "payment_id"),
      .money (txt "amount") true false, .currency, .timestamp (txt "effective_at_utc"),
      .positiveInteger (txt "source_version")]
  | .fee =>
    [.keys [txt "fee_id", txt "payment_id", txt "fee_type", txt "amount", txt "currency",
        txt "effective_at_utc", txt "available_on", txt "source_version"] [],
      .text (txt "fee_id"), .text (txt "payment_id"),
      .oneOf ([.processing].map FeeType.value) (txt "fee_type"),
      .money (txt "amount") true false, .currency, .timestamp (txt "effective_at_utc"),
      .date (txt "available_on"), .positiveInteger (txt "source_version")]
  | .settlementLine =>
    [.keys [txt "settlement_line_id", txt "payout_id", txt "movement_type", txt "movement_id",
        txt "signed_amount", txt "currency", txt "source_version"] [],
      .oneOf ([.capture, .refund, .fee].map MovementType.value) (txt "movement_type"),
      .money (txt "signed_amount") false true, .sign, .text (txt "settlement_line_id"),
      .text (txt "payout_id"), .text (txt "movement_id"), .currency,
      .positiveInteger (txt "source_version")]
  | .payout =>
    [.keys [txt "payout_id", txt "payout_date", txt "currency", txt "reported_net_amount",
        txt "source_version"] [],
      .text (txt "payout_id"), .date (txt "payout_date"), .currency,
      .money (txt "reported_net_amount") false false, .positiveInteger (txt "source_version")]

/-- The fields whose texts a record keeps as they are. -/
def textFields (entityType : EntityType) : List Text :=
  (rowRules entityType).filterMap fun
    | .text field => some field
    | _ => none

/-! ## Field parsers -/

section Fields

variable {iso : IsoParsers} {payload : Payload} {value : Json} {field : Text}

theorem parseText_eq_ok {s : Text} :
    parseText value field = .ok s ↔ value = .str s ∧ Trimmed s := by
  unfold parseText Trimmed violate
  split
  next s' =>
    split_ifs with h
    · refine iff_of_false nofun ?_
      rintro ⟨heq, hne, hstrip⟩
      obtain rfl := Json.str.inj heq
      tauto
    · rw [Except.ok.injEq, Json.str.injEq]
      constructor
      · rintro rfl
        exact ⟨rfl, by tauto⟩
      · exact fun h => h.1
  next hne =>
    refine iff_of_false nofun ?_
    rintro ⟨rfl, -⟩
    exact hne s rfl

theorem parsePositiveInteger_eq_ok {n : ℤ} :
    parsePositiveInteger value field = .ok n ↔ value = .num (.int n) ∧ 0 < n := by
  unfold parsePositiveInteger violate
  split
  next m =>
    split_ifs with h
    · refine iff_of_false nofun ?_
      rintro ⟨heq, hpos⟩
      obtain rfl := Number.int.inj (Json.num.inj heq)
      omega
    · rw [Except.ok.injEq, Json.num.injEq, Number.int.injEq]
      constructor
      · rintro rfl
        exact ⟨rfl, by omega⟩
      · exact fun h => h.1
  next hne =>
    refine iff_of_false nofun ?_
    rintro ⟨rfl, -⟩
    exact hne n rfl

theorem parseEnum_eq_ok {α : Type} {members : List α} {memberValue : α → Text}
    (hinj : Function.Injective memberValue) {a : α} :
    parseEnum members memberValue value field = .ok a ↔
      a ∈ members ∧ value = .str (memberValue a) ∧ Trimmed (memberValue a) := by
  simp only [parseEnum, bind_eq_ok, parseText_eq_ok]
  constructor
  · rintro ⟨s, ⟨rfl, hs⟩, h⟩
    split at h
    next member hfind =>
      obtain rfl := Except.ok.inj h
      obtain rfl : memberValue member = s := by simpa using List.find?_some hfind
      exact ⟨List.mem_of_find?_eq_some hfind, rfl, hs⟩
    · cases h
  · rintro ⟨ha, rfl, hs⟩
    refine ⟨memberValue a, ⟨rfl, hs⟩, ?_⟩
    split
    next member hfind =>
      have hmember : memberValue member = memberValue a := by simpa using List.find?_some hfind
      rw [hinj hmember]
    next hfind =>
      have hne := List.find?_eq_none.mp hfind a ha
      simp at hne

/-- A timestamp is read from its normalized text. -/
theorem parseTimestamp_cases {s : Text} (hs : Trimmed s) :
    parseTimestamp iso (.str s) field = match iso.datetime (normalizedOffset s) with
      | none => violate (txt "must be a valid ISO-8601 timestamp") invalidValue (some field)
      | some .naive =>
        violate (txt "must include an explicit UTC offset") invalidValue (some field)
      | some (.aware none) => .error .overflow
      | some (.aware (some instant)) => .ok instant := by
  rw [parseTimestamp, parseText_eq_ok.mpr ⟨rfl, hs⟩]
  rfl

theorem parseTimestamp_eq_ok {t : UtcDateTime} :
    parseTimestamp iso value field = .ok t ↔ ∃ s, value = .str s ∧ Trimmed s ∧
      iso.datetime (normalizedOffset s) = some (.aware (some t)) := by
  constructor
  · intro h
    obtain ⟨s, hparse, -⟩ := bind_eq_ok.mp h
    obtain ⟨rfl, hs⟩ := parseText_eq_ok.mp hparse
    rw [parseTimestamp_cases hs] at h
    refine ⟨s, rfl, hs, ?_⟩
    split at h
    · cases h
    · cases h
    · cases h
    next instant hread =>
      obtain rfl := Except.ok.inj h
      exact hread
  · rintro ⟨s, rfl, hs, hread⟩
    rw [parseTimestamp_cases hs, hread]

theorem parseText_ne_overflow : parseText value field ≠ .error .overflow := by
  unfold parseText violate
  split
  · split_ifs <;> nofun
  · nofun

theorem parseTimestamp_overflow :
    parseTimestamp iso value field = .error .overflow ↔ ∃ s, value = .str s ∧ Trimmed s ∧
      iso.datetime (normalizedOffset s) = some (.aware none) := by
  constructor
  · intro h
    obtain h' | ⟨s, hparse, -⟩ := bind_eq_error.mp h
    · exact absurd h' parseText_ne_overflow
    obtain ⟨rfl, hs⟩ := parseText_eq_ok.mp hparse
    rw [parseTimestamp_cases hs] at h
    refine ⟨s, rfl, hs, ?_⟩
    split at h
    · cases h
    · cases h
    next hread => exact hread
    · cases h
  · rintro ⟨s, rfl, hs, hread⟩
    rw [parseTimestamp_cases hs, hread]

theorem parseDate_eq_ok {d : Date} :
    parseDate iso value field = .ok d ↔
      ∃ s, value = .str s ∧ Trimmed s ∧ iso.date s = some d ∧ d.isoformat = s := by
  simp only [parseDate, bind_eq_ok, parseText_eq_ok, and_assoc]
  refine exists_congr fun s => and_congr_right fun _ => and_congr_right fun _ => ?_
  split
  next h => exact iff_of_false nofun (by rw [h]; nofun)
  next parsed h =>
    rw [h, Option.some.injEq]
    split_ifs with hiso
    · refine iff_of_false nofun ?_
      rintro ⟨rfl, heq⟩
      exact hiso heq
    · rw [Except.ok.injEq]
      constructor
      · rintro rfl
        exact ⟨rfl, not_not.mp hiso⟩
      · exact fun h => h.1

theorem trimmed_eur : Trimmed eur := by
  unfold Trimmed
  decide +kernel

theorem parseCurrency_eq_ok {s : Text} :
    parseCurrency value = .ok s ↔ value = .str eur ∧ s = eur := by
  simp only [parseCurrency, bind_eq_ok, parseText_eq_ok]
  constructor
  · rintro ⟨s', ⟨rfl, -⟩, h⟩
    split_ifs at h with hne
    · cases h
    · obtain rfl := Except.ok.inj h
      rw [not_not.mp hne]
      exact ⟨rfl, rfl⟩
  · rintro ⟨rfl, rfl⟩
    exact ⟨eur, ⟨rfl, trimmed_eur⟩, if_neg (not_not.mpr rfl)⟩

theorem parseMoney_eq_ok {allowNegative : Bool} {amount : ℤ} :
    parseMoney value allowNegative = .ok amount ↔ ∃ s, value = .str s ∧
      moneyPattern? s = some amount ∧ amount.natAbs ≤ maxMoney.natAbs ∧
      (0 ≤ amount ∨ allowNegative) := by
  unfold parseMoney
  split
  next s =>
    simp only [Json.str.injEq, exists_eq_left']
    split
    next h => exact iff_of_false nofun (by rw [h]; nofun)
    next amount' h =>
      rw [h, Option.some.injEq]
      split_ifs with hrange hsign
      · refine iff_of_false nofun ?_
        rintro ⟨rfl, hle, -⟩
        omega
      · refine iff_of_false nofun ?_
        rintro ⟨rfl, -, hle | hle⟩
        · omega
        · exact Bool.false_ne_true (hsign.2.symm.trans hle)
      · rw [Except.ok.injEq]
        constructor
        · rintro rfl
          refine ⟨rfl, by omega, ?_⟩
          by_cases hle : 0 ≤ amount'
          · exact .inl hle
          · exact .inr (Bool.eq_true_of_not_eq_false fun hfalse => hsign ⟨by omega, hfalse⟩)
        · exact fun h => h.1
  next hne =>
    refine iff_of_false nofun ?_
    rintro ⟨s, rfl, -⟩
    exact hne s rfl

theorem parseMoneyField_eq_ok {positive allowNegative : Bool} {amount : ℤ} :
    parseMoneyField value field positive allowNegative = .ok amount ↔ ∃ s, value = .str s ∧
      moneyPattern? s = some amount ∧ amount.natAbs ≤ maxMoney.natAbs ∧
      (0 ≤ amount ∨ allowNegative) ∧ (positive → 0 < amount) := by
  have hrange : (∃ s, value = .str s ∧ moneyPattern? s = some amount ∧
      amount.natAbs ≤ maxMoney.natAbs ∧ (0 ≤ amount ∨ allowNegative) ∧
      (positive → 0 < amount)) ↔
      parseMoney value allowNegative = .ok amount ∧ (positive → 0 < amount) := by
    rw [parseMoney_eq_ok]
    constructor
    · rintro ⟨s, hs, hpattern, hle, hsign, hpos⟩
      exact ⟨⟨s, hs, hpattern, hle, hsign⟩, hpos⟩
    · rintro ⟨⟨s, hs, hpattern, hle, hsign⟩, hpos⟩
      exact ⟨s, hs, hpattern, hle, hsign, hpos⟩
  rw [hrange]
  unfold parseMoneyField
  split
  next h => exact iff_of_false nofun (by rw [h]; nofun)
  next amount' h =>
    rw [h, Except.ok.injEq]
    split_ifs with hpos
    · refine iff_of_false nofun ?_
      rintro ⟨rfl, hlt⟩
      have := hlt hpos.1
      omega
    · rw [Except.ok.injEq]
      constructor
      · rintro rfl
        exact ⟨rfl, fun h => by_contra fun hle => hpos ⟨h, by omega⟩⟩
      · exact fun h => h.1

/-- Only a timestamp overflows. -/
def NoOverflow {α : Type} (x : Except ParseError α) : Prop := x ≠ .error .overflow

section

variable {α β : Type}

theorem NoOverflow.bind {x : Except ParseError α} {f : α → Except ParseError β}
    (hx : NoOverflow x) (hf : ∀ a, NoOverflow (f a)) : NoOverflow (x >>= f) := by
  intro h
  obtain h | ⟨a, -, h⟩ := bind_eq_error.mp h
  · exact hx h
  · exact hf a h

theorem NoOverflow.map {x : Except ParseError α} {f : α → β} (hx : NoOverflow x) :
    NoOverflow (f <$> x) := by
  cases x with
  | ok a => exact nofun
  | error e => exact fun h => hx (congrArg Except.error (Except.error.inj h))

theorem noOverflow_ok (a : α) : NoOverflow (.ok a) := nofun

theorem noOverflow_violate {message code : Text} {field : Option Text} :
    NoOverflow (violate message code field : Except ParseError α) := nofun

theorem noOverflow_parseEnum {members : List α} {memberValue : α → Text} :
    NoOverflow (parseEnum members memberValue value field) := by
  refine NoOverflow.bind parseText_ne_overflow fun s => ?_
  split
  · exact noOverflow_ok _
  · exact noOverflow_violate

theorem noOverflow_parsePositiveInteger : NoOverflow (parsePositiveInteger value field) := by
  unfold parsePositiveInteger
  split
  · split_ifs
    · exact noOverflow_violate
    · exact noOverflow_ok _
  · exact noOverflow_violate

theorem noOverflow_parseDate : NoOverflow (parseDate iso value field) := by
  refine NoOverflow.bind parseText_ne_overflow fun s => ?_
  split
  · exact noOverflow_violate
  · split_ifs
    · exact noOverflow_violate
    · exact noOverflow_ok _

theorem noOverflow_parseCurrency : NoOverflow (parseCurrency value) := by
  refine NoOverflow.bind parseText_ne_overflow fun s => ?_
  split_ifs
  · exact noOverflow_violate
  · exact noOverflow_ok _

theorem noOverflow_parseMoneyField {positive allowNegative : Bool} :
    NoOverflow (parseMoneyField value field positive allowNegative) := by
  unfold parseMoneyField
  split
  · exact noOverflow_violate
  · split_ifs
    · exact noOverflow_violate
    · exact noOverflow_ok _

theorem noOverflow_requireKeys {required optional : List Text} :
    NoOverflow (requireKeys payload required optional) := by
  unfold requireKeys
  simp only
  split_ifs
  · exact noOverflow_violate
  · exact noOverflow_violate
  · exact noOverflow_ok _

theorem noOverflow_parseAvailableOn {final : Bool} {requiredMessage absentMessage : Text} :
    NoOverflow (parseAvailableOn iso payload final requiredMessage absentMessage) := by
  unfold parseAvailableOn
  simp only
  split_ifs
  · exact .map noOverflow_parseDate
  · exact noOverflow_violate
  · exact noOverflow_violate
  · exact noOverflow_ok _

end

end Fields

/-! ## Row parsers -/

/-- A parser checks rules one after the other. -/
structure Follows (iso : IsoParsers) (payload : Payload) {α : Type} (rules : List Rule)
    (x : Except ParseError α) : Prop where
  ok : (∃ a, x = .ok a) ↔ ∀ rule ∈ rules, rule.Met iso payload
  overflow : x = .error .overflow ↔ OverflowsAt iso payload rules

section Follows

variable {iso : IsoParsers} {payload : Payload} {α β : Type}

theorem follows_ok (a : α) : Follows iso payload [] (.ok a) where
  ok := iff_of_true ⟨a, rfl⟩ nofun
  overflow := iff_of_false nofun id

/-- A parser that checks one rule, which is not about a timestamp. -/
theorem Follows.one {rule : Rule} {x : Except ParseError α} (hquiet : NoOverflow x)
    (hrule : ¬ rule.Overflows iso payload) (hok : (∃ a, x = .ok a) ↔ rule.Met iso payload) :
    Follows iso payload [rule] x where
  ok := by rw [hok, List.forall_mem_singleton]
  overflow := by
    refine iff_of_false hquiet ?_
    rintro (h | ⟨-, h⟩)
    · exact hrule h
    · exact h

theorem Follows.bind {rule : Rule} {rules : List Rule} {x : Except ParseError α}
    {f : α → Except ParseError β} (hx : Follows iso payload [rule] x)
    (hf : ∀ a, x = .ok a → Follows iso payload rules (f a)) :
    Follows iso payload (rule :: rules) (x >>= f) where
  ok := by
    have hmet : (∃ a, x = .ok a) ↔ rule.Met iso payload := by
      rw [hx.ok, List.forall_mem_singleton]
    rw [List.forall_mem_cons, ← hmet]
    constructor
    · rintro ⟨b, h⟩
      obtain ⟨a, ha, hb⟩ := bind_eq_ok.mp h
      exact ⟨⟨a, ha⟩, (hf a ha).ok.mp ⟨b, hb⟩⟩
    · rintro ⟨⟨a, ha⟩, h⟩
      obtain ⟨b, hb⟩ := (hf a ha).ok.mpr h
      exact ⟨b, bind_eq_ok.mpr ⟨a, ha, hb⟩⟩
  overflow := by
    have hfirst : x = .error .overflow ↔ rule.Overflows iso payload := by
      rw [hx.overflow, OverflowsAt, OverflowsAt, and_false, or_false]
    have hmet : (∃ a, x = .ok a) ↔ rule.Met iso payload := by
      rw [hx.ok, List.forall_mem_singleton]
    rw [bind_eq_error, OverflowsAt, hfirst, ← hmet]
    refine or_congr_right ?_
    constructor
    · rintro ⟨a, ha, h⟩
      exact ⟨⟨a, ha⟩, (hf a ha).overflow.mp h⟩
    · rintro ⟨⟨a, ha⟩, h⟩
      exact ⟨a, ha, (hf a ha).overflow.mpr h⟩

theorem Follows.map {rules : List Rule} {x : Except ParseError α} {f : α → β}
    (hx : Follows iso payload rules x) : Follows iso payload rules (f <$> x) := by
  cases x with
  | ok a => exact ⟨⟨fun _ => hx.ok.mp ⟨a, rfl⟩, fun _ => ⟨f a, rfl⟩⟩,
      iff_of_false nofun (hx.overflow.not.mp nofun)⟩
  | error e =>
    refine ⟨iff_of_false ?_ (hx.ok.not.mp ?_), ?_⟩
    · rintro ⟨b, h⟩
      cases h
    · rintro ⟨a, h⟩
      cases h
    · rw [← hx.overflow]
      exact ⟨fun h => congrArg Except.error (Except.error.inj h),
        fun h => congrArg Except.error (Except.error.inj h)⟩

theorem follows_requireKeys {required optional : List Text} :
    Follows iso payload [.keys required optional] (requireKeys payload required optional) := by
  refine Follows.one noOverflow_requireKeys nofun ?_
  have hmissing : (sortedSet (required.filter fun k => k ∉ payload.keys) ≠ []) ↔
      ¬ ∀ k ∈ required, k ∈ payload.keys := by
    rw [Ne, sortedSet_eq_nil, List.filter_eq_nil_iff]
    simp only [decide_eq_true_eq, not_not]
  have hunexpected : (sortedSet (payload.keys.filter fun k => k ∉ required ∧ k ∉ optional) ≠ []) ↔
      ¬ ∀ k ∈ payload.keys, k ∈ required ∨ k ∈ optional := by
    rw [Ne, sortedSet_eq_nil, List.filter_eq_nil_iff]
    simp only [decide_eq_true_eq, not_and_or, not_not]
  unfold requireKeys violate
  simp only [hmissing, hunexpected, Rule.Met, ite_not]
  split_ifs with hrequired hknown
  · exact iff_of_true ⟨(), rfl⟩ ⟨hrequired, hknown⟩
  · exact iff_of_false nofun fun h => hknown h.2
  · exact iff_of_false nofun fun h => hrequired h.1

theorem follows_parseText {field : Text} :
    Follows iso payload [.text field] (parseText (payload.field field) field) := by
  refine Follows.one parseText_ne_overflow nofun ?_
  simp only [parseText_eq_ok, Rule.Met]

theorem follows_parsePositiveInteger {field : Text} : Follows iso payload
    [.positiveInteger field] (parsePositiveInteger (payload.field field) field) := by
  refine Follows.one noOverflow_parsePositiveInteger nofun ?_
  simp only [parsePositiveInteger_eq_ok, Rule.Met]

theorem follows_parseEnum {members : List α} {memberValue : α → Text} {field : Text}
    (hinj : Function.Injective memberValue) : Follows iso payload
    [.oneOf (members.map memberValue) field]
    (parseEnum members memberValue (payload.field field) field) := by
  refine Follows.one noOverflow_parseEnum nofun ?_
  simp only [parseEnum_eq_ok hinj, Rule.Met, List.mem_map]
  constructor
  · rintro ⟨a, ha, hvalue, htrimmed⟩
    exact ⟨memberValue a, ⟨a, ha, rfl⟩, hvalue, htrimmed⟩
  · rintro ⟨s, ⟨a, ha, rfl⟩, hvalue, htrimmed⟩
    exact ⟨a, ha, hvalue, htrimmed⟩

theorem follows_parseTimestamp {field : Text} : Follows iso payload [.timestamp field]
    (parseTimestamp iso (payload.field field) field) where
  ok := by
    simp only [parseTimestamp_eq_ok, List.forall_mem_singleton]
    rfl
  overflow := by
    rw [parseTimestamp_overflow, OverflowsAt, OverflowsAt, and_false, or_false]
    rfl

theorem follows_parseDate {field : Text} : Follows iso payload [.date field]
    (parseDate iso (payload.field field) field) := by
  refine Follows.one noOverflow_parseDate nofun ?_
  simp only [parseDate_eq_ok, Rule.Met, DateAt]
  constructor
  · rintro ⟨d, s, hs, htrimmed, hd⟩
    exact ⟨s, hs, htrimmed, d, hd⟩
  · rintro ⟨s, hs, htrimmed, d, hd⟩
    exact ⟨d, s, hs, htrimmed, hd⟩

theorem follows_parseCurrency : Follows iso payload [.currency]
    (parseCurrency (payload.field (txt "currency"))) := by
  refine Follows.one noOverflow_parseCurrency nofun ?_
  simp only [parseCurrency_eq_ok, Rule.Met, exists_and_left, exists_eq, and_true]

theorem follows_parseMoneyField {field : Text} {positive allowNegative : Bool} :
    Follows iso payload [.money field positive allowNegative]
    (parseMoneyField (payload.field field) field positive allowNegative) := by
  refine Follows.one noOverflow_parseMoneyField nofun ?_
  simp only [parseMoneyField_eq_ok, Rule.Met, MoneyAt]
  exact exists_comm

/-- The final status of a movement decides whether it has a date. -/
theorem follows_parseAvailableOn {final : Text} {isFinal : Bool}
    {requiredMessage absentMessage : Text}
    (hfinal : isFinal = true ↔ payload.field (txt "status") = .str final) :
    Follows iso payload [.availableOn final]
    (parseAvailableOn iso payload isFinal requiredMessage absentMessage) := by
  refine Follows.one noOverflow_parseAvailableOn nofun ?_
  have hdate : (∃ d, some <$> parseDate iso (payload.field (txt "available_on"))
      (txt "available_on") = .ok d) ↔ DateAt iso payload (txt "available_on") := by
    have hparse : Follows iso payload [.date (txt "available_on")]
        (parseDate iso (payload.field (txt "available_on")) (txt "available_on")) :=
      follows_parseDate
    rw [hparse.map.ok, List.forall_mem_singleton]
    rfl
  unfold parseAvailableOn violate
  simp only [Rule.Met, ← hfinal, Ne]
  cases isFinal with
  | true =>
    simp only [if_true, true_implies, not_true, false_implies, and_true, ite_not]
    split_ifs with hkey
    · rw [hdate]
      exact (and_iff_right hkey).symm
    · exact iff_of_false nofun fun h => hkey h.1
  | false =>
    simp only [Bool.false_eq_true, if_false, false_implies, not_false_eq_true, true_implies,
      true_and]
    split_ifs with hkey
    · exact iff_of_false nofun (not_not.mpr hkey)
    · exact iff_of_true ⟨none, rfl⟩ hkey

/-! ## Rows -/

theorem follows_parseOrder :
    Follows iso payload (rowRules .order) (parseOrder iso payload) :=
  .bind follows_requireKeys fun _ _ => .bind follows_parseText fun _ _ =>
    .bind follows_parseTimestamp fun _ _ =>
    .bind (follows_parseEnum OrderStatus.value_injective) fun _ _ =>
    .bind follows_parseCurrency fun _ _ => .bind follows_parseMoneyField fun _ _ =>
    .bind follows_parsePositiveInteger fun _ _ => follows_ok _

theorem follows_parsePayment :
    Follows iso payload (rowRules .payment) (parsePayment iso payload) := by
  refine .bind follows_requireKeys fun _ _ =>
    .bind (follows_parseEnum PaymentStatus.value_injective) fun status hstatus => ?_
  obtain ⟨-, hstatus, -⟩ := (parseEnum_eq_ok PaymentStatus.value_injective).mp hstatus
  have hfinal : decide (status = .captured) = true ↔
      payload.field (txt "status") = .str PaymentStatus.captured.value := by
    rw [decide_eq_true_eq, hstatus, Json.str.injEq, PaymentStatus.value_injective.eq_iff]
  exact .bind (follows_parseAvailableOn hfinal) fun _ _ => .bind follows_parseText fun _ _ =>
    .bind follows_parseText fun _ _ => .bind follows_parsePositiveInteger fun _ _ =>
    .bind (follows_parseEnum PaymentMethod.value_injective) fun _ _ =>
    .bind follows_parseMoneyField fun _ _ => .bind follows_parseCurrency fun _ _ =>
    .bind follows_parseTimestamp fun _ _ => .bind follows_parsePositiveInteger fun _ _ =>
    follows_ok _

theorem follows_parseRefund :
    Follows iso payload (rowRules .refund) (parseRefund iso payload) := by
  refine .bind follows_requireKeys fun _ _ =>
    .bind (follows_parseEnum RefundStatus.value_injective) fun status hstatus => ?_
  obtain ⟨-, hstatus, -⟩ := (parseEnum_eq_ok RefundStatus.value_injective).mp hstatus
  have hfinal : decide (status = .succeeded) = true ↔
      payload.field (txt "status") = .str RefundStatus.succeeded.value := by
    rw [decide_eq_true_eq, hstatus, Json.str.injEq, RefundStatus.value_injective.eq_iff]
  exact .bind (follows_parseAvailableOn hfinal) fun _ _ => .bind follows_parseText fun _ _ =>
    .bind follows_parseText fun _ _ => .bind follows_parseMoneyField fun _ _ =>
    .bind follows_parseCurrency fun _ _ => .bind follows_parseTimestamp fun _ _ =>
    .bind follows_parsePositiveInteger fun _ _ => follows_ok _

theorem follows_parseFee : Follows iso payload (rowRules .fee) (parseFee iso payload) :=
  .bind follows_requireKeys fun _ _ => .bind follows_parseText fun _ _ =>
    .bind follows_parseText fun _ _ => .bind (follows_parseEnum FeeType.value_injective) fun _ _ =>
    .bind follows_parseMoneyField fun _ _ => .bind follows_parseCurrency fun _ _ =>
    .bind follows_parseTimestamp fun _ _ => .bind follows_parseDate fun _ _ =>
    .bind follows_parsePositiveInteger fun _ _ => follows_ok _

theorem follows_parsePayout : Follows iso payload (rowRules .payout) (parsePayout iso payload) :=
  .bind follows_requireKeys fun _ _ => .bind follows_parseText fun _ _ =>
    .bind follows_parseDate fun _ _ => .bind follows_parseCurrency fun _ _ =>
    .bind follows_parseMoneyField fun _ _ => .bind follows_parsePositiveInteger fun _ _ =>
    follows_ok _

/-- A rule that is met changes nothing. -/
theorem Follows.pass {rule : Rule} {rules : List Rule} {x : Except ParseError α}
    (hrule : ¬ rule.Overflows iso payload) (hmet : rule.Met iso payload)
    (hx : Follows iso payload rules x) : Follows iso payload (rule :: rules) x := by
  have hok : Follows iso payload [rule] (.ok () : Except ParseError Unit) :=
    Follows.one (noOverflow_ok _) hrule (iff_of_true ⟨(), rfl⟩ hmet)
  exact hok.bind fun _ _ => hx

/-- A rule that is broken ends the parser. -/
theorem Follows.stop {rule : Rule} {rules : List Rule} {message code : Text} {field : Option Text}
    {f : β → Except ParseError α} (hrule : ¬ rule.Overflows iso payload)
    (hbroken : ¬ rule.Met iso payload) :
    Follows iso payload (rule :: rules) (violate message code field >>= f) := by
  have hviolate : Follows iso payload [rule] (violate message code field : Except ParseError β) :=
    Follows.one noOverflow_violate hrule (iff_of_false nofun hbroken)
  exact hviolate.bind nofun

/-- The part of `parse_settlement_line` after the check of the sign. -/
def settlementLineTail (payload : Payload) (movementType : MovementType) (signedAmount : ℤ) :
    Except ParseError SettlementLine := do
  let settlementLineId ← parseText (payload.field (txt "settlement_line_id"))
    (txt "settlement_line_id")
  let payoutId ← parseText (payload.field (txt "payout_id")) (txt "payout_id")
  let movementId ← parseText (payload.field (txt "movement_id")) (txt "movement_id")
  let currency ← parseCurrency (payload.field (txt "currency"))
  let sourceVersion ← parsePositiveInteger (payload.field (txt "source_version"))
    (txt "source_version")
  .ok { sourceVersion, settlementLineId, payoutId, movementType, movementId, signedAmount,
        currency }

theorem follows_parseSettlementLine :
    Follows iso payload (rowRules .settlementLine) (parseSettlementLine payload) := by
  refine .bind follows_requireKeys fun _ _ =>
    .bind (follows_parseEnum MovementType.value_injective) fun movementType hmovementType =>
    .bind follows_parseMoneyField fun signedAmount hsignedAmount => ?_
  obtain ⟨-, hmovementType, -⟩ := (parseEnum_eq_ok MovementType.value_injective).mp hmovementType
  obtain ⟨s, hs, hpattern, -⟩ := parseMoneyField_eq_ok.mp hsignedAmount
  have hcapture : payload.field (txt "movement_type") = .str MovementType.capture.value ↔
      movementType = .capture := by
    rw [hmovementType, Json.str.injEq, MovementType.value_injective.eq_iff]
  have hsign : Rule.sign.Met iso payload ↔
      (movementType = .capture → 0 < signedAmount) ∧
      (movementType ≠ .capture → signedAmount < 0) := by
    simp only [Rule.Met, hs, Json.str.injEq, Ne, hcapture]
    constructor
    · rintro ⟨_, amount, rfl, hamount, hagrees⟩
      obtain rfl := Option.some.inj (hpattern.symm.trans hamount)
      exact hagrees
    · exact fun hagrees => ⟨s, signedAmount, rfl, hpattern, hagrees⟩
  have hrest : Follows iso payload
      [.text (txt "settlement_line_id"), .text (txt "payout_id"), .text (txt "movement_id"),
        .currency, .positiveInteger (txt "source_version")]
      (settlementLineTail payload movementType signedAmount) :=
    .bind follows_parseText fun _ _ => .bind follows_parseText fun _ _ =>
      .bind follows_parseText fun _ _ => .bind follows_parseCurrency fun _ _ =>
      .bind follows_parsePositiveInteger fun _ _ => follows_ok _
  split_ifs with htype hamount hamount
  · exact Follows.stop nofun fun h => by have := (hsign.mp h).1 htype; omega
  · exact Follows.pass nofun (hsign.mpr ⟨fun _ => by omega, fun h => absurd htype h⟩) hrest
  · exact Follows.stop nofun fun h => by have := (hsign.mp h).2 htype; omega
  · exact Follows.pass nofun (hsign.mpr ⟨fun h => absurd h htype, fun _ => by omega⟩) hrest

/-- The parser of a row follows its contract. -/
theorem follows_recordParser (entityType : EntityType) :
    Follows iso payload (rowRules entityType) (recordParser iso payload entityType) := by
  cases entityType
  · exact .map follows_parseOrder
  · exact .map follows_parsePayment
  · exact .map follows_parseRefund
  · exact .map follows_parseFee
  · exact .map follows_parseSettlementLine
  · exact .map follows_parsePayout

end Follows

/-! ## Identifiers -/

section Identifiers

variable {iso : IsoParsers} {payload : Payload}

theorem recordIds_of_settlementLineTail {movementType : MovementType} {signedAmount : ℤ}
    {r : SettlementLine} (h : settlementLineTail payload movementType signedAmount = .ok r) :
    (textFields .settlementLine).map payload.field =
      (recordIds (.settlementLine r)).map .str ∧ r.currency = eur := by
  simp only [settlementLineTail, bind_eq_ok, parseText_eq_ok, parseCurrency_eq_ok] at h
  obtain ⟨lineId, ⟨hlineId, -⟩, payoutId, ⟨hpayoutId, -⟩, movementId, ⟨hmovementId, -⟩, _,
    ⟨-, rfl⟩, _, -, h⟩ := h
  obtain rfl := Except.ok.inj h
  refine ⟨?_, rfl⟩
  show [payload.field (txt "settlement_line_id"), payload.field (txt "payout_id"),
    payload.field (txt "movement_id")] = [.str lineId, .str payoutId, .str movementId]
  rw [hlineId, hpayoutId, hmovementId]

/-- A record keeps the texts of its row, and its currency is EUR. -/
theorem recordIds_of_recordParser {entityType : EntityType} {record : FinancialRecord}
    (h : recordParser iso payload entityType = .ok record) :
    (textFields entityType).map payload.field = (recordIds record).map .str ∧
      recordCurrency record = eur := by
  cases entityType with
  | order =>
    obtain ⟨r, hr, rfl⟩ := map_eq_ok.mp h
    simp only [parseOrder, bind_eq_ok, parseText_eq_ok, parseCurrency_eq_ok] at hr
    obtain ⟨-, -, orderId, ⟨horderId, -⟩, _, -, _, -, _, ⟨-, rfl⟩, _, -, _, -, hr⟩ := hr
    obtain rfl := Except.ok.inj hr
    exact ⟨congrArg (fun j => [j]) horderId, rfl⟩
  | payment =>
    obtain ⟨r, hr, rfl⟩ := map_eq_ok.mp h
    simp only [parsePayment, bind_eq_ok, parseText_eq_ok, parseCurrency_eq_ok] at hr
    obtain ⟨-, -, _, -, _, -, paymentId, ⟨hpaymentId, -⟩, orderId, ⟨horderId, -⟩, _, -, _, -, _, -,
      _, ⟨-, rfl⟩, _, -, _, -, hr⟩ := hr
    obtain rfl := Except.ok.inj hr
    exact ⟨congrArg₂ (fun i j => [i, j]) hpaymentId horderId, rfl⟩
  | refund =>
    obtain ⟨r, hr, rfl⟩ := map_eq_ok.mp h
    simp only [parseRefund, bind_eq_ok, parseText_eq_ok, parseCurrency_eq_ok] at hr
    obtain ⟨-, -, _, -, _, -, refundId, ⟨hrefundId, -⟩, paymentId, ⟨hpaymentId, -⟩, _, -,
      _, ⟨-, rfl⟩, _, -, _, -, hr⟩ := hr
    obtain rfl := Except.ok.inj hr
    exact ⟨congrArg₂ (fun i j => [i, j]) hrefundId hpaymentId, rfl⟩
  | fee =>
    obtain ⟨r, hr, rfl⟩ := map_eq_ok.mp h
    simp only [parseFee, bind_eq_ok, parseText_eq_ok, parseCurrency_eq_ok] at hr
    obtain ⟨-, -, feeId, ⟨hfeeId, -⟩, paymentId, ⟨hpaymentId, -⟩, _, -, _, -, _, ⟨-, rfl⟩, _, -,
      _, -, _, -, hr⟩ := hr
    obtain rfl := Except.ok.inj hr
    exact ⟨congrArg₂ (fun i j => [i, j]) hfeeId hpaymentId, rfl⟩
  | settlementLine =>
    obtain ⟨r, hr, rfl⟩ := map_eq_ok.mp h
    simp only [parseSettlementLine, bind_eq_ok] at hr
    obtain ⟨-, -, movementType, -, signedAmount, -, hr⟩ := hr
    split_ifs at hr
    · obtain ⟨_, hviolate, -⟩ := bind_eq_ok.mp hr
      cases hviolate
    · exact recordIds_of_settlementLineTail hr
    · obtain ⟨_, hviolate, -⟩ := bind_eq_ok.mp hr
      cases hviolate
    · exact recordIds_of_settlementLineTail hr
  | payout =>
    obtain ⟨r, hr, rfl⟩ := map_eq_ok.mp h
    simp only [parsePayout, bind_eq_ok, parseText_eq_ok, parseCurrency_eq_ok] at hr
    obtain ⟨-, -, payoutId, ⟨hpayoutId, -⟩, _, -, _, ⟨-, rfl⟩, _, -, _, -, hr⟩ := hr
    obtain rfl := Except.ok.inj hr
    exact ⟨congrArg (fun j => [j]) hpayoutId, rfl⟩

end Identifiers

end Threadline
