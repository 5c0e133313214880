import Threadline.Contracts
import Threadline.PyJson

/-!
# Payload hashing

The normalized payload of a record and its SHA-256 hash. The payload text
determines the record.
-/

open PyText PyJson PyCalendar

namespace Threadline

def jsonText (s : Text) : Json := .str s

def jsonInt (n : ℤ) : Json := .num (.int n)

/-- `_json_value` of a timestamp. -/
def jsonTimestamp (t : UtcDateTime) : Json := .str t.isoformatZ

def jsonDate (d : Date) : Json := .str d.isoformat

/-- `_json_value` of a finite Decimal. -/
def jsonMoney (m : ℤ) : Json := .str (moneyText m)

def jsonOption {α : Type*} (f : α → Json) : Option α → Json
  | none => .null
  | some a => f a

/-- The members of `canonical_record_dict`. -/
def canonicalRecordMembers : FinancialRecord → List (Text × Json)
  | .order r =>
    [(txt "source_version", jsonInt r.sourceVersion),
     (txt "order_id", jsonText r.orderId),
     (txt "created_at_utc", jsonTimestamp r.createdAtUtc),
     (txt "status", jsonText r.status.value),
     (txt "currency", jsonText r.currency),
     (txt "order_total", jsonMoney r.orderTotal),
     (txt "_source_system", jsonText SourceSystem.threadlineShop.value),
     (txt "_entity_type", jsonText EntityType.order.value)]
  | .payment r =>
    [(txt "source_version", jsonInt r.sourceVersion),
     (txt "payment_id", jsonText r.paymentId),
     (txt "order_id", jsonText r.orderId),
     (txt "attempt_number", jsonInt r.attemptNumber),
     (txt "payment_method", jsonText r.paymentMethod.value),
     (txt "status", jsonText r.status.value),
     (txt "amount", jsonMoney r.amount),
     (txt "currency", jsonText r.currency),
     (txt "effective_at_utc", jsonTimestamp r.effectiveAtUtc),
     (txt "available_on", jsonOption jsonDate r.availableOn),
     (txt "_source_system", jsonText SourceSystem.mockpay.value),
     (txt "_entity_type", jsonText EntityType.payment.value)]
  | .refund r =>
    [(txt "source_version", jsonInt r.sourceVersion),
     (txt "refund_id", jsonText r.refundId),
     (txt "payment_id", jsonText r.paymentId),
     (txt "status", jsonText r.status.value),
     (txt "amount", jsonMoney r.amount),
     (txt "currency", jsonText r.currency),
     (txt "effective_at_utc", jsonTimestamp r.effectiveAtUtc),
     (txt "available_on", jsonOption jsonDate r.availableOn),
     (txt "_source_system", jsonText SourceSystem.mockpay.value),
     (txt "_entity_type", jsonText EntityType.refund.value)]
  | .fee r =>
    [(txt "source_version", jsonInt r.sourceVersion),
     (txt "fee_id", jsonText r.feeId),
     (txt "payment_id", jsonText r.paymentId),
     (txt "fee_type", jsonText r.feeType.value),
     (txt "amount", jsonMoney r.amount),
     (txt "currency", jsonText r.currency),
     (txt "effective_at_utc", jsonTimestamp r.effectiveAtUtc),
     (txt "available_on", jsonDate r.availableOn),
     (txt "_source_system", jsonText SourceSystem.mockpay.value),
     (txt "_entity_type", jsonText EntityType.fee.value)]
  | .settlementLine r =>
    [(txt "source_version", jsonInt r.sourceVersion),
     (txt "settlement_line_id", jsonText r.settlementLineId),
     (txt "payout_id", jsonText r.payoutId),
     (txt "movement_type", jsonText r.movementType.value),
     (txt "movement_id", jsonText r.movementId),
     (txt "signed_amount", jsonMoney r.signedAmount),
     (txt "currency", jsonText r.currency),
     (txt "_source_system", jsonText SourceSystem.mockpay.value),
     (txt "_entity_type", jsonText EntityType.settlementLine.value)]
  | .payout r =>
    [(txt "source_version", jsonInt r.sourceVersion),
     (txt "payout_id", jsonText r.payoutId),
     (txt "payout_date", jsonDate r.payoutDate),
     (txt "currency", jsonText r.currency),
     (txt "reported_net_amount", jsonMoney r.reportedNetAmount),
     (txt "_source_system", jsonText SourceSystem.mockpay.value),
     (txt "_entity_type", jsonText EntityType.payout.value)]

/-- The normalized business payload used for hashing. -/
def canonicalRecordDict (r : FinancialRecord) : Json := .obj (canonicalRecordMembers r)

/-- The stable JSON text of a record, which holds no number that JSON lacks. -/
def canonicalRecordJson (r : FinancialRecord) : Text := render (canon (canonicalRecordDict r))

/-- The UTF-8 bytes under the hash; a surrogate in a text field has none. -/
def canonicalRecordBytes (r : FinancialRecord) : Option Bytes := encodeUtf8 (canonicalRecordJson r)

/-- `calculate_payload_hash` for a hash function with hexadecimal digests. -/
def calculatePayloadHash (sha256 : Bytes → Text) (r : FinancialRecord) : Option Text :=
  (canonicalRecordBytes r).map sha256

/-! ## The payload text determines the record -/

def recordKeys : EntityType → List Text
  | .order => [txt "source_version", txt "order_id", txt "created_at_utc", txt "status",
      txt "currency", txt "order_total", txt "_source_system", txt "_entity_type"]
  | .payment => [txt "source_version", txt "payment_id", txt "order_id", txt "attempt_number",
      txt "payment_method", txt "status", txt "amount", txt "currency", txt "effective_at_utc",
      txt "available_on", txt "_source_system", txt "_entity_type"]
  | .refund => [txt "source_version", txt "refund_id", txt "payment_id", txt "status",
      txt "amount", txt "currency", txt "effective_at_utc", txt "available_on",
      txt "_source_system", txt "_entity_type"]
  | .fee => [txt "source_version", txt "fee_id", txt "payment_id", txt "fee_type", txt "amount",
      txt "currency", txt "effective_at_utc", txt "available_on", txt "_source_system",
      txt "_entity_type"]
  | .settlementLine => [txt "source_version", txt "settlement_line_id", txt "payout_id",
      txt "movement_type", txt "movement_id", txt "signed_amount", txt "currency",
      txt "_source_system", txt "_entity_type"]
  | .payout => [txt "source_version", txt "payout_id", txt "payout_date", txt "currency",
      txt "reported_net_amount", txt "_source_system", txt "_entity_type"]

theorem canonicalRecordMembers_keys (r : FinancialRecord) :
    (canonicalRecordMembers r).map Prod.fst = recordKeys r.entityType := by
  cases r <;> rfl

theorem recordKeys_nodup (t : EntityType) : (recordKeys t).Nodup := by
  cases t <;> decide

theorem canon_entityType_mem (r : FinancialRecord) :
    (txt "_entity_type", Json.str r.entityType.value) ∈
      canonMembers (canonicalRecordMembers r) := by
  cases r <;> simp [canonicalRecordMembers, canonMembers, canon, jsonText,
    FinancialRecord.entityType]

/-- Equal canonical payloads are payloads of one entity type. -/
theorem entityType_eq_of_canon {a b : FinancialRecord}
    (h : canon (canonicalRecordDict a) = canon (canonicalRecordDict b)) :
    a.entityType = b.entityType := by
  have hb := canon_entityType_mem b
  rw [canonicalRecordDict, canonicalRecordDict, canon, canon] at h
  have hmem : (txt "_entity_type", Json.str a.entityType.value) ∈
      canonMembers (canonicalRecordMembers b) := by
    have ha := (PySorted.mem_sortedBy Prod.fst).mpr (canon_entityType_mem a)
    rw [Json.obj.inj h] at ha
    exact (PySorted.mem_sortedBy Prod.fst).mp ha
  have hn : ((canonMembers (canonicalRecordMembers b)).map Prod.fst).Nodup := by
    rw [canonMembers_eq_map, List.map_map]
    exact (canonicalRecordMembers_keys b).symm ▸ recordKeys_nodup b.entityType
  have he := List.inj_on_of_nodup_map hn hmem hb rfl
  exact EntityType.value_injective (Json.str.inj (Prod.mk.inj he).2)

@[simp] theorem canon_jsonInt_inj {a b : ℤ} : canon (jsonInt a) = canon (jsonInt b) ↔ a = b := by
  simp [jsonInt, canon]

@[simp] theorem canon_jsonText_inj {a b : Text} :
    canon (jsonText a) = canon (jsonText b) ↔ a = b := by
  simp [jsonText, canon]

@[simp] theorem canon_jsonTimestamp_inj {a b : UtcDateTime} :
    canon (jsonTimestamp a) = canon (jsonTimestamp b) ↔ a = b := by
  simp [jsonTimestamp, canon, UtcDateTime.isoformatZ_injective.eq_iff]

@[simp] theorem canon_jsonDate_inj {a b : Date} :
    canon (jsonDate a) = canon (jsonDate b) ↔ a = b := by
  simp [jsonDate, canon, Date.isoformat_injective.eq_iff]

@[simp] theorem canon_jsonMoney_inj {a b : ℤ} :
    canon (jsonMoney a) = canon (jsonMoney b) ↔ a = b := by
  simp [jsonMoney, canon, moneyText_injective.eq_iff]

@[simp] theorem canon_jsonOption_date_inj {a b : Option Date} :
    canon (jsonOption jsonDate a) = canon (jsonOption jsonDate b) ↔ a = b := by
  cases a <;> cases b <;> simp [jsonOption, jsonDate, canon, Date.isoformat_injective.eq_iff]

/-- Records with one canonical payload are equal. -/
theorem canonicalRecordDict_injective {a b : FinancialRecord}
    (h : canon (canonicalRecordDict a) = canon (canonicalRecordDict b)) : a = b := by
  have ht := entityType_eq_of_canon h
  have hk : (canonicalRecordMembers a).map Prod.fst = (canonicalRecordMembers b).map Prod.fst := by
    rw [canonicalRecordMembers_keys, canonicalRecordMembers_keys, ht]
  have hn : ((canonicalRecordMembers a).map Prod.fst).Nodup := by
    rw [canonicalRecordMembers_keys]
    exact recordKeys_nodup _
  have hm := canonMembers_eq_of_canon hk hn h
  cases a with
  | order r =>
    cases b with
    | order r' =>
      obtain ⟨_, _, _, _, _, _⟩ := r
      obtain ⟨_, _, _, _, _, _⟩ := r'
      simpa [canonicalRecordMembers, canonMembers, OrderStatus.value_injective.eq_iff] using hm
    | _ => cases ht
  | payment r =>
    cases b with
    | payment r' =>
      obtain ⟨_, _, _, _, _, _, _, _, _, _⟩ := r
      obtain ⟨_, _, _, _, _, _, _, _, _, _⟩ := r'
      simpa [canonicalRecordMembers, canonMembers, PaymentStatus.value_injective.eq_iff,
        PaymentMethod.value_injective.eq_iff] using hm
    | _ => cases ht
  | refund r =>
    cases b with
    | refund r' =>
      obtain ⟨_, _, _, _, _, _, _, _⟩ := r
      obtain ⟨_, _, _, _, _, _, _, _⟩ := r'
      simpa [canonicalRecordMembers, canonMembers, RefundStatus.value_injective.eq_iff] using hm
    | _ => cases ht
  | fee r =>
    cases b with
    | fee r' =>
      obtain ⟨_, _, _, _, _, _, _, _⟩ := r
      obtain ⟨_, _, _, _, _, _, _, _⟩ := r'
      simpa [canonicalRecordMembers, canonMembers, FeeType.value_injective.eq_iff] using hm
    | _ => cases ht
  | settlementLine r =>
    cases b with
    | settlementLine r' =>
      obtain ⟨_, _, _, _, _, _, _⟩ := r
      obtain ⟨_, _, _, _, _, _, _⟩ := r'
      simpa [canonicalRecordMembers, canonMembers, MovementType.value_injective.eq_iff] using hm
    | _ => cases ht
  | payout r =>
    cases b with
    | payout r' =>
      obtain ⟨_, _, _, _, _⟩ := r
      obtain ⟨_, _, _, _, _⟩ := r'
      simpa [canonicalRecordMembers, canonMembers] using hm
    | _ => cases ht

theorem canonicalRecordBytes_injective {a b : FinancialRecord} {bytes : Bytes}
    (ha : canonicalRecordBytes a = some bytes) (hb : canonicalRecordBytes b = some bytes) :
    a = b := by
  have ht : canonicalRecordJson a = canonicalRecordJson b := encodeUtf8_injective ha hb
  exact canonicalRecordDict_injective (render_injective ht)

end Threadline
