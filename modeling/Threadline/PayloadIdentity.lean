import Threadline.ArrivalOrder
import Threadline.RowContract

/-!
# The identity of payloads

Two rows are one observation when their parsed records are equal, with
timestamps compared as instants. The canonical JSON and the payload hash of a
record tell exactly these apart.
-/

open PyText PyCalendar PyJson PySorted PyExcept

namespace Threadline

/-! ## One record in two notations -/

/-- The fields whose texts are read as instants. -/
def timestampFields (entityType : EntityType) : List Text :=
  (rowRules entityType).filterMap fun
    | .timestamp field => some field
    | _ => none

/-- Payloads that differ at most in the order of their keys and in the offsets of timestamps. -/
structure SamePayload (iso : IsoParsers) (entityType : EntityType) (p q : Payload) : Prop where
  keys : ∀ k, k ∈ p.keys ↔ k ∈ q.keys
  fields : ∀ k ∉ timestampFields entityType, p.field k = q.field k
  timestamps : ∀ k ∈ timestampFields entityType,
    ∃ instant, TimestampAt iso p k (some instant) ∧ TimestampAt iso q k (some instant)

section Notation

variable {iso : IsoParsers} {p q : Payload} {entityType : EntityType}

theorem requireKeys_congr (h : ∀ k, k ∈ p.keys ↔ k ∈ q.keys) (required optional : List Text) :
    requireKeys p required optional = requireKeys q required optional := by
  have hmissing : sortedSet (required.filter fun k => k ∉ p.keys) =
      sortedSet (required.filter fun k => k ∉ q.keys) := by
    simp only [h]
  have hunexpected : sortedSet (p.keys.filter fun k => k ∉ required ∧ k ∉ optional) =
      sortedSet (q.keys.filter fun k => k ∉ required ∧ k ∉ optional) := by
    apply sortedSet_eq_of_mem
    intro k
    simp only [List.mem_filter, h]
  unfold requireKeys
  rw [hmissing, hunexpected]

theorem parseTimestamp_of_timestampAt {k : Text} {instant : UtcDateTime}
    (h : TimestampAt iso p k (some instant)) :
    parseTimestamp iso (p.field k) k = .ok instant := parseTimestamp_eq_ok.mpr h

theorem SamePayload.timestamp_eq (h : SamePayload iso entityType p q) {k : Text}
    (hk : k ∈ timestampFields entityType) :
    parseTimestamp iso (p.field k) k = parseTimestamp iso (q.field k) k := by
  obtain ⟨instant, hp, hq⟩ := h.timestamps k hk
  rw [parseTimestamp_of_timestampAt hp, parseTimestamp_of_timestampAt hq]

theorem SamePayload.availableOn_eq (h : SamePayload iso entityType p q)
    (hk : txt "available_on" ∉ timestampFields entityType) (final : Bool)
    (requiredMessage absentMessage : Text) :
    parseAvailableOn iso p final requiredMessage absentMessage =
      parseAvailableOn iso q final requiredMessage absentMessage := by
  unfold parseAvailableOn
  simp only [h.keys, h.fields _ hk]

/-- Rows that differ only in notation parse alike. -/
theorem SamePayload.recordParser_eq (h : SamePayload iso entityType p q) :
    recordParser iso p entityType = recordParser iso q entityType := by
  have hkeys := fun required optional => requireKeys_congr h.keys required optional
  have hfield : ∀ k, (k ∉ timestampFields entityType) → p.field k = q.field k := h.fields
  cases entityType with
  | order =>
    have hcreated := h.timestamp_eq (k := txt "created_at_utc") (by decide)
    simp only [recordParser, parseOrder, hkeys, hcreated, hfield (txt "order_id") (by decide),
      hfield (txt "status") (by decide), hfield (txt "currency") (by decide),
      hfield (txt "order_total") (by decide), hfield (txt "source_version") (by decide)]
  | payment =>
    have heffective := h.timestamp_eq (k := txt "effective_at_utc") (by decide)
    simp only [recordParser, parsePayment, hkeys, heffective, h.availableOn_eq (by decide),
      hfield (txt "payment_id") (by decide), hfield (txt "order_id") (by decide),
      hfield (txt "attempt_number") (by decide), hfield (txt "payment_method") (by decide),
      hfield (txt "status") (by decide), hfield (txt "amount") (by decide),
      hfield (txt "currency") (by decide), hfield (txt "source_version") (by decide)]
  | refund =>
    have heffective := h.timestamp_eq (k := txt "effective_at_utc") (by decide)
    simp only [recordParser, parseRefund, hkeys, heffective, h.availableOn_eq (by decide),
      hfield (txt "refund_id") (by decide), hfield (txt "payment_id") (by decide),
      hfield (txt "status") (by decide), hfield (txt "amount") (by decide),
      hfield (txt "currency") (by decide), hfield (txt "source_version") (by decide)]
  | fee =>
    have heffective := h.timestamp_eq (k := txt "effective_at_utc") (by decide)
    simp only [recordParser, parseFee, hkeys, heffective, hfield (txt "fee_id") (by decide),
      hfield (txt "payment_id") (by decide), hfield (txt "fee_type") (by decide),
      hfield (txt "amount") (by decide), hfield (txt "currency") (by decide),
      hfield (txt "available_on") (by decide), hfield (txt "source_version") (by decide)]
  | settlementLine =>
    simp only [recordParser, parseSettlementLine, hkeys,
      hfield (txt "settlement_line_id") (by decide), hfield (txt "payout_id") (by decide),
      hfield (txt "movement_type") (by decide), hfield (txt "movement_id") (by decide),
      hfield (txt "signed_amount") (by decide), hfield (txt "currency") (by decide),
      hfield (txt "source_version") (by decide)]
  | payout =>
    simp only [recordParser, parsePayout, hkeys, hfield (txt "payout_id") (by decide),
      hfield (txt "payout_date") (by decide), hfield (txt "currency") (by decide),
      hfield (txt "reported_net_amount") (by decide), hfield (txt "source_version") (by decide)]

theorem parseSourceRecord_of_text {name : EntityName} (h : name.text = entityType.value) :
    parseSourceRecord iso p name = recordParser iso p entityType := by
  cases name with
  | member t => rw [EntityType.value_injective (show t.value = entityType.value from h)]; rfl
  | name text =>
    rw [parseSourceRecord, show text = entityType.value from h]
    cases entityType <;> rfl

end Notation

/-! ## One text for each record -/

section Hash

variable {sha256 : Bytes → Text} {a b : FinancialRecord}

theorem canonicalRecordJson_inj : canonicalRecordJson a = canonicalRecordJson b ↔ a = b :=
  ⟨fun h => canonicalRecordDict_injective (render_injective h), fun h => h ▸ rfl⟩

/-- No collision among the payloads of two records. -/
def Collisionless (sha256 : Bytes → Text) (a b : FinancialRecord) : Prop :=
  ∀ x y, canonicalRecordBytes a = some x → canonicalRecordBytes b = some y →
    sha256 x = sha256 y → x = y

theorem calculatePayloadHash_eq_iff (h : Collisionless sha256 a b) {hash : Text}
    (ha : calculatePayloadHash sha256 a = some hash) :
    calculatePayloadHash sha256 b = some hash ↔ a = b := by
  constructor
  · intro hb
    obtain ⟨x, hx, hxa⟩ := Option.map_eq_some_iff.mp ha
    obtain ⟨y, hy, hyb⟩ := Option.map_eq_some_iff.mp hb
    have hxy := h x y hx hy (hxa.trans hyb.symm)
    exact canonicalRecordBytes_injective hx (hxy ▸ hy)
  · intro hab
    exact hab ▸ ha

end Hash

/-! ## Duplicates and conflicts -/

section Receipts

variable {sha256 : Bytes → Text} {envelopes : List (RecordEnvelope sha256)}
  {result : CanonicalizationResult} {e f : RecordEnvelope sha256}

/-- How a receipt is classified beside another of its identity and version. -/
structure ClassifiedBeside (envelopes : List (RecordEnvelope sha256))
    (result : CanonicalizationResult) (e f : RecordEnvelope sha256) : Prop where
  duplicate : e.record = f.record → f.receiptId < e.receiptId → ∃ v ∈ result.evidence,
    v.receiptId = e.receiptId ∧ (v.disposition = .duplicate ∨
      v.disposition = .stale ∧ Superseded envelopes e ∨
      v.disposition = .conflicted ∧ ∃ g ∈ envelopes, g.identity = e.identity ∧
        g.sourceVersion = e.sourceVersion ∧ g.record ≠ e.record)
  conflict : e.record ≠ f.record → ∃ v ∈ result.evidence, v.receiptId = e.receiptId ∧
    (v.disposition = .conflicted ∨ v.disposition = .stale ∧ Superseded envelopes e)

theorem payloadHash_eq_iff (hinj : Set.InjOn sha256
    {bytes | ∃ e ∈ envelopes, canonicalRecordBytes e.record = some bytes}) (he : e ∈ envelopes)
    (hf : f ∈ envelopes) : e.payloadHash = f.payloadHash ↔ e.record = f.record := by
  constructor
  · apply RecordEnvelope.record_eq_of_payloadHash hinj
    · exact fun bytes hbytes => ⟨e, he, hbytes⟩
    · exact fun bytes hbytes => ⟨f, hf, hbytes⟩
  · intro h
    have hhash := e.payloadHash_eq
    rw [h, f.payloadHash_eq] at hhash
    exact (Option.some.inj hhash).symm

theorem classifiedBeside (hinj : Set.InjOn sha256
    {bytes | ∃ e ∈ envelopes, canonicalRecordBytes e.record = some bytes})
    (h : Canonicalizes envelopes result) (he : e ∈ envelopes) (hf : f ∈ envelopes)
    (hidentity : f.identity = e.identity) (hversion : f.sourceVersion = e.sourceVersion) :
    ClassifiedBeside envelopes result e f := by
  obtain ⟨v, hv, hid⟩ := List.mem_map.mp ((h.mem_ids e.receiptId).mpr (List.mem_map_of_mem he))
  have hcontradicted : Contradicted envelopes e ↔ ¬ Superseded envelopes e ∧
      ∃ g ∈ envelopes, g.identity = e.identity ∧ g.sourceVersion = e.sourceVersion ∧
        g.record ≠ e.record := by
    unfold Contradicted
    refine and_congr_right fun _ => exists_congr fun g => and_congr_right fun hg => ?_
    rw [Ne, Ne, payloadHash_eq_iff hinj hg he]
  by_cases hsuperseded : Superseded envelopes e
  · have hstale := (h.stale_iff e he v hv hid).mpr hsuperseded
    exact ⟨fun _ _ => ⟨v, hv, hid, .inr (.inl ⟨hstale, hsuperseded⟩)⟩,
      fun _ => ⟨v, hv, hid, .inr ⟨hstale, hsuperseded⟩⟩⟩
  constructor
  · intro hrecord hlt
    refine ⟨v, hv, hid, ?_⟩
    by_cases hother : Contradicted envelopes e
    · exact .inr (.inr ⟨(h.conflicted_iff e he v hv hid).mpr hother, (hcontradicted.mp hother).2⟩)
    · -- The receipt of the same record has a smaller ID.
      have hfirst : ¬ HasFirstId envelopes e := fun hfirst =>
        absurd (hfirst f hf hidentity hversion) (not_le_of_gt hlt)
      exact .inl ((h.duplicate_iff e he v hv hid).mpr ⟨hsuperseded, hother, hfirst⟩)
  · intro hrecord
    have hother := hcontradicted.mpr ⟨hsuperseded, f, hf, hidentity, hversion, Ne.symm hrecord⟩
    exact ⟨v, hv, hid, .inl ((h.conflicted_iff e he v hv hid).mpr hother)⟩

end Receipts

/-- The identity of payloads. The canonical JSON of accepted rows, and their hashes, are equal
exactly when the records are. Rows that differ in notation have one record. Receipts of one record
are duplicates, and receipts of two records at one version are in conflict. -/
theorem payload_identity (iso : IsoParsers) (sha256 : Bytes → Text) :
    (∀ name p q a b, parseSourceRecord iso p name = .ok a → parseSourceRecord iso q name = .ok b →
      (canonicalRecordJson a = canonicalRecordJson b ↔ a = b) ∧
      ∀ hash, Collisionless sha256 a b → calculatePayloadHash sha256 a = some hash →
        (calculatePayloadHash sha256 b = some hash ↔ a = b)) ∧
    (∀ (name : EntityName) (entityType : EntityType) p q, name.text = entityType.value →
      SamePayload iso entityType p q →
      parseSourceRecord iso p name = parseSourceRecord iso q name) ∧
    ∀ (envelopes : List (RecordEnvelope sha256)) result, Set.InjOn sha256
        {bytes | ∃ e ∈ envelopes, canonicalRecordBytes e.record = some bytes} →
      canonicalize envelopes = .ok result → ∀ e ∈ envelopes, ∀ f ∈ envelopes,
        f.identity = e.identity → f.sourceVersion = e.sourceVersion →
        ClassifiedBeside envelopes result e f := by
  refine ⟨fun name p q a b _ _ => ⟨canonicalRecordJson_inj, fun hash hsha256 =>
    calculatePayloadHash_eq_iff hsha256⟩, fun name entityType p q hname hsame => ?_,
    fun envelopes result hinj hresult e he f hf => ?_⟩
  · rw [parseSourceRecord_of_text hname, parseSourceRecord_of_text hname, hsame.recordParser_eq]
  · obtain ⟨receipts, hunique, hspec⟩ := canonicalize_ok hresult
    exact classifiedBeside hinj (hunique.canonicalizes hspec) he hf

namespace PaidDay

/-- The order of the paid day, with its timestamp at another offset and as the last member. -/
def orderPayloadAtOffset : Payload :=
  (orderPayload.erase (txt "created_at_utc")).set (txt "created_at_utc")
    (.str (txt "2026-09-14T12:00:00+02:00"))

def offsetParsers : IsoParsers where
  date _ := none
  datetime s :=
    if s = txt "2026-09-14T10:00:00+00:00" ∨ s = txt "2026-09-14T12:00:00+02:00" then
      some (.aware (some (atTen (september 14 valid14))))
    else none

theorem samePayload_order :
    SamePayload offsetParsers .order orderPayload orderPayloadAtOffset where
  keys k := by
    have hperm : orderPayload.keys.Perm orderPayloadAtOffset.keys := by decide +kernel
    exact hperm.mem_iff
  fields k hk := by
    have hk : txt "created_at_utc" ≠ k := fun h => hk (h ▸ List.mem_singleton_self _)
    rw [Payload.field, Payload.field, PyDict.getD, PyDict.getD, orderPayloadAtOffset,
      PyDict.get?_set, if_neg hk, PyDict.get?_erase, if_neg hk]
  timestamps k hk := by
    obtain rfl : k = txt "created_at_utc" := List.mem_singleton.mp hk
    refine ⟨atTen (september 14 rfl), ?_, ?_⟩
    · exact ⟨txt "2026-09-14T10:00:00Z", rfl, ⟨by decide, by decide +kernel⟩, by decide +kernel⟩
    · exact ⟨txt "2026-09-14T12:00:00+02:00", rfl, ⟨by decide, by decide +kernel⟩,
        by decide +kernel⟩

/-- Both notations of the order are one record, and its two receipts are not in conflict. -/
theorem order_payload_identity :
    parseSourceRecord offsetParsers orderPayload (.member .order) =
        parseSourceRecord offsetParsers orderPayloadAtOffset (.member .order) ∧
      (∀ a b, parseSourceRecord offsetParsers orderPayload (.member .order) = .ok a →
        parseSourceRecord offsetParsers orderPayload (.member .order) = .ok b →
        (canonicalRecordJson a = canonicalRecordJson b ↔ a = b)) ∧
      ∀ e ∈ receipts.envelopes, ClassifiedBeside receipts.envelopes paidDay.canonicalization e e := by
  obtain ⟨hjson, hsame, hreceipts⟩ := payload_identity offsetParsers receipts.sha256
  refine ⟨hsame (.member .order) .order _ _ rfl samePayload_order,
    fun a b ha hb => (hjson _ _ _ a b ha hb).1, fun e he => ?_⟩
  exact hreceipts _ _ DigestTable.envelopes_injOn paidDay.canonicalize_eq e he e he rfl rfl

end PaidDay

end Threadline
