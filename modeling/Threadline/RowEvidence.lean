import Threadline.IngestedRows
import Threadline.RowContract

/-!
# The evidence of a row

A row becomes a record with an envelope, or goes to quarantine with the
fingerprint of its payload, unless a timestamp overflows, a text that is hashed
has a lone surrogate or a rejected payload has an infinite number.
-/

open PyText PyCalendar PyJson PyExcept

namespace Threadline

section Evidence

variable (iso : IsoParsers) (sha256 : Bytes → Text) (payload : Payload) (entityType : EntityType)

/-- A row ends as a record with an envelope, or in quarantine with its fingerprint. The quarantine
record itself is built from any violation. -/
def Settles : Prop :=
  (∃ record, parseSourceRecord iso payload (.member entityType) = .ok record ∧
    ∀ receiptId, receiptId ≠ [] → receiptId = strip receiptId →
      ∃ envelope, RecordEnvelope.make? sha256 receiptId record = .ok envelope) ∨
  ∃ violation fingerprint,
    parseSourceRecord iso payload (.member entityType) = .error (.contract violation) ∧
    documentFingerprint sha256 (.obj payload.items) = some fingerprint

/-- A row that meets its contract has encodable identifiers. One that breaks it does so before a
timestamp overflows, and all that it holds can be written as UTF-8 JSON. -/
def Recordable : Prop :=
  ((∀ rule ∈ rowRules entityType, rule.Met iso payload) ∧
    ∀ field ∈ textFields entityType, encodable (payload.field field)) ∨
  ((∃ rule ∈ rowRules entityType, ¬ rule.Met iso payload) ∧
    ¬ OverflowsAt iso payload (rowRules entityType) ∧
    finite (.obj payload.items) ∧ encodable (.obj payload.items))

end Evidence

section Evidence

variable {iso : IsoParsers} {sha256 : Bytes → Text} {payload : Payload} {entityType : EntityType}

/-- An envelope needs a receipt ID, and a record with UTF-8 bytes. -/
theorem exists_envelope_iff {receiptId : Text} {record : FinancialRecord} :
    (∃ envelope, RecordEnvelope.make? sha256 receiptId record = .ok envelope) ↔
      (receiptId ≠ [] ∧ receiptId = strip receiptId) ∧
      (calculatePayloadHash sha256 record).isSome := by
  unfold RecordEnvelope.make?
  split_ifs with hid
  · rw [and_iff_right hid]
    split
    next payloadHash hhash => exact iff_of_true ⟨_, rfl⟩ (Option.isSome_of_eq_some hhash)
    next hhash =>
      refine iff_of_false ?_ (Option.not_isSome_iff_eq_none.mpr hhash)
      rintro ⟨envelope, h⟩
      cases h
  · refine iff_of_false ?_ fun h => hid h.1
    rintro ⟨envelope, h⟩
    cases h

/-- The identifiers of a record are those of its row. -/
theorem hash_isSome_iff {record : FinancialRecord}
    (h : recordParser iso payload entityType = .ok record) :
    (calculatePayloadHash sha256 record).isSome ↔
      ∀ field ∈ textFields entityType, encodable (payload.field field) := by
  obtain ⟨hids, hcurrency⟩ := recordIds_of_recordParser h
  have heur : encodableText eur = true := by decide
  have hall : (∀ field ∈ textFields entityType, encodable (payload.field field)) ↔
      ∀ j ∈ (textFields entityType).map payload.field, encodable j := by
    rw [List.forall_mem_map]
  rw [calculatePayloadHash_isSome, hcurrency, heur, Bool.and_true, List.all_eq_true, hall, hids,
    List.forall_mem_map]
  rfl

theorem settles_of_recordable (h : Recordable iso payload entityType) :
    Settles iso sha256 payload entityType := by
  have hfollows : Follows iso payload (rowRules entityType) _ := follows_recordParser entityType
  rcases h with ⟨hmet, hencodable⟩ | ⟨⟨rule, hrule, hbroken⟩, hoverflow, hfinite, hencodable⟩
  · obtain ⟨record, hrecord⟩ := hfollows.ok.mpr hmet
    refine .inl ⟨record, hrecord, fun receiptId hne hstrip => ?_⟩
    exact exists_envelope_iff.mpr ⟨⟨hne, hstrip⟩, (hash_isSome_iff hrecord).mpr hencodable⟩
  · have hfingerprint : (documentFingerprint sha256 (.obj payload.items)).isSome := by
      rw [documentFingerprint_isSome, hfinite, hencodable, Bool.and_self]
    obtain ⟨fingerprint, hfingerprint⟩ := Option.isSome_iff_exists.mp hfingerprint
    cases hparse : recordParser iso payload entityType with
    | ok record => exact absurd (hfollows.ok.mp ⟨record, hparse⟩ rule hrule) hbroken
    | error err =>
      cases err with
      | contract violation => exact .inr ⟨violation, fingerprint, hparse, hfingerprint⟩
      | overflow => exact absurd (hfollows.overflow.mp hparse) hoverflow

theorem recordable_of_settles (h : Settles iso sha256 payload entityType) :
    Recordable iso payload entityType := by
  have hfollows : Follows iso payload (rowRules entityType) _ := follows_recordParser entityType
  rcases h with ⟨record, hrecord, henvelope⟩ | ⟨violation, fingerprint, hparse, hfingerprint⟩
  · have hhash : (calculatePayloadHash sha256 record).isSome :=
      (exists_envelope_iff.mp (henvelope (txt "receipt") (by decide) (by decide +kernel))).2
    exact .inl ⟨hfollows.ok.mp ⟨record, hrecord⟩, (hash_isSome_iff hrecord).mp hhash⟩
  · have hsome := documentFingerprint_isSome sha256 (.obj payload.items)
    rw [hfingerprint, Option.isSome_some] at hsome
    have hboth := Bool.and_eq_true_iff.mp hsome.symm
    refine .inr ⟨?_, ?_, hboth.1, hboth.2⟩
    · by_contra hall
      simp only [not_exists, not_and, not_not] at hall
      obtain ⟨record, hrecord⟩ := hfollows.ok.mpr hall
      cases hrecord.symm.trans hparse
    · intro hoverflow
      cases (hfollows.overflow.mpr hoverflow).symm.trans hparse

/-- A row raises nothing when it is received if, and only if, it ends in evidence. -/
theorem storedRow_isSome_iff {platform : Platform} {call : IngestionCall}
    {delivery : VerifiedDelivery} {row : Payload × ℕ} (hne : call.receiptId row.2 ≠ [])
    (hstrip : call.receiptId row.2 = strip (call.receiptId row.2)) :
    (call.storedRow platform delivery row).isSome ↔
      Settles platform.iso platform.sha256 row.1 delivery.entityType := by
  unfold IngestionCall.storedRow Settles
  split
  next violation hparse =>
    rw [Option.isSome_map, Option.isSome_iff_exists, hparse]
    constructor
    · rintro ⟨fingerprint, hfingerprint⟩
      exact .inr ⟨violation, fingerprint, rfl, hfingerprint⟩
    · rintro (⟨record, hrecord, -⟩ | ⟨-, fingerprint, -, hfingerprint⟩)
      · cases hrecord
      · exact ⟨fingerprint, hfingerprint⟩
  next hparse =>
    rw [hparse]
    refine iff_of_false nofun ?_
    rintro (⟨record, hrecord, -⟩ | ⟨violation, -, hviolation, -⟩)
    · cases hrecord
    · cases hviolation
  next record hparse =>
    rw [Option.isSome_map, Option.isSome_iff_exists, hparse]
    constructor
    · rintro ⟨envelope, henvelope⟩
      refine .inl ⟨record, rfl, fun receiptId hne' hstrip' => ?_⟩
      have hhash := (exists_envelope_iff.mp ⟨envelope, toOption_eq_some.mp henvelope⟩).2
      exact exists_envelope_iff.mpr ⟨⟨hne', hstrip'⟩, hhash⟩
    · rintro (⟨record', hrecord, henvelope⟩ | ⟨violation, -, hviolation, -⟩)
      · obtain rfl := Except.ok.inj hrecord
        obtain ⟨envelope, hmake⟩ := henvelope (call.receiptId row.2) hne hstrip
        exact ⟨envelope, toOption_eq_some.mpr hmake⟩
      · cases hviolation

theorem not_settles_of_overflow
    (h : parseSourceRecord iso payload (.member entityType) = .error .overflow) :
    ¬ Settles iso sha256 payload entityType := by
  rintro (⟨record, hrecord, -⟩ | ⟨violation, -, hparse, -⟩)
  · cases hrecord.symm.trans h
  · cases hparse.symm.trans h

theorem not_settles_of_unwritable
    (h : (parseSourceRecord iso payload (.member entityType)).toOption = none)
    (hnone : documentFingerprint sha256 (.obj payload.items) = none) :
    ¬ Settles iso sha256 payload entityType := by
  rintro (⟨record, hrecord, -⟩ | ⟨-, fingerprint, -, hfingerprint⟩)
  · cases (toOption_eq_some.mpr hrecord).symm.trans h
  · cases hfingerprint.symm.trans hnone

end Evidence

namespace UnsettledRows

/-- The first day of year 1, an hour east of Greenwich. -/
def firstHour : Text := txt "0001-01-01T00:00:00+01:00"

def iso : IsoParsers where
  date _ := none
  datetime s := if s = firstHour then some (.aware none) else none

/-- An order before the calendar begins. -/
def earliestOrder : Payload := .ofPairs
  [(txt "order_id", .str (txt "O1")), (txt "created_at_utc", .str firstHour),
   (txt "status", .str (txt "PAID")), (txt "currency", .str eur),
   (txt "order_total", .str (txt "10.00")), (txt "source_version", .num (.int 1))]

/-- A row whose note is half of a surrogate pair. -/
def halfPair : Payload := .ofPairs [(txt "note", .str [0xD83D])]

/-- A row whose version is `1e999`. -/
def hugeVersion : Payload := .ofPairs [(txt "source_version", .num (.infinity false))]

end UnsettledRows

end Threadline
