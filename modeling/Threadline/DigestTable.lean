import Threadline.Canonicalize

/-!
# Receipts with known digests

A table of receipts whose SHA-256 digests are listed gives a hash function that
has no collision on them, and the envelopes of the receipts.
-/

open PyText

namespace Threadline

structure DigestRow where
  receiptId : Text
  record : FinancialRecord
  digest : Text

/-- Receipts whose digests tell their records apart. -/
structure DigestTable where
  rows : List DigestRow
  digest_iff : ∀ a ∈ rows, ∀ b ∈ rows, a.record = b.record ↔ a.digest = b.digest
  receiptIds : ∀ a ∈ rows, a.receiptId ≠ [] ∧ a.receiptId = strip a.receiptId
  encodable : ∀ a ∈ rows, (canonicalRecordBytes a.record).isSome

namespace DigestTable

variable (t : DigestTable)

/-- The hash function that gives the listed digests. -/
def sha256 (bytes : Bytes) : Text :=
  ((t.rows.find? fun a => canonicalRecordBytes a.record = some bytes).map DigestRow.digest).getD []

variable {t}

theorem sha256_eq {a : DigestRow} (ha : a ∈ t.rows) {bytes : Bytes}
    (hb : canonicalRecordBytes a.record = some bytes) : t.sha256 bytes = a.digest := by
  unfold sha256
  cases hf : t.rows.find? fun a => canonicalRecordBytes a.record = some bytes with
  | none =>
    rw [List.find?_eq_none] at hf
    exact absurd (by simpa using hb) (hf a ha)
  | some c =>
    have hc : canonicalRecordBytes c.record = some bytes := by simpa using List.find?_some hf
    have he := canonicalRecordBytes_injective hc hb
    exact (t.digest_iff c (List.mem_of_find?_eq_some hf) a ha).mp he

theorem calculatePayloadHash_eq {a : DigestRow} (ha : a ∈ t.rows) :
    calculatePayloadHash t.sha256 a.record = some a.digest := by
  obtain ⟨bytes, hb⟩ := Option.isSome_iff_exists.mp (t.encodable a ha)
  rw [calculatePayloadHash, hb, Option.map_some, sha256_eq ha hb]

theorem sha256_injOn : Set.InjOn t.sha256
    {bytes | ∃ a ∈ t.rows, canonicalRecordBytes a.record = some bytes} := by
  rintro x ⟨a, ha, hx⟩ y ⟨b, hb, hy⟩ hxy
  rw [sha256_eq ha hx, sha256_eq hb hy, ← t.digest_iff a ha b hb] at hxy
  rw [hxy, hy] at hx
  exact (Option.some.inj hx).symm

variable (t)

/-- The envelopes of the receipts, in the order of the table. -/
def envelopes : List (RecordEnvelope t.sha256) :=
  t.rows.pmap (fun a ha => ⟨a.receiptId, a.record, a.digest, (t.receiptIds a ha).1,
    (t.receiptIds a ha).2, calculatePayloadHash_eq ha⟩) fun _ ha => ha

variable {t}

theorem envelopes_injOn : Set.InjOn t.sha256
    {bytes | ∃ e ∈ t.envelopes, canonicalRecordBytes e.record = some bytes} := by
  refine sha256_injOn.mono ?_
  rintro bytes ⟨e, he, hb⟩
  obtain ⟨a, ha, rfl⟩ := List.mem_pmap.mp he
  exact ⟨a, ha, hb⟩

end DigestTable

end Threadline
