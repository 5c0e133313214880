import Threadline.Canonicalize

/-!
# Receipt replays

An exact replay of a receipt is dropped, and a receipt ID that refers to two
source records is an error.
-/

open PyText

namespace Threadline

variable {sha256 : Bytes → Text}

/-- No receipt ID refers to two source records. -/
def ReceiptsAgree (envelopes : List (RecordEnvelope sha256)) : Prop :=
  ∀ a ∈ envelopes, ∀ b ∈ envelopes, a.receiptId = b.receiptId → a.fingerprint = b.fingerprint

/-- One receipt for each receipt ID of the envelopes. -/
structure UniqueReceipts (envelopes receipts : List (RecordEnvelope sha256)) : Prop where
  ids_nodup : (receipts.map RecordEnvelope.receiptId).Nodup
  subset : ∀ r ∈ receipts, r ∈ envelopes
  cover : ∀ e ∈ envelopes, ∃ r ∈ receipts,
    r.receiptId = e.receiptId ∧ r.fingerprint = e.fingerprint

theorem deduplicateReceipts_concat (envelopes : List (RecordEnvelope sha256))
    (e : RecordEnvelope sha256) :
    deduplicateReceipts (envelopes ++ [e]) =
      deduplicateReceipts envelopes >>= fun unique => deduplicateStep unique e := by
  simp [deduplicateReceipts]

/-- The first envelope with a receipt ID is kept. -/
theorem deduplicateReceipts_get? {envelopes : List (RecordEnvelope sha256)}
    {unique : PyDict Text (RecordEnvelope sha256)} (h : deduplicateReceipts envelopes = .ok unique)
    (id : Text) : unique.get? id = envelopes.find? fun e => e.receiptId = id := by
  induction envelopes using List.reverseRecOn generalizing unique with
  | nil =>
    obtain rfl : ∅ = unique := Except.ok.inj h
    rfl
  | append_singleton envelopes e ih =>
    rw [deduplicateReceipts_concat] at h
    cases hu : deduplicateReceipts envelopes with
    | error err => simp [hu, bind, Except.bind] at h
    | ok before =>
      have ih := ih hu
      simp only [hu, bind, Except.bind, deduplicateStep] at h
      rw [List.find?_append, ← ih]
      split at h
      · next hnone =>
        obtain rfl := Except.ok.inj h
        rw [PyDict.get?_set]
        by_cases hid : e.receiptId = id
        · subst hid
          simp [hnone]
        · simp [hid]
      · next existing hsome =>
        split at h
        · cases h
        · obtain rfl := Except.ok.inj h
          by_cases hid : e.receiptId = id
          · subst hid
            simp [hsome]
          · simp [hid]

/-- An error names a receipt ID that two envelopes with different records share. -/
theorem deduplicateReceipts_error {envelopes : List (RecordEnvelope sha256)}
    {err : CanonicalizationError} (h : deduplicateReceipts envelopes = .error err) :
    ∃ a ∈ envelopes, ∃ b ∈ envelopes, a.receiptId = b.receiptId ∧
      a.fingerprint ≠ b.fingerprint ∧ err = .receiptConflict b.receiptId := by
  induction envelopes using List.reverseRecOn with
  | nil => cases h
  | append_singleton envelopes e ih =>
    rw [deduplicateReceipts_concat] at h
    cases hu : deduplicateReceipts envelopes with
    | error err' =>
      simp only [hu, bind, Except.bind] at h
      obtain rfl := Except.error.inj h
      obtain ⟨a, ha, b, hb, hab⟩ := ih hu
      exact ⟨a, List.mem_append_left _ ha, b, List.mem_append_left _ hb, hab⟩
    | ok before =>
      simp only [hu, bind, Except.bind, deduplicateStep] at h
      split at h
      · cases h
      · next existing hsome =>
        split at h
        · next hne =>
          rw [deduplicateReceipts_get? hu] at hsome
          have hid : existing.receiptId = e.receiptId := by simpa using List.find?_some hsome
          refine ⟨existing, List.mem_append_left _ (List.mem_of_find?_eq_some hsome), e, ?_, hid,
            hne, (Except.error.inj h).symm⟩
          exact List.mem_append_right _ (List.mem_singleton_self e)
        · cases h

theorem receiptsAgree_of_ok {envelopes : List (RecordEnvelope sha256)}
    {unique : PyDict Text (RecordEnvelope sha256)} (h : deduplicateReceipts envelopes = .ok unique) :
    ∀ e ∈ envelopes, ∀ r, unique.get? e.receiptId = some r → r.fingerprint = e.fingerprint := by
  induction envelopes using List.reverseRecOn generalizing unique with
  | nil => simp
  | append_singleton envelopes e ih =>
    rw [deduplicateReceipts_concat] at h
    cases hu : deduplicateReceipts envelopes with
    | error err => simp [hu, bind, Except.bind] at h
    | ok before =>
      have ih := ih hu
      simp only [hu, bind, Except.bind, deduplicateStep] at h
      intro f hf r hr
      rw [List.mem_append, List.mem_singleton] at hf
      split at h
      · next hnone =>
        obtain rfl := Except.ok.inj h
        rw [PyDict.get?_set] at hr
        split_ifs at hr with hid
        · obtain rfl := Option.some.inj hr
          rcases hf with hf | rfl
          · -- a new receipt ID was not seen before
            rw [hid, deduplicateReceipts_get? hu, List.find?_eq_none] at hnone
            exact absurd (by simp) (hnone f hf)
          · rfl
        · rcases hf with hf | rfl
          · exact ih f hf r hr
          · exact absurd rfl hid
      · next existing hsome =>
        split at h
        · cases h
        · next heq =>
          obtain rfl := Except.ok.inj h
          rcases hf with hf | rfl
          · exact ih f hf r hr
          · obtain rfl := Option.some.inj (hsome.symm.trans hr)
            exact not_not.mp heq

theorem deduplicateReceipts_ok {envelopes : List (RecordEnvelope sha256)}
    {unique : PyDict Text (RecordEnvelope sha256)} (h : deduplicateReceipts envelopes = .ok unique) :
    UniqueReceipts envelopes unique.values := by
  have hget := deduplicateReceipts_get? h
  have hkey : ∀ p ∈ unique.items, p.2.receiptId = p.1 := by
    intro p hp
    have hp := PyDict.mem_items_iff.mp hp
    rw [hget] at hp
    simpa using List.find?_some hp
  constructor
  · have hids : unique.values.map RecordEnvelope.receiptId = unique.keys := by
      rw [PyDict.values, PyDict.keys, List.map_map]
      exact List.map_congr_left hkey
    rw [hids]
    exact unique.keys_nodup
  · intro r hr
    obtain ⟨id, hid⟩ := PyDict.mem_values_iff.mp hr
    exact List.mem_of_find?_eq_some (hget id ▸ hid)
  · intro e he
    cases hr : unique.get? e.receiptId with
    | none =>
      rw [hget, List.find?_eq_none] at hr
      exact absurd (by simp) (hr e he)
    | some r =>
      refine ⟨r, PyDict.mem_values_iff.mpr ⟨_, hr⟩, ?_, receiptsAgree_of_ok h e he r hr⟩
      rw [hget] at hr
      simpa using List.find?_some hr

theorem UniqueReceipts.agree {envelopes receipts : List (RecordEnvelope sha256)}
    (h : UniqueReceipts envelopes receipts) : ReceiptsAgree envelopes := by
  intro a ha b hb hab
  obtain ⟨r, hr, hra, hfa⟩ := h.cover a ha
  obtain ⟨s, hs, hsb, hfb⟩ := h.cover b hb
  have hrs : r = s := List.inj_on_of_nodup_map h.ids_nodup hr hs (by rw [hra, hsb, hab])
  rw [← hfa, ← hfb, hrs]

theorem deduplicateReceipts_ok_iff {envelopes : List (RecordEnvelope sha256)} :
    (∃ unique, deduplicateReceipts envelopes = .ok unique) ↔ ReceiptsAgree envelopes := by
  constructor
  · rintro ⟨unique, h⟩
    exact (deduplicateReceipts_ok h).agree
  · intro hagree
    cases h : deduplicateReceipts envelopes with
    | ok unique => exact ⟨unique, rfl⟩
    | error err =>
      obtain ⟨a, ha, b, hb, hid, hne, _⟩ := deduplicateReceipts_error h
      exact absurd (hagree a ha b hb hid) hne

/-- No two payloads of one receipt ID collide. -/
def HashTellsReplays (envelopes : List (RecordEnvelope sha256)) : Prop :=
  ∀ a ∈ envelopes, ∀ b ∈ envelopes, a.receiptId = b.receiptId → a.payloadHash = b.payloadHash →
    a.record = b.record

theorem hashTellsReplays_of_injOn {envelopes : List (RecordEnvelope sha256)}
    (hinj : Set.InjOn sha256
      {bytes | ∃ e ∈ envelopes, canonicalRecordBytes e.record = some bytes}) :
    HashTellsReplays envelopes := by
  intro a ha b hb _ hp
  exact RecordEnvelope.record_eq_of_payloadHash hinj (fun bytes hbytes => ⟨a, ha, hbytes⟩)
    (fun bytes hbytes => ⟨b, hb, hbytes⟩) hp

/-- Without colliding payloads an exact replay is the same receipt. -/
theorem UniqueReceipts.mem_iff {envelopes receipts : List (RecordEnvelope sha256)}
    (h : UniqueReceipts envelopes receipts) (htell : HashTellsReplays envelopes)
    (e : RecordEnvelope sha256) : e ∈ receipts ↔ e ∈ envelopes := by
  refine ⟨h.subset e, fun he => ?_⟩
  obtain ⟨r, hr, hid, hf⟩ := h.cover e he
  have hrec : r.record = e.record := htell r (h.subset r hr) e he hid (congrArg (fun f => f.2.2) hf)
  exact RecordEnvelope.ext hid hrec ▸ hr

end Threadline
