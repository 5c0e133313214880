import Threadline.LiveEvidence
import Threadline.TransactionRules

/-!
# Redelivered and stale receipts

Receipts that repeat a record or carry a superseded version do not change the
rows and the stabilized exceptions of a replay.
-/

open PyText PyCalendar PySorted PyExcept

namespace Threadline

inductive ReplayError
  | canonicalization (error : CanonicalizationError)
  | reconciliation (error : ReconciliationError)
  | evidence (error : ConflictEvidenceError)
  deriving DecidableEq

/-- Canonicalize the envelopes, reconcile, and refer to the variants in conflict. -/
def replay (sha256 : Bytes → Text) (runId : Text) (detectedAt : UtcDateTime)
    (completenessResults : List CompletenessResult) (quarantineRecords : List QuarantinedRecord)
    (envelopes : List (RecordEnvelope sha256)) : Except ReplayError ReconciliationResult := do
  let canonicalization ← (canonicalize envelopes).mapError .canonicalization
  let candidate ← (reconcile runId detectedAt canonicalization completenessResults
    quarantineRecords).mapError .reconciliation
  (stabilizeConflictEvidence sha256 (envelopes.map sourceVariant) candidate).mapError .evidence

section

variable {sha256 : Bytes → Text} {runId : Text} {detectedAt : UtcDateTime}
  {completenessResults : List CompletenessResult} {quarantineRecords : List QuarantinedRecord}
  {envelopes extra merged : List (RecordEnvelope sha256)}

theorem replay_eq_ok {r : ReconciliationResult} :
    replay sha256 runId detectedAt completenessResults quarantineRecords envelopes = .ok r ↔
      ∃ canonicalization, canonicalize envelopes = .ok canonicalization ∧
        Stabilized sha256 runId detectedAt canonicalization completenessResults quarantineRecords
          (envelopes.map sourceVariant) r := by
  simp only [replay, bind_eq_ok, mapError_eq_ok, Stabilized]

theorem describes_of_agree (h : ReceiptsAgree envelopes) :
    Describes (envelopes.map sourceVariant) envelopes where
  agree := by
    intro v hv w hw hid
    obtain ⟨e, he, rfl⟩ := List.mem_map.mp hv
    obtain ⟨f, hf, rfl⟩ := List.mem_map.mp hw
    have hfp := h e he f hf hid
    obtain ⟨hi, hvp⟩ := Prod.mk.inj hfp
    obtain ⟨hv, hp⟩ := Prod.mk.inj hvp
    rw [sourceVariant, sourceVariant, hi, hv, hp]
    exact congrArg (SourceVariant.mk · _ _ _) hid
  cover := fun e he => List.mem_map_of_mem he

/-- An envelope that repeats a record of the list or is superseded by it. -/
def Redundant (envelopes : List (RecordEnvelope sha256)) (x : RecordEnvelope sha256) : Prop :=
  (∃ e ∈ envelopes, e.record = x.record) ∨ Superseded envelopes x

/-- Redundant envelopes supersede nothing. -/
theorem superseded_of_redundant (hmem : ∀ e, e ∈ merged ↔ e ∈ envelopes ∨ e ∈ extra)
    (hextra : ∀ x ∈ extra, Redundant envelopes x) {e : RecordEnvelope sha256} :
    Superseded merged e ↔ Superseded envelopes e := by
  constructor
  · rintro ⟨f, hf, hi, hv⟩
    rcases (hmem f).mp hf with hf | hf
    · exact ⟨f, hf, hi, hv⟩
    · rcases hextra f hf with ⟨g, hg, hgf⟩ | ⟨g, hg, hgi, hgv⟩
      · refine ⟨g, hg, (congrArg FinancialRecord.identity hgf).trans hi, ?_⟩
        exact hv.trans_eq (congrArg FinancialRecord.sourceVersion hgf).symm
      · exact ⟨g, hg, hgi.trans hi, hv.trans hgv⟩
  · rintro ⟨f, hf, hi, hv⟩
    exact ⟨f, (hmem f).mpr (.inl hf), hi, hv⟩

theorem live_of_redundant (hmem : ∀ e, e ∈ merged ↔ e ∈ envelopes ∨ e ∈ extra)
    (hextra : ∀ x ∈ extra, Redundant envelopes x) (r : FinancialRecord) :
    Live envelopes r ↔ Live merged r := by
  have hs := fun e => superseded_of_redundant (e := e) hmem hextra
  constructor
  · rintro ⟨e, he, hr, hse⟩
    exact ⟨e, (hmem e).mpr (.inl he), hr, (hs e).not.mpr hse⟩
  · rintro ⟨e, he, rfl, hse⟩
    rcases (hmem e).mp he with he | he
    · exact ⟨e, he, rfl, (hs e).not.mp hse⟩
    · rcases hextra e he with ⟨g, hg, hge⟩ | hsup
      · refine ⟨g, hg, hge, fun hsg => hse ((hs e).mpr ?_)⟩
        exact superseded_of_eq (congrArg FinancialRecord.identity hge)
          (congrArg FinancialRecord.sourceVersion hge) hsg
      · exact absurd ((hs e).mpr hsup) hse

theorem agree_of_fresh (hmem : ∀ e, e ∈ merged ↔ e ∈ envelopes ∨ e ∈ extra)
    (hfresh : ∀ x ∈ extra, ∀ e ∈ envelopes, x.receiptId ≠ e.receiptId)
    (hdistinct : ReceiptsAgree extra) : ReceiptsAgree merged ↔ ReceiptsAgree envelopes := by
  constructor
  · intro h a ha b hb
    exact h a ((hmem a).mpr (.inl ha)) b ((hmem b).mpr (.inl hb))
  · intro h a ha b hb hid
    rcases (hmem a).mp ha with ha | ha <;> rcases (hmem b).mp hb with hb | hb
    · exact h a ha b hb hid
    · exact absurd hid.symm (hfresh b hb a ha)
    · exact absurd hid (hfresh a ha b hb)
    · exact hdistinct a ha b hb hid

/-- Envelopes with fresh receipt IDs that repeat a record or carry a superseded version change
neither the rows nor the stabilized exceptions, wherever they arrive. -/
theorem replay_redundant (hmerged : merged.Perm (envelopes ++ extra))
    (hfresh : ∀ x ∈ extra, ∀ e ∈ envelopes, x.receiptId ≠ e.receiptId)
    (hdistinct : (extra.map RecordEnvelope.receiptId).Nodup)
    (hextra : ∀ x ∈ extra, (∃ e ∈ envelopes, e.record = x.record) ∨
      ∃ e ∈ envelopes, e.identity = x.identity ∧ x.sourceVersion < e.sourceVersion)
    (hinj : Set.InjOn sha256
      {bytes | ∃ e ∈ envelopes ++ extra, canonicalRecordBytes e.record = some bytes}) :
    (∀ r r', replay sha256 runId detectedAt completenessResults quarantineRecords envelopes =
        .ok r →
      replay sha256 runId detectedAt completenessResults quarantineRecords merged = .ok r' →
      r'.transactions = r.transactions ∧ r'.expectedMovements = r.expectedMovements ∧
        r'.payouts = r.payouts ∧ r'.exceptions = r.exceptions) ∧
    ((∃ r, replay sha256 runId detectedAt completenessResults quarantineRecords envelopes = .ok r) ↔
      ∃ r', replay sha256 runId detectedAt completenessResults quarantineRecords merged =
        .ok r') := by
  have hmem : ∀ e, e ∈ merged ↔ e ∈ envelopes ∨ e ∈ extra := fun e =>
    hmerged.mem_iff.trans List.mem_append
  have hredundant : ∀ x ∈ extra, Redundant envelopes x := hextra
  have hlive := live_of_redundant hmem hredundant
  have hagree := agree_of_fresh hmem hfresh fun a ha b hb hid =>
    congrArg RecordEnvelope.fingerprint (List.inj_on_of_nodup_map hdistinct ha hb hid)
  have hinj₀ : Set.InjOn sha256
      {bytes | ∃ e ∈ envelopes, canonicalRecordBytes e.record = some bytes} := by
    refine hinj.mono ?_
    rintro bytes ⟨e, he, hb⟩
    exact ⟨e, List.mem_append_left _ he, hb⟩
  have hinj₁ : Set.InjOn sha256
      {bytes | ∃ e ∈ merged, canonicalRecordBytes e.record = some bytes} := by
    refine hinj.mono ?_
    rintro bytes ⟨e, he, hb⟩
    exact ⟨e, hmerged.mem_iff.mp he, hb⟩
  constructor
  · intro r r' hr hr'
    obtain ⟨c, hc, hr⟩ := replay_eq_ok.mp hr
    obtain ⟨c', hc', hr'⟩ := replay_eq_ok.mp hr'
    have hok := canonicalize_ok_iff.mp ⟨c, hc⟩
    obtain ⟨r'', hr'', hsame⟩ := stabilized_of_live
      hinj₀ hinj₁ hlive hc hc' (describes_of_agree hok) (describes_of_agree (hagree.mpr hok)) rfl
      (fun run => rfl) hr quarantineRecords
    obtain ⟨candidate, hcandidate, hstable⟩ := hr'
    obtain ⟨candidate', hcandidate', hstable'⟩ := hr''
    obtain rfl := Except.ok.inj (hcandidate.symm.trans hcandidate')
    obtain rfl := Except.ok.inj (hstable.symm.trans hstable')
    exact ⟨hsame.transactions, hsame.expectedMovements, hsame.payouts, hsame.exceptions⟩
  · constructor
    · rintro ⟨r, hr⟩
      obtain ⟨c, hc, hr⟩ := replay_eq_ok.mp hr
      have hok := canonicalize_ok_iff.mp ⟨c, hc⟩
      obtain ⟨c', hc'⟩ := canonicalize_ok_iff.mpr (hagree.mpr hok)
      obtain ⟨r', hr', -⟩ := stabilized_of_live
        hinj₀ hinj₁ hlive hc hc' (describes_of_agree hok) (describes_of_agree (hagree.mpr hok)) rfl
        (fun run => rfl) hr quarantineRecords
      exact ⟨r', replay_eq_ok.mpr ⟨c', hc', hr'⟩⟩
    · rintro ⟨r', hr'⟩
      obtain ⟨c', hc', hr'⟩ := replay_eq_ok.mp hr'
      have hok := hagree.mp (canonicalize_ok_iff.mp ⟨c', hc'⟩)
      obtain ⟨c, hc⟩ := canonicalize_ok_iff.mpr hok
      obtain ⟨r, hr, -⟩ := stabilized_of_live
        hinj₁ hinj₀ (fun r => (hlive r).symm) hc' hc (describes_of_agree (hagree.mpr hok))
        (describes_of_agree hok) rfl (fun run => rfl) hr' quarantineRecords
      exact ⟨r, replay_eq_ok.mpr ⟨c, hc, hr⟩⟩

end

namespace PaidDay

/-- The receipts of the paid day, and a second delivery of its payment. -/
def redeliveredReceipts : DigestTable where
  rows := [orderRow, paymentRow, feeRow, { paymentRow with receiptId := txt "payments-2.json:1" }]
  digest_iff := by decide +kernel
  receiptIds := by decide +kernel
  encodable := by decide +kernel

/-- A payment that is delivered again first changes no row. -/
theorem replay_redundant_payment :
    ∃ r r', replay redeliveredReceipts.sha256 (txt "run-1") (atTen (september 18 rfl))
        completeReports [] (redeliveredReceipts.envelopes.take 3) = .ok r ∧
      replay redeliveredReceipts.sha256 (txt "run-1") (atTen (september 18 rfl))
        completeReports [] (redeliveredReceipts.envelopes.drop 3 ++
          redeliveredReceipts.envelopes.take 3) = .ok r' ∧
      r'.transactions = r.transactions ∧ r'.exceptions = r.exceptions := by
  have hinj : Set.InjOn redeliveredReceipts.sha256
      {bytes | ∃ e ∈ redeliveredReceipts.envelopes.take 3 ++ redeliveredReceipts.envelopes.drop 3,
        canonicalRecordBytes e.record = some bytes} := by
    rw [List.take_append_drop]
    exact redeliveredReceipts.envelopes_injOn
  have hiff : (∃ r, replay redeliveredReceipts.sha256 (txt "run-1") (atTen (september 18 rfl))
        completeReports [] (redeliveredReceipts.envelopes.take 3) = .ok r) ↔
      ∃ r', replay redeliveredReceipts.sha256 (txt "run-1") (atTen (september 18 rfl))
        completeReports [] (redeliveredReceipts.envelopes.drop 3 ++
          redeliveredReceipts.envelopes.take 3) = .ok r' :=
    (replay_redundant List.perm_append_comm (by decide +kernel) (by decide +kernel)
      (by decide +kernel) hinj).2
  have hr := eq_ok_of_isSome (x := replay redeliveredReceipts.sha256 (txt "run-1")
    (atTen (september 18 rfl)) completeReports [] (redeliveredReceipts.envelopes.take 3))
    (by decide +kernel)
  obtain ⟨r', hr'⟩ := hiff.mp ⟨_, hr⟩
  obtain ⟨htransactions, -, -, hexceptions⟩ := (replay_redundant List.perm_append_comm
    (by decide +kernel) (by decide +kernel) (by decide +kernel) hinj).1 _ _ hr hr'
  exact ⟨_, r', hr, hr', htransactions, hexceptions⟩

end PaidDay

end Threadline
