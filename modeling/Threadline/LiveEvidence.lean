import Threadline.StableEvidence

/-!
# Live evidence

A record that no higher version supersedes is live. The live records alone
decide the canonical records and the variants in conflict.
-/

open PyText PyCalendar PySorted

namespace Threadline

variable {sha256 : Bytes → Text} {envelopes others : List (RecordEnvelope sha256)}

/-- A record at the highest version of its identity. -/
def Live (envelopes : List (RecordEnvelope sha256)) (r : FinancialRecord) : Prop :=
  ∃ e ∈ envelopes, e.record = r ∧ ¬ Superseded envelopes e

theorem payloadHash_eq_of_record {e f : RecordEnvelope sha256} (h : e.record = f.record) :
    e.payloadHash = f.payloadHash := by
  have he := e.payloadHash_eq
  rw [h, f.payloadHash_eq] at he
  exact (Option.some.inj he).symm

theorem superseded_of_eq {e f : RecordEnvelope sha256} (hi : f.identity = e.identity)
    (hv : f.sourceVersion = e.sourceVersion) (h : Superseded envelopes f) :
    Superseded envelopes e := by
  obtain ⟨g, hg, hgi, hgv⟩ := h
  exact ⟨g, hg, hgi.trans hi, hv ▸ hgv⟩

/-- Two payloads contradict each other wherever both are live. -/
theorem contradicted_of_live (hlive : ∀ r, Live envelopes r → Live others r)
    {e f : RecordEnvelope sha256} (hrecord : f.record = e.record)
    (hf : ¬ Superseded others f) (h : Contradicted envelopes e) : Contradicted others f := by
  obtain ⟨hs, g, hg, hgi, hgv, hgp⟩ := h
  obtain ⟨g', hg', hgr, -⟩ := hlive g.record ⟨g, hg, rfl, fun hgs => hs (superseded_of_eq hgi hgv hgs)⟩
  have hi : ∀ a b : RecordEnvelope sha256, a.record = b.record → a.identity = b.identity :=
    fun a b hab => congrArg FinancialRecord.identity hab
  have hv : ∀ a b : RecordEnvelope sha256, a.record = b.record →
      a.sourceVersion = b.sourceVersion := fun a b hab => congrArg FinancialRecord.sourceVersion hab
  refine ⟨hf, g', hg', ?_, ?_, ?_⟩
  · rw [hi g' g hgr, hgi, hi f e hrecord]
  · rw [hv g' g hgr, hgv, hv f e hrecord]
  · rw [payloadHash_eq_of_record hgr, payloadHash_eq_of_record hrecord]
    exact hgp

/-- The canonical records are the live ones without a contradiction. -/
theorem mem_canonicalRecords_iff
    (hinj : Set.InjOn sha256
      {bytes | ∃ e ∈ envelopes, canonicalRecordBytes e.record = some bytes})
    {result : CanonicalizationResult} (h : canonicalize envelopes = .ok result)
    {r : FinancialRecord} : r ∈ result.canonicalRecords ↔
      ∃ e ∈ envelopes, e.record = r ∧ ¬ Superseded envelopes e ∧ ¬ Contradicted envelopes e := by
  obtain ⟨receipts, hunique, hspec⟩ := canonicalize_ok h
  have hmem := hunique.mem_iff (hashTellsReplays_of_injOn hinj)
  have hsame : ∀ e : RecordEnvelope sha256, SameReceipt e e := fun e => ⟨rfl, rfl⟩
  rw [hspec.mem_canonicalRecords]
  constructor
  · rintro ⟨e, he, hd, rfl⟩
    obtain ⟨hs, hc, -⟩ := (hunique.disposes_iff (hsame e) .accepted).mp hd
    exact ⟨e, (hmem e).mp he, rfl, hs, hc⟩
  · rintro ⟨e, he, rfl, hs, hc⟩
    have her := (hmem e).mpr he
    have hs' := (hunique.superseded_iff (hsame e)).not.mpr hs
    have hc' := (hunique.contradicted_iff (hsame e)).not.mpr hc
    obtain ⟨f, hf, hfi, haf⟩ := exists_accepted_or_contradicted her
    have hsf : ¬ Superseded receipts f := haf.elim And.left And.left
    have hfv := version_eq_of_not_superseded her hf hfi hs' hsf
    -- a payload other than that of `e` at its version would contradict `e`
    have hhash : ∀ g ∈ receipts, g.identity = e.identity → g.sourceVersion = e.sourceVersion →
        g.payloadHash = e.payloadHash := by
      intro g hg hgi hgv
      by_contra hne
      exact hc' ⟨hs', g, hg, hgi, hgv, hne⟩
    rcases haf with haf | ⟨-, g, hg, hgi, hgv, hgp⟩
    · refine ⟨f, hf, haf, ?_⟩
      exact RecordEnvelope.record_eq_of_payloadHash hinj (fun bytes hb => ⟨f, (hmem f).mp hf, hb⟩)
        (fun bytes hb => ⟨e, he, hb⟩) (hhash f hf hfi hfv)
    · exact absurd ((hhash g hg (hgi.trans hfi) (hgv.trans hfv)).trans (hhash f hf hfi hfv).symm) hgp

section TwoLists

variable {result result' : CanonicalizationResult}

theorem mem_canonicalRecords_of_live
    (hinj : Set.InjOn sha256
      {bytes | ∃ e ∈ envelopes, canonicalRecordBytes e.record = some bytes})
    (hinj' : Set.InjOn sha256
      {bytes | ∃ e ∈ others, canonicalRecordBytes e.record = some bytes})
    (hlive : ∀ r, Live envelopes r ↔ Live others r) (h : canonicalize envelopes = .ok result)
    (h' : canonicalize others = .ok result') {r : FinancialRecord}
    (hr : r ∈ result.canonicalRecords) : r ∈ result'.canonicalRecords := by
  obtain ⟨e, he, hre, hs, hc⟩ := (mem_canonicalRecords_iff hinj h).mp hr
  obtain ⟨f, hf, hrf, hsf⟩ := (hlive r).mp ⟨e, he, hre, hs⟩
  refine (mem_canonicalRecords_iff hinj' h').mpr ⟨f, hf, hrf, hsf, fun hcf => hc ?_⟩
  exact contradicted_of_live (fun r => (hlive r).mpr) (hre.trans hrf.symm) hs hcf

/-- Lists with the same live records have the same canonical records. -/
theorem canonicalRecords_eq_of_live
    (hinj : Set.InjOn sha256
      {bytes | ∃ e ∈ envelopes, canonicalRecordBytes e.record = some bytes})
    (hinj' : Set.InjOn sha256
      {bytes | ∃ e ∈ others, canonicalRecordBytes e.record = some bytes})
    (hlive : ∀ r, Live envelopes r ↔ Live others r) (h : canonicalize envelopes = .ok result)
    (h' : canonicalize others = .ok result') :
    result'.canonicalRecords = result.canonicalRecords := by
  obtain ⟨receipts, -, hspec⟩ := canonicalize_ok h
  obtain ⟨receipts', -, hspec'⟩ := canonicalize_ok h'
  refine eq_of_sorted hspec'.canonicalRecords_sorted hspec.canonicalRecords_sorted
    result'.identities_nodup result.identities_nodup fun r => ⟨?_, ?_⟩
  · exact mem_canonicalRecords_of_live hinj' hinj (fun r => (hlive r).symm) h' h
  · exact mem_canonicalRecords_of_live hinj hinj' hlive h h'

/-- The hashes of the variants in conflict are those of the live records. -/
theorem mem_payloadHashes_of_live (hlive : ∀ r, Live envelopes r → Live others r)
    {e f : RecordEnvelope sha256} (hrecord : f.record = e.record) (hs : ¬ Superseded envelopes e)
    {hash : Text} (h : hash ∈ (conflictOf envelopes e).payloadHashes) :
    hash ∈ (conflictOf others f).payloadHashes := by
  obtain ⟨g, hg, rfl⟩ := mem_conflictOf_payloadHashes.mp h
  obtain ⟨hg, hgi, hgv⟩ := mem_sameVersion.mp hg
  obtain ⟨g', hg', hgr, -⟩ := hlive g.record ⟨g, hg, rfl, fun hgs => hs (superseded_of_eq hgi hgv hgs)⟩
  refine mem_conflictOf_payloadHashes.mpr ⟨g', mem_sameVersion.mpr ⟨hg', ?_, ?_⟩,
    payloadHash_eq_of_record hgr⟩
  · exact (congrArg FinancialRecord.identity hgr).trans
      (hgi.trans (congrArg FinancialRecord.identity hrecord.symm))
  · exact (congrArg FinancialRecord.sourceVersion hgr).trans
      (hgv.trans (congrArg FinancialRecord.sourceVersion hrecord.symm))

theorem mem_variants_of_live (hlive : ∀ r, Live envelopes r ↔ Live others r)
    (h : Canonicalizes envelopes result) (h' : Canonicalizes others result')
    {v : CanonicalConflict} (hv : v ∈ result.conflicts.map CanonicalConflict.variants) :
    v ∈ result'.conflicts.map CanonicalConflict.variants := by
  obtain ⟨c, hc, rfl⟩ := List.mem_map.mp hv
  obtain ⟨e, he, hce, rfl⟩ := (h.mem_conflicts c).mp hc
  obtain ⟨f, hf, hrecord, hs⟩ := (hlive e.record).mp ⟨e, he, rfl, hce.1⟩
  have hcf := contradicted_of_live (fun r => (hlive r).mp) hrecord hs hce
  refine List.mem_map.mpr ⟨conflictOf others f, (h'.mem_conflicts _).mpr ⟨f, hf, hcf, rfl⟩, ?_⟩
  have hhashes : (conflictOf others f).payloadHashes = (conflictOf envelopes e).payloadHashes := by
    apply sortedSet_eq_of_mem
    intro hash
    have hiff : hash ∈ (conflictOf others f).payloadHashes ↔
        hash ∈ (conflictOf envelopes e).payloadHashes :=
      ⟨mem_payloadHashes_of_live (fun r => (hlive r).mpr) hrecord.symm hs,
        mem_payloadHashes_of_live (fun r => (hlive r).mp) hrecord hce.1⟩
    simpa [conflictOf] using hiff
  have hi : f.identity = e.identity := congrArg FinancialRecord.identity hrecord
  have hv : f.sourceVersion = e.sourceVersion := congrArg FinancialRecord.sourceVersion hrecord
  rw [CanonicalConflict.variants, CanonicalConflict.variants, hhashes]
  simp only [conflictOf, hi, hv]

/-- Lists with the same live records have the same variants in conflict. -/
theorem conflicts_variants_eq_of_live (hlive : ∀ r, Live envelopes r ↔ Live others r)
    (h : canonicalize envelopes = .ok result) (h' : canonicalize others = .ok result') :
    result'.conflicts.map CanonicalConflict.variants =
      result.conflicts.map CanonicalConflict.variants := by
  obtain ⟨receipts, hunique, hspec⟩ := canonicalize_ok h
  obtain ⟨receipts', hunique', hspec'⟩ := canonicalize_ok h'
  have hsorted : ∀ {cs : List CanonicalConflict},
      cs.Pairwise (fun a b => a.sortKey ≤ b.sortKey) →
        (cs.map CanonicalConflict.variants).Pairwise fun a b => a.sortKey ≤ b.sortKey :=
    fun hp => List.pairwise_map.mpr hp
  have hnodup : ∀ {cs : List CanonicalConflict}, (cs.map CanonicalConflict.identity).Nodup →
      ((cs.map CanonicalConflict.variants).map CanonicalConflict.sortKey).Nodup := by
    intro cs hn
    refine List.Nodup.of_map (fun k => (ofLex k).1) ?_
    rw [List.map_map, List.map_map]
    exact hn
  refine eq_of_sorted (hsorted hspec'.conflicts_sorted) (hsorted hspec.conflicts_sorted)
    (hnodup hspec'.conflicts_nodup) (hnodup hspec.conflicts_nodup) fun v => ⟨?_, ?_⟩
  · exact mem_variants_of_live (fun r => (hlive r).symm) (hunique'.canonicalizes hspec')
      (hunique.canonicalizes hspec)
  · exact mem_variants_of_live hlive (hunique.canonicalizes hspec) (hunique'.canonicalizes hspec')

/-- What a candidate says apart from its run, its receipts and its reports. -/
structure SameFinancials (r r' : ReconciliationResult) : Prop where
  transactions : r'.transactions = r.transactions
  expectedMovements : r'.expectedMovements = r.expectedMovements
  payouts : r'.payouts = r.payouts
  exceptions : r'.exceptions = r.exceptions

/-- A stabilized run depends on the live records and the reports. -/
theorem stabilized_of_live {runId : Text} {detectedAt : UtcDateTime}
    {results results' : List CompletenessResult}
    {quarantineRecords : List QuarantinedRecord} {variants variants' : List SourceVariant}
    (hinj : Set.InjOn sha256
      {bytes | ∃ e ∈ envelopes, canonicalRecordBytes e.record = some bytes})
    (hinj' : Set.InjOn sha256
      {bytes | ∃ e ∈ others, canonicalRecordBytes e.record = some bytes})
    (hlive : ∀ r, Live envelopes r ↔ Live others r) (h : canonicalize envelopes = .ok result)
    (h' : canonicalize others = .ok result') (hd : Describes variants envelopes)
    (hd' : Describes variants' others)
    (hstates : buildReportStateMap (sortedBy CompletenessResult.sortKey results') =
      buildReportStateMap (sortedBy CompletenessResult.sortKey results))
    (hsource : ∀ run, sourceCompletenessFindings run (sortedBy CompletenessResult.sortKey results') =
      sourceCompletenessFindings run (sortedBy CompletenessResult.sortKey results))
    {r : ReconciliationResult}
    (hr : Stabilized sha256 runId detectedAt result results quarantineRecords variants r)
    (quarantineRecords' : List QuarantinedRecord) :
    ∃ r', Stabilized sha256 runId detectedAt result' results' quarantineRecords' variants' r' ∧
      SameFinancials r r' := by
  obtain ⟨receipts, hunique, hspec⟩ := canonicalize_ok h
  obtain ⟨receipts', hunique', hspec'⟩ := canonicalize_ok h'
  have hcan := hunique.canonicalizes hspec
  have hcan' := hunique'.canonicalizes hspec'
  have hconflict : ∀ {result : CanonicalizationResult} {es : List (RecordEnvelope sha256)},
      Canonicalizes es result → ∀ c ∈ result.conflicts, ∃ e ∈ es, conflictOf es e = c := by
    intro result es hcan c hc
    obtain ⟨e, he, -, hec⟩ := (hcan.mem_conflicts c).mp hc
    exact ⟨e, he, hec⟩
  have hvariants := conflicts_variants_eq_of_live hlive h h'
  obtain ⟨b, movements, hopened, hreferenced, rfl⟩ :=
    (stabilized_iff hd.agree (hd.resolves (hconflict hcan)) hcan.distinctConflicts).mp hr
  have hopened' := hopened.congr (canonicalRecords_eq_of_live hinj hinj' hlive h h') hstates
  refine ⟨b.stableResult sha256 result' (sortedBy CompletenessResult.sortKey results')
    quarantineRecords' movements, ?_, ?_⟩
  · refine (stabilized_iff hd'.agree (hd'.resolves (hconflict hcan'))
      hcan'.distinctConflicts).mpr ⟨b, movements, hopened', fun c hc => ?_, rfl⟩
    have hmem := List.mem_map_of_mem (f := CanonicalConflict.variants) hc
    rw [hvariants] at hmem
    obtain ⟨c₀, hc₀, he⟩ := List.mem_map.mp hmem
    have hr₀ : Referenced sha256 c₀.variants := hreferenced c₀ hc₀
    rw [he] at hr₀
    exact hr₀
  · have hexceptions : ∀ cs : List CanonicalConflict, cs.map (variantException sha256 b.run) =
        (cs.map CanonicalConflict.variants).map (variantException sha256 b.run) := by
      intro cs
      rw [List.map_map]
      rfl
    constructor
    · change sortedBy _ (b.transactionRows _) = sortedBy _ (b.transactionRows _)
      rw [b.transactionRows_early, b.transactionRows_early]
    · rfl
    · change sortedBy _ (b.payoutRows _ _) = sortedBy _ (b.payoutRows _ _)
      rw [b.payoutRows_middle, b.payoutRows_middle]
    · change uniqueExceptions _ = uniqueExceptions _
      rw [hsource, hexceptions, hvariants, ← hexceptions]

end TwoLists

end Threadline
