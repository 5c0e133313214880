import Threadline.CanonicalReceipts
import Threadline.CanonicalRound
import Threadline.DigestTable

/-!
# What canonicalization decides

The rounds together classify every receipt once, and the result depends only on
the set of envelopes.
-/

open PyText PySorted

namespace Threadline

variable {sha256 : Bytes → Text}

/-! ## All groups -/

section Receipts

variable {receipts : List (RecordEnvelope sha256)}

def groupOf (receipts : List (RecordEnvelope sha256)) (i : Identity) :
    List (RecordEnvelope sha256) := receipts.filter fun e => e.identity = i

theorem mem_groupOf {i : Identity} {e : RecordEnvelope sha256} :
    e ∈ groupOf receipts i ↔ e ∈ receipts ∧ e.identity = i := by
  simp [groupOf]

/-- The round of an identity that was seen. -/
theorem exists_round {e : RecordEnvelope sha256} (he : e ∈ receipts) :
    ∃ w, IsGroup receipts e.identity (groupOf receipts e.identity) w ∧
      RoundResult e.identity (groupOf receipts e.identity) w
        (identityOutcome e.identity ((grouped receipts).getD e.identity ∅)) := by
  have hne : groupOf receipts e.identity ≠ [] :=
    List.ne_nil_of_mem (mem_groupOf.mpr ⟨he, rfl⟩)
  obtain ⟨w, hw⟩ := winningVersion_isSome hne
  obtain ⟨hattained, hhighest⟩ := winningVersion_eq hw
  refine ⟨w, ⟨rfl, hattained, hhighest⟩, ?_⟩
  rw [grouped_getD]
  exact identityOutcome_result hw _

theorem mem_flatMap_outcomes {α : Type*} {f : IdentityOutcome → List α} {a : α} :
    a ∈ (identityOutcomes receipts).flatMap f ↔
      ∃ e ∈ receipts, a ∈ f (identityOutcome e.identity ((grouped receipts).getD e.identity ∅)) := by
  simp only [identityOutcomes, List.flatMap_map, List.mem_flatMap, mem_sortedBy, mem_grouped_keys]
  constructor
  · rintro ⟨_, ⟨e, he, rfl⟩, ha⟩
    exact ⟨e, he, ha⟩
  · rintro ⟨e, he, ha⟩
    exact ⟨e.identity, ⟨e, he, rfl⟩, ha⟩

/-- The evidence holds every receipt once. -/
theorem outcomes_ids_perm : (((identityOutcomes receipts).flatMap IdentityOutcome.evidence).map
    EvidenceRecord.receiptId).Perm (receipts.map RecordEnvelope.receiptId) := by
  have hround : ∀ i ∈ sortedBy id (grouped receipts).keys,
      ((identityOutcome i ((grouped receipts).getD i ∅)).evidence.map
        EvidenceRecord.receiptId).Perm ((groupOf receipts i).map RecordEnvelope.receiptId) := by
    intro i hi
    obtain ⟨e, he, rfl⟩ := mem_grouped_keys.mp ((mem_sortedBy _).mp hi)
    obtain ⟨w, _, hround⟩ := exists_round he
    exact hround.ids_perm
  rw [identityOutcomes, List.flatMap_map, List.map_flatMap]
  refine (List.Perm.flatMap_left _ hround).trans ?_
  rw [← List.map_flatMap]
  apply List.Perm.map
  apply PyDict.flatMap_filter_perm
  · exact sortedBy_nodup id (PyDict.nodup_keys _)
  · intro e he
    exact (mem_sortedBy _).mpr (mem_grouped_keys.mpr ⟨e, he, rfl⟩)

/-- What canonicalization decides about receipts with distinct IDs. -/
structure CanonicalSpec (receipts : List (RecordEnvelope sha256))
    (result : CanonicalizationResult) : Prop where
  ids_perm : (result.evidence.map EvidenceRecord.receiptId).Perm
    (receipts.map RecordEnvelope.receiptId)
  decides : ∀ v ∈ result.evidence, Decides receipts receipts v
  mem_canonicalRecords : ∀ r, r ∈ result.canonicalRecords ↔
    ∃ e ∈ receipts, Disposes receipts e .accepted ∧ e.record = r
  mem_conflicts : ∀ c, c ∈ result.conflicts ↔
    ∃ e ∈ receipts, Contradicted receipts e ∧ conflictOf receipts e = c
  conflicts_nodup : (result.conflicts.map CanonicalConflict.identity).Nodup
  evidence_sorted : result.evidence.Pairwise fun a b => a.sortKey ≤ b.sortKey
  canonicalRecords_sorted : result.canonicalRecords.Pairwise fun a b => a.identity ≤ b.identity
  conflicts_sorted : result.conflicts.Pairwise fun a b => a.sortKey ≤ b.sortKey

theorem identityOutcome_conflicts_identity (i : Identity) (versions : Versions sha256) :
    (identityOutcome i versions).conflicts.map CanonicalConflict.identity = [] ∨
      (identityOutcome i versions).conflicts.map CanonicalConflict.identity = [i] := by
  unfold identityOutcome
  split
  · exact .inl rfl
  next w _ =>
    simp only
    split
    · exact .inr rfl
    · left
      unfold acceptedOutcome
      split <;> rfl

theorem outcomes_conflicts_nodup :
    (((identityOutcomes receipts).flatMap IdentityOutcome.conflicts).map
      CanonicalConflict.identity).Nodup := by
  rw [identityOutcomes, List.flatMap_map, List.map_flatMap, List.nodup_flatMap]
  constructor
  · intro i _
    rcases identityOutcome_conflicts_identity i ((grouped receipts).getD i ∅) with h | h <;>
      rw [h] <;> simp
  · have hn := sortedBy_nodup id (grouped receipts).keys_nodup
    refine hn.imp fun {i j} hij => ?_
    rcases identityOutcome_conflicts_identity i ((grouped receipts).getD i ∅) with h | h <;>
      rcases identityOutcome_conflicts_identity j ((grouped receipts).getD j ∅) with h' | h' <;>
      simp [Function.onFun, h, h', hij.symm]

/-- A result of `canonicalize` decides about one receipt for each receipt ID. -/
theorem canonicalize_ok {envelopes : List (RecordEnvelope sha256)}
    {result : CanonicalizationResult} (h : canonicalize envelopes = .ok result) :
    ∃ receipts, UniqueReceipts envelopes receipts ∧ CanonicalSpec receipts result := by
  unfold canonicalize at h
  cases hu : deduplicateReceipts envelopes with
  | error err => simp [hu, bind, Except.bind] at h
  | ok unique =>
    have hunique := deduplicateReceipts_ok hu
    simp only [hu, bind, Except.bind] at h
    obtain rfl := Except.ok.inj h
    refine ⟨unique.values, hunique, ?_⟩
    constructor
    · exact ((sortedBy_perm _ _).map _).trans outcomes_ids_perm
    · intro v hv
      obtain ⟨e, he, hv⟩ := mem_flatMap_outcomes.mp ((mem_sortedBy _).mp hv)
      obtain ⟨w, hg, hround⟩ := exists_round he
      obtain ⟨f, hf, hdecides⟩ := hround.decides hg hunique.ids_nodup hv
      exact ⟨f, (mem_groupOf.mp hf).1, hdecides⟩
    · intro r
      rw [mem_sortedBy, mem_flatMap_outcomes]
      constructor
      · rintro ⟨e, he, hr⟩
        obtain ⟨w, hg, hround⟩ := exists_round he
        obtain ⟨f, hf, hr⟩ := (hround.mem_canonicalRecords hg hunique.ids_nodup).mp hr
        exact ⟨f, (mem_groupOf.mp hf).1, hr⟩
      · rintro ⟨e, he, hr⟩
        obtain ⟨w, hg, hround⟩ := exists_round he
        exact ⟨e, he, (hround.mem_canonicalRecords hg hunique.ids_nodup).mpr
          ⟨e, mem_groupOf.mpr ⟨he, rfl⟩, hr⟩⟩
    · intro c
      rw [mem_sortedBy, mem_flatMap_outcomes]
      constructor
      · rintro ⟨e, he, hc⟩
        obtain ⟨w, hg, hround⟩ := exists_round he
        obtain ⟨f, hf, hc⟩ := (hround.mem_conflicts hg hunique.ids_nodup).mp hc
        exact ⟨f, (mem_groupOf.mp hf).1, hc⟩
      · rintro ⟨e, he, hc⟩
        obtain ⟨w, hg, hround⟩ := exists_round he
        exact ⟨e, he, (hround.mem_conflicts hg hunique.ids_nodup).mpr
          ⟨e, mem_groupOf.mpr ⟨he, rfl⟩, hc⟩⟩
    · exact ((sortedBy_perm _ _).map _).nodup_iff.mpr outcomes_conflicts_nodup
    · exact sortedBy_pairwise _ _
    · exact sortedBy_pairwise _ _
    · exact sortedBy_pairwise _ _

theorem canonicalize_ok_iff {envelopes : List (RecordEnvelope sha256)} :
    (∃ result, canonicalize envelopes = .ok result) ↔ ReceiptsAgree envelopes := by
  rw [← deduplicateReceipts_ok_iff]
  unfold canonicalize
  cases deduplicateReceipts envelopes <;> simp [bind, Except.bind]

theorem canonicalize_error {envelopes : List (RecordEnvelope sha256)} {err : CanonicalizationError}
    (h : canonicalize envelopes = .error err) : ∃ id, err = .receiptConflict id := by
  unfold canonicalize at h
  cases hu : deduplicateReceipts envelopes with
  | ok unique => simp [hu, bind, Except.bind] at h
  | error err' =>
    simp only [hu, bind, Except.bind] at h
    obtain ⟨_, _, b, _, _, _, herr⟩ := deduplicateReceipts_error hu
    exact ⟨b.receiptId, (Except.error.inj h).symm.trans herr⟩

/-- Every identity has an accepted receipt or a contradicted one. -/
theorem exists_accepted_or_contradicted {e : RecordEnvelope sha256} (he : e ∈ receipts) :
    ∃ f ∈ receipts, f.identity = e.identity ∧
      (Disposes receipts f .accepted ∨ Contradicted receipts f) := by
  obtain ⟨w, hg, hround⟩ := exists_round he
  generalize identityOutcome e.identity _ = outcome at hround
  cases hround with
  | conflicted evidence hashes differ perm sorted hashes_eq =>
    obtain ⟨a, ha, hdiffer⟩ := differ
    obtain ⟨har, hai⟩ := mem_groupOf.mp (mem_atVersion.mp ha).1
    exact ⟨a, har, hai, .inr (hg.contradicted_of_differ ⟨a, ha, hdiffer⟩ ha)⟩
  | accepted a duplicates agree perm first =>
    have ha := perm.mem_iff.mp List.mem_cons_self
    obtain ⟨har, hai⟩ := mem_groupOf.mp (mem_atVersion.mp ha).1
    exact ⟨a, har, hai, .inl ⟨hg.not_superseded ha, hg.not_contradicted_of_agree agree ha,
      (hg.hasFirstId_iff ha).mpr first⟩⟩

theorem version_eq_of_not_superseded {e f : RecordEnvelope sha256} (he : e ∈ receipts)
    (hf : f ∈ receipts) (hi : f.identity = e.identity) (hse : ¬ Superseded receipts e)
    (hsf : ¬ Superseded receipts f) : f.sourceVersion = e.sourceVersion := by
  by_contra hne
  rcases lt_or_gt_of_ne hne with hlt | hlt
  · exact hsf ⟨e, he, hi.symm, hlt⟩
  · exact hse ⟨f, hf, hi, hlt⟩

/-- The accepted receipt of an identity has one receipt ID. -/
theorem accepted_id_unique {e f : RecordEnvelope sha256} (he : e ∈ receipts) (hf : f ∈ receipts)
    (hi : f.identity = e.identity) (hae : Disposes receipts e .accepted)
    (haf : Disposes receipts f .accepted) : f.receiptId = e.receiptId := by
  have hv := version_eq_of_not_superseded he hf hi hae.1 haf.1
  exact le_antisymm (haf.2.2 e he hi.symm hv.symm) (hae.2.2 f hf hi hv)

/-- A receipt and its disposition determine the reason. -/
theorem Explains.unique {e : RecordEnvelope sha256} {d : EvidenceDisposition}
    {reason reason' : EvidenceReason} (h : Explains receipts e d reason)
    (h' : Explains receipts e d reason') : reason = reason' := by
  cases d <;> cases reason <;> cases reason' <;> simp only [Explains] at h h'
  case accepted.selected.selected => rw [h, h']
  case conflicted.differentPayloads.differentPayloads => rw [h.1, h.2, h'.1, h'.2]
  case stale.superseded.superseded =>
    obtain ⟨rfl, f, hf, hfi, hsf, rfl⟩ := h
    obtain ⟨rfl, g, hg, hgi, hsg, rfl⟩ := h'
    rw [version_eq_of_not_superseded hf hg (hgi.trans hfi.symm) hsf hsg]
  case duplicate.duplicates.duplicates =>
    obtain ⟨f, hf, hfi, haf, rfl⟩ := h
    obtain ⟨g, hg, hgi, hag, rfl⟩ := h'
    rw [accepted_id_unique hf hg (hgi.trans hfi.symm) haf hag]

namespace CanonicalSpec

variable {result : CanonicalizationResult}

theorem evidence_nodup (h : CanonicalSpec receipts result)
    (hids : (receipts.map RecordEnvelope.receiptId).Nodup) :
    (result.evidence.map EvidenceRecord.receiptId).Nodup := h.ids_perm.nodup_iff.mpr hids

theorem mem_evidence (h : CanonicalSpec receipts result)
    (hids : (receipts.map RecordEnvelope.receiptId).Nodup) {v : EvidenceRecord} :
    v ∈ result.evidence ↔ Decides receipts receipts v := by
  refine ⟨h.decides v, ?_⟩
  rintro ⟨e, he, d, reason, rfl, hd, hr⟩
  have hm : e.receiptId ∈ result.evidence.map EvidenceRecord.receiptId :=
    h.ids_perm.mem_iff.mpr (List.mem_map_of_mem he)
  obtain ⟨v, hv, hid⟩ := List.mem_map.mp hm
  obtain ⟨f, hf, d', reason', rfl, hd', hr'⟩ := h.decides v hv
  obtain rfl : f = e := List.inj_on_of_nodup_map hids hf he hid
  obtain rfl := hd'.unique hd
  obtain rfl := hr'.unique hr
  exact hv

end CanonicalSpec

end Receipts

/-! ## The decision depends on the set of receipts -/

section Invariance

variable {receipts others : List (RecordEnvelope sha256)}

theorem superseded_congr (h : ∀ e, e ∈ others ↔ e ∈ receipts) :
    Superseded others = Superseded receipts := by
  funext e
  simp only [Superseded, h]

theorem contradicted_congr (h : ∀ e, e ∈ others ↔ e ∈ receipts) :
    Contradicted others = Contradicted receipts := by
  funext e
  simp only [Contradicted, superseded_congr h, h]

theorem disposes_congr (h : ∀ e, e ∈ others ↔ e ∈ receipts) :
    Disposes others = Disposes receipts := by
  funext e d
  cases d <;> simp only [Disposes, superseded_congr h, contradicted_congr h, HasFirstId, h]

theorem sortedSet_sameVersion_congr {κ : Type*} [LinearOrder κ]
    (h : ∀ e, e ∈ others ↔ e ∈ receipts) (e : RecordEnvelope sha256)
    (f : RecordEnvelope sha256 → κ) :
    sortedSet ((sameVersion others e).map f) = sortedSet ((sameVersion receipts e).map f) := by
  apply sortedSet_eq_of_mem
  simp [sameVersion, h]

theorem decides_congr (h : ∀ e, e ∈ others ↔ e ∈ receipts) :
    Decides others others = Decides receipts receipts := by
  have hexplains : Explains others = Explains receipts := by
    funext e d reason
    cases d <;> cases reason <;> simp only [Explains, superseded_congr h, disposes_congr h, h,
      sortedSet_sameVersion_congr h]
  funext v
  simp only [Decides, disposes_congr h, hexplains, h]

theorem conflictOf_congr (h : ∀ e, e ∈ others ↔ e ∈ receipts) :
    conflictOf others = conflictOf receipts := by
  funext e
  simp only [conflictOf, sortedSet_sameVersion_congr h]

theorem eq_of_sorted {α κ : Type*} [LinearOrder κ] {key : α → κ} {xs ys : List α}
    (hxs : xs.Pairwise fun a b => key a ≤ key b) (hys : ys.Pairwise fun a b => key a ≤ key b)
    (hxn : (xs.map key).Nodup) (hyn : (ys.map key).Nodup) (h : ∀ a, a ∈ xs ↔ a ∈ ys) : xs = ys := by
  have hp : xs.Perm ys :=
    (List.perm_ext_iff_of_nodup (hxn.of_map key) (hyn.of_map key)).mpr h
  refine List.Perm.eq_of_pairwise ?_ hxs hys hp
  intro a b ha hb hab hba
  exact List.inj_on_of_nodup_map hxn ha ((h b).mpr hb) (le_antisymm hab hba)

/-- The same receipts give the same result, in whatever order they are listed. -/
theorem CanonicalSpec.unique {result result' : CanonicalizationResult}
    (h : CanonicalSpec receipts result) (h' : CanonicalSpec others result')
    (hids : (receipts.map RecordEnvelope.receiptId).Nodup)
    (hids' : (others.map RecordEnvelope.receiptId).Nodup)
    (hmem : ∀ e, e ∈ others ↔ e ∈ receipts) : result' = result := by
  have hevidence : result'.evidence = result.evidence := by
    refine eq_of_sorted h'.evidence_sorted h.evidence_sorted ?_ ?_ fun v => ?_
    · refine List.Nodup.of_map (fun k => (ofLex (ofLex (ofLex k).2).2).2) ?_
      rw [List.map_map]
      exact h'.evidence_nodup hids'
    · refine List.Nodup.of_map (fun k => (ofLex (ofLex (ofLex k).2).2).2) ?_
      rw [List.map_map]
      exact h.evidence_nodup hids
    · rw [h'.mem_evidence hids', h.mem_evidence hids, decides_congr hmem]
  have hrecords : result'.canonicalRecords = result.canonicalRecords := by
    refine eq_of_sorted h'.canonicalRecords_sorted h.canonicalRecords_sorted
      result'.identities_nodup result.identities_nodup fun r => ?_
    rw [h'.mem_canonicalRecords, h.mem_canonicalRecords, disposes_congr hmem]
    simp only [hmem]
  have hconflicts : result'.conflicts = result.conflicts := by
    refine eq_of_sorted h'.conflicts_sorted h.conflicts_sorted ?_ ?_ fun c => ?_
    · refine List.Nodup.of_map (fun k => (ofLex k).1) ?_
      rw [List.map_map]
      exact h'.conflicts_nodup
    · refine List.Nodup.of_map (fun k => (ofLex k).1) ?_
      rw [List.map_map]
      exact h.conflicts_nodup
    · rw [h'.mem_conflicts, h.mem_conflicts, contradicted_congr hmem, conflictOf_congr hmem]
      simp only [hmem]
  obtain ⟨records, evidence, conflicts, _⟩ := result
  obtain ⟨records', evidence', conflicts', _⟩ := result'
  simp only at hevidence hrecords hconflicts
  subst hevidence hrecords hconflicts
  rfl

end Invariance

/-! ## The envelopes -/

section Envelopes

variable {envelopes receipts : List (RecordEnvelope sha256)}

/-- What two envelopes of one receipt share. -/
def SameReceipt (a b : RecordEnvelope sha256) : Prop :=
  a.receiptId = b.receiptId ∧ a.fingerprint = b.fingerprint

theorem SameReceipt.symm {a b : RecordEnvelope sha256} (h : SameReceipt a b) : SameReceipt b a :=
  ⟨h.1.symm, h.2.symm⟩

theorem SameReceipt.identity_eq {a b : RecordEnvelope sha256} (h : SameReceipt a b) :
    a.identity = b.identity := congrArg Prod.fst h.2

theorem SameReceipt.sourceVersion_eq {a b : RecordEnvelope sha256} (h : SameReceipt a b) :
    a.sourceVersion = b.sourceVersion := congrArg (fun f => f.2.1) h.2

theorem SameReceipt.payloadHash_eq {a b : RecordEnvelope sha256} (h : SameReceipt a b) :
    a.payloadHash = b.payloadHash := congrArg (fun f => f.2.2) h.2

namespace UniqueReceipts

theorem superseded_iff (h : UniqueReceipts envelopes receipts) {e r : RecordEnvelope sha256}
    (hs : SameReceipt r e) : Superseded receipts r ↔ Superseded envelopes e := by
  constructor
  · rintro ⟨f, hf, hi, hv⟩
    exact ⟨f, h.subset f hf, hi.trans hs.identity_eq, hs.sourceVersion_eq ▸ hv⟩
  · rintro ⟨f, hf, hi, hv⟩
    obtain ⟨g, hg, hgf⟩ := h.cover f hf
    have hgf : SameReceipt g f := hgf
    refine ⟨g, hg, (hgf.identity_eq.trans hi).trans hs.identity_eq.symm, ?_⟩
    rw [hs.sourceVersion_eq, hgf.sourceVersion_eq]
    exact hv

theorem contradicted_iff (h : UniqueReceipts envelopes receipts) {e r : RecordEnvelope sha256}
    (hs : SameReceipt r e) : Contradicted receipts r ↔ Contradicted envelopes e := by
  rw [Contradicted, Contradicted, h.superseded_iff hs, hs.identity_eq, hs.sourceVersion_eq,
    hs.payloadHash_eq]
  refine and_congr_right fun _ => ⟨?_, ?_⟩
  · rintro ⟨f, hf, hfe⟩
    exact ⟨f, h.subset f hf, hfe⟩
  · rintro ⟨f, hf, hi, hv, hp⟩
    obtain ⟨g, hg, hgf⟩ := h.cover f hf
    have hgf : SameReceipt g f := hgf
    refine ⟨g, hg, hgf.identity_eq.trans hi, hgf.sourceVersion_eq.trans hv, ?_⟩
    rw [hgf.payloadHash_eq]
    exact hp

theorem hasFirstId_iff (h : UniqueReceipts envelopes receipts) {e r : RecordEnvelope sha256}
    (hs : SameReceipt r e) : HasFirstId receipts r ↔ HasFirstId envelopes e := by
  rw [HasFirstId, HasFirstId, hs.identity_eq, hs.sourceVersion_eq, hs.1]
  constructor
  · intro hr f hf hi hv
    obtain ⟨g, hg, hgf⟩ := h.cover f hf
    have hgf : SameReceipt g f := hgf
    rw [← hgf.1]
    exact hr g hg (hgf.identity_eq.trans hi) (hgf.sourceVersion_eq.trans hv)
  · intro he f hf
    exact he f (h.subset f hf)

theorem disposes_iff (h : UniqueReceipts envelopes receipts) {e r : RecordEnvelope sha256}
    (hs : SameReceipt r e) (d : EvidenceDisposition) :
    Disposes receipts r d ↔ Disposes envelopes e d := by
  cases d <;> simp only [Disposes, h.superseded_iff hs, h.contradicted_iff hs, h.hasFirstId_iff hs]

end UniqueReceipts

def ConflictedIdentity (envelopes : List (RecordEnvelope sha256)) (i : Identity) : Prop :=
  ∃ e ∈ envelopes, e.identity = i ∧ Contradicted envelopes e

/-- The specification of canonicalization, in terms of the envelopes it was given. -/
structure Canonicalizes (envelopes : List (RecordEnvelope sha256))
    (result : CanonicalizationResult) : Prop where
  ids_nodup : (result.evidence.map EvidenceRecord.receiptId).Nodup
  mem_ids : ∀ id, id ∈ result.evidence.map EvidenceRecord.receiptId ↔
    id ∈ envelopes.map RecordEnvelope.receiptId
  fields : ∀ e ∈ envelopes, ∀ v ∈ result.evidence, v.receiptId = e.receiptId →
    (v.identity, v.sourceVersion, v.payloadHash) = e.fingerprint
  stale_iff : ∀ e ∈ envelopes, ∀ v ∈ result.evidence, v.receiptId = e.receiptId →
    (v.disposition = .stale ↔ Superseded envelopes e)
  conflicted_iff : ∀ e ∈ envelopes, ∀ v ∈ result.evidence, v.receiptId = e.receiptId →
    (v.disposition = .conflicted ↔ Contradicted envelopes e)
  accepted_iff : ∀ e ∈ envelopes, ∀ v ∈ result.evidence, v.receiptId = e.receiptId →
    (v.disposition = .accepted ↔
      ¬ Superseded envelopes e ∧ ¬ Contradicted envelopes e ∧ HasFirstId envelopes e)
  duplicate_iff : ∀ e ∈ envelopes, ∀ v ∈ result.evidence, v.receiptId = e.receiptId →
    (v.disposition = .duplicate ↔
      ¬ Superseded envelopes e ∧ ¬ Contradicted envelopes e ∧ ¬ HasFirstId envelopes e)
  one_accepted : ∀ e ∈ envelopes, ¬ ConflictedIdentity envelopes e.identity →
    ∃! v, v ∈ result.evidence ∧ v.identity = e.identity ∧ v.disposition = .accepted
  one_canonical : ∀ e ∈ envelopes, ¬ ConflictedIdentity envelopes e.identity →
    ∃ a ∈ envelopes, a.identity = e.identity ∧ Disposes envelopes a .accepted ∧
      (result.canonicalRecords.filter fun r => r.identity = e.identity) = [a.record]
  canonical_seen : ∀ r ∈ result.canonicalRecords,
    ¬ ConflictedIdentity envelopes r.identity ∧ ∃ e ∈ envelopes, e.record = r
  conflicts_nodup : (result.conflicts.map CanonicalConflict.identity).Nodup
  mem_conflicts : ∀ c, c ∈ result.conflicts ↔
    ∃ e ∈ envelopes, Contradicted envelopes e ∧ conflictOf envelopes e = c

namespace UniqueReceipts

theorem sortedSet_sameVersion {κ : Type*} [LinearOrder κ] (h : UniqueReceipts envelopes receipts)
    {e r : RecordEnvelope sha256} (hs : SameReceipt r e) (key : Text × Text → κ) :
    sortedSet ((sameVersion receipts r).map fun f => key (f.payloadHash, f.receiptId)) =
      sortedSet ((sameVersion envelopes e).map fun f => key (f.payloadHash, f.receiptId)) := by
  apply sortedSet_eq_of_mem
  intro k
  simp only [sameVersion, hs.identity_eq, hs.sourceVersion_eq, List.mem_map, List.mem_filter,
    decide_eq_true_eq]
  constructor
  · rintro ⟨f, ⟨hf, hfe⟩, rfl⟩
    exact ⟨f, ⟨h.subset f hf, hfe⟩, rfl⟩
  · rintro ⟨f, ⟨hf, hi, hv⟩, rfl⟩
    obtain ⟨g, hg, hgf⟩ := h.cover f hf
    have hgf : SameReceipt g f := hgf
    refine ⟨g, ⟨hg, hgf.identity_eq.trans hi, hgf.sourceVersion_eq.trans hv⟩, ?_⟩
    rw [hgf.payloadHash_eq, hgf.1]

theorem conflictOf_eq (h : UniqueReceipts envelopes receipts) {e r : RecordEnvelope sha256}
    (hs : SameReceipt r e) : conflictOf receipts r = conflictOf envelopes e := by
  have hhashes := h.sortedSet_sameVersion hs Prod.fst
  have hids := h.sortedSet_sameVersion hs toLex
  simp only [conflictOf, hs.identity_eq, hs.sourceVersion_eq]
  congr 1
  exact congrArg (List.map fun p => (ofLex p).2) hids

/-- What is decided about one receipt for each ID is decided about the envelopes. -/
theorem canonicalizes (h : UniqueReceipts envelopes receipts) {result : CanonicalizationResult}
    (hspec : CanonicalSpec receipts result) : Canonicalizes envelopes result := by
  have hself : ∀ r : RecordEnvelope sha256, SameReceipt r r := fun r => ⟨rfl, rfl⟩
  -- the evidence record of an envelope carries the disposition that is due to it
  have hdue : ∀ e ∈ envelopes, ∀ v ∈ result.evidence, v.receiptId = e.receiptId →
      (v.identity, v.sourceVersion, v.payloadHash) = e.fingerprint ∧
        ∀ d, v.disposition = d ↔ Disposes envelopes e d := by
    intro e he v hv hid
    obtain ⟨f, hf, d, reason, rfl, hd, -⟩ := hspec.decides v hv
    obtain ⟨r, hr, hre⟩ := h.cover e he
    have hfe : SameReceipt f e := by
      rw [List.inj_on_of_nodup_map h.ids_nodup hf hr (hid.trans hre.1.symm)]
      exact hre
    refine ⟨hfe.2, fun d' => ?_⟩
    rw [← h.disposes_iff hfe]
    constructor
    · rintro rfl
      exact hd
    · exact hd.unique
  have hdispose : ∀ e ∈ envelopes, ¬ ConflictedIdentity envelopes e.identity →
      ∃ a ∈ receipts, a.identity = e.identity ∧ Disposes receipts a .accepted := by
    intro e he hn
    obtain ⟨r, hr, hre⟩ := h.cover e he
    have hre : SameReceipt r e := hre
    obtain ⟨a, ha, hi, haccepted | hc⟩ := exists_accepted_or_contradicted hr
    · exact ⟨a, ha, hi.trans hre.identity_eq, haccepted⟩
    · exact absurd ⟨a, h.subset a ha, hi.trans hre.identity_eq,
        (h.contradicted_iff (hself a)).mp hc⟩ hn
  refine ⟨hspec.evidence_nodup h.ids_nodup, ?_, fun e he v hv hid => (hdue e he v hv hid).1,
    fun e he v hv hid => (hdue e he v hv hid).2 .stale,
    fun e he v hv hid => (hdue e he v hv hid).2 .conflicted,
    fun e he v hv hid => (hdue e he v hv hid).2 .accepted,
    fun e he v hv hid => (hdue e he v hv hid).2 .duplicate, ?_, ?_, ?_,
    hspec.conflicts_nodup, ?_⟩
  · intro id
    rw [hspec.ids_perm.mem_iff, List.mem_map, List.mem_map]
    constructor
    · rintro ⟨r, hr, rfl⟩
      exact ⟨r, h.subset r hr, rfl⟩
    · rintro ⟨e, he, rfl⟩
      obtain ⟨r, hr, hre⟩ := h.cover e he
      exact ⟨r, hr, hre.1⟩
  · intro e he hn
    obtain ⟨a, ha, hi, haccepted⟩ := hdispose e he hn
    refine ⟨evidenceRecord a .accepted (.selected a.sourceVersion), ⟨?_, hi, rfl⟩, ?_⟩
    · exact (hspec.mem_evidence h.ids_nodup).mpr ⟨a, ha, _, _, rfl, haccepted, rfl⟩
    · rintro v ⟨hv, hvi, hvd⟩
      obtain ⟨b, hb, d, reason, rfl, hbd, hbr⟩ := hspec.decides v hv
      obtain rfl : d = .accepted := hvd
      have hab := accepted_id_unique ha hb (hvi.trans hi.symm) haccepted hbd
      obtain rfl := List.inj_on_of_nodup_map h.ids_nodup hb ha hab
      exact congrArg _ (hbr.unique rfl)
  · intro e he hn
    obtain ⟨a, ha, hi, haccepted⟩ := hdispose e he hn
    refine ⟨a, h.subset a ha, hi, (h.disposes_iff (hself a) _).mp haccepted, ?_⟩
    have hm : a.record ∈ result.canonicalRecords :=
      (hspec.mem_canonicalRecords _).mpr ⟨a, ha, haccepted, rfl⟩
    rw [← hi]
    exact PyDict.filter_key_eq_singleton result.identities_nodup hm
  · intro r hr
    obtain ⟨a, ha, haccepted, rfl⟩ := (hspec.mem_canonicalRecords r).mp hr
    refine ⟨?_, a, h.subset a ha, rfl⟩
    rintro ⟨e, he, hei, hs, f, hf, hfe⟩
    -- the contradicted version is the accepted one, so it contradicts the accepted receipt
    have haccepted := (h.disposes_iff (hself a) _).mp haccepted
    have hv := version_eq_of_not_superseded he (h.subset a ha) hei.symm hs haccepted.1
    apply haccepted.2.1
    refine ⟨haccepted.1, ?_⟩
    by_cases hp : f.payloadHash = a.payloadHash
    · exact ⟨e, he, hei, hv.symm, fun hp' => hfe.2.2 (hp.trans hp'.symm)⟩
    · exact ⟨f, hf, hfe.1.trans hei, hfe.2.1.trans hv.symm, hp⟩
  · intro c
    rw [hspec.mem_conflicts]
    constructor
    · rintro ⟨e, he, hc, rfl⟩
      exact ⟨e, h.subset e he, (h.contradicted_iff (hself e)).mp hc,
        (h.conflictOf_eq (hself e)).symm⟩
    · rintro ⟨e, he, hc, rfl⟩
      obtain ⟨r, hr, hre⟩ := h.cover e he
      exact ⟨r, hr, (h.contradicted_iff hre).mpr hc, h.conflictOf_eq hre⟩

end UniqueReceipts

/-- The envelopes of two lists with the same members have the same results. -/
theorem canonicalize_ok_congr {envelopes others : List (RecordEnvelope sha256)}
    (htell : HashTellsReplays envelopes) (hothers : ∀ e, e ∈ others ↔ e ∈ envelopes) (result : CanonicalizationResult) :
    canonicalize others = .ok result ↔ canonicalize envelopes = .ok result := by
  have htell' : HashTellsReplays others := by
    simpa only [HashTellsReplays, hothers] using htell
  have hsame : ∀ result result', canonicalize envelopes = .ok result →
      canonicalize others = .ok result' → result' = result := by
    intro result result' h h'
    obtain ⟨receipts, hunique, hspec⟩ := canonicalize_ok h
    obtain ⟨receipts', hunique', hspec'⟩ := canonicalize_ok h'
    refine hspec.unique hspec' hunique.ids_nodup hunique'.ids_nodup fun e => ?_
    rw [hunique'.mem_iff htell', hunique.mem_iff htell, hothers]
  have hagree : (∃ result, canonicalize others = .ok result) ↔
      ∃ result, canonicalize envelopes = .ok result := by
    rw [canonicalize_ok_iff, canonicalize_ok_iff]
    simp only [ReceiptsAgree, hothers]
  constructor
  · intro h
    obtain ⟨result', h'⟩ := hagree.mp ⟨result, h⟩
    rw [hsame result' result h' h, h']
  · intro h
    obtain ⟨result', h'⟩ := hagree.mpr ⟨result, h⟩
    rw [← hsame result result' h h', h']

/-- Canonicalization rejects exactly the receipt IDs that refer to two source records, meets its
specification otherwise, and depends only on the set of envelopes. -/
theorem canonicalize_correct (envelopes : List (RecordEnvelope sha256))
    (hinj : Set.InjOn sha256
      {bytes | ∃ e ∈ envelopes, canonicalRecordBytes e.record = some bytes}) :
    ((∃ id, canonicalize envelopes = .error (.receiptConflict id)) ↔
      ∃ a ∈ envelopes, ∃ b ∈ envelopes, a.receiptId = b.receiptId ∧
        a.fingerprint ≠ b.fingerprint) ∧
    ((∃ result, canonicalize envelopes = .ok result) ↔
      ¬ ∃ id, canonicalize envelopes = .error (.receiptConflict id)) ∧
    (∀ result, canonicalize envelopes = .ok result → Canonicalizes envelopes result) ∧
    ∀ others, (∀ e, e ∈ others ↔ e ∈ envelopes) →
      ∀ result, canonicalize others = .ok result ↔ canonicalize envelopes = .ok result := by
  have hok : (∃ result, canonicalize envelopes = .ok result) ↔
      ¬ ∃ id, canonicalize envelopes = .error (.receiptConflict id) := by
    cases h : canonicalize envelopes with
    | ok result => simp
    | error err =>
      obtain ⟨id, rfl⟩ := canonicalize_error h
      simp
  refine ⟨?_, hok, ?_, ?_⟩
  · rw [← not_iff_not, ← hok, canonicalize_ok_iff]
    simp only [ReceiptsAgree, not_exists, not_and, not_not]
  · intro result h
    obtain ⟨receipts, hunique, hspec⟩ := canonicalize_ok h
    exact hunique.canonicalizes hspec
  · exact fun others hothers =>
      canonicalize_ok_congr (hashTellsReplays_of_injOn hinj) hothers

end Envelopes

/-! ## A corrected order -/

def correctedOrder (version : ℤ) (status : OrderStatus) : FinancialRecord :=
  .order {
    sourceVersion := version
    orderId := txt "ORD-1"
    createdAtUtc := ⟨⟨2026, 9, 14, by decide, by decide, by decide, by decide, by decide,
      by decide⟩, 0⟩
    status := status
    currency := eur
    orderTotal := 1000
  }

/-- Both versions of the order, and a repeated receipt of the second. -/
def correctedOrderReceipts : DigestTable where
  rows :=
    [⟨txt "orders.json:1", correctedOrder 1 .paymentPending,
        txt "31e73cd1749241d497f696718e655bd043e58f5a000b885c15442c2e7eead1c5"⟩,
     ⟨txt "orders.json:2", correctedOrder 2 .paid,
        txt "9693f587bf39b29d64eb7af10ceda1aa2e098829877e473dfa291388c13d5038"⟩,
     ⟨txt "orders.json:3", correctedOrder 2 .paid,
        txt "9693f587bf39b29d64eb7af10ceda1aa2e098829877e473dfa291388c13d5038"⟩]
  digest_iff := by decide +kernel
  receiptIds := by decide +kernel
  encodable := by decide +kernel

/-- The receipts of the order are classified, in either order of arrival. -/
theorem canonicalize_correct_corrected_order :
    (∃ result, canonicalize correctedOrderReceipts.envelopes = .ok result ∧
      Canonicalizes correctedOrderReceipts.envelopes result) ∧
    ∀ result, canonicalize correctedOrderReceipts.envelopes.reverse = .ok result ↔
      canonicalize correctedOrderReceipts.envelopes = .ok result := by
  obtain ⟨-, -, hspec, hsame⟩ :=
    canonicalize_correct correctedOrderReceipts.envelopes DigestTable.envelopes_injOn
  refine ⟨?_, hsame _ fun e => List.mem_reverse⟩
  cases hresult : canonicalize correctedOrderReceipts.envelopes with
  | ok result => exact ⟨result, rfl, hspec result hresult⟩
  | error err =>
    have hok : (canonicalize correctedOrderReceipts.envelopes).isOk = true := by decide +kernel
    rw [hresult] at hok
    cases hok

end Threadline
