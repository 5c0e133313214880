import Mathlib.Data.List.Perm.Basic
import Threadline.Canonicalize

/-!
# One round of canonicalization

The disposition of a receipt in terms of the receipts seen with it: a higher
version supersedes it, another payload of its version contradicts it, and the
smallest receipt ID represents what is left. A round of the loop gives the
receipts of one identity these dispositions.
-/

open PyText PySorted

namespace Threadline

variable {sha256 : Bytes → Text}

/-! ## Dispositions -/

/-- A higher version of the identity was seen. -/
def Superseded (receipts : List (RecordEnvelope sha256)) (e : RecordEnvelope sha256) : Prop :=
  ∃ f ∈ receipts, f.identity = e.identity ∧ e.sourceVersion < f.sourceVersion

/-- Another payload of the same version was seen, and no higher version. -/
def Contradicted (receipts : List (RecordEnvelope sha256)) (e : RecordEnvelope sha256) : Prop :=
  ¬ Superseded receipts e ∧ ∃ f ∈ receipts, f.identity = e.identity ∧
    f.sourceVersion = e.sourceVersion ∧ f.payloadHash ≠ e.payloadHash

/-- No receipt of the same version has a smaller receipt ID. -/
def HasFirstId (receipts : List (RecordEnvelope sha256)) (e : RecordEnvelope sha256) : Prop :=
  ∀ f ∈ receipts, f.identity = e.identity → f.sourceVersion = e.sourceVersion →
    e.receiptId ≤ f.receiptId

/-- The receipts with which a disposition is given. -/
def Disposes (receipts : List (RecordEnvelope sha256)) (e : RecordEnvelope sha256) :
    EvidenceDisposition → Prop
  | .stale => Superseded receipts e
  | .conflicted => Contradicted receipts e
  | .accepted => ¬ Superseded receipts e ∧ ¬ Contradicted receipts e ∧ HasFirstId receipts e
  | .duplicate => ¬ Superseded receipts e ∧ ¬ Contradicted receipts e ∧ ¬ HasFirstId receipts e
  | .quarantined => False

/-- The receipts of the same identity and version. -/
def sameVersion (receipts : List (RecordEnvelope sha256)) (e : RecordEnvelope sha256) :
    List (RecordEnvelope sha256) :=
  receipts.filter fun f => f.identity = e.identity ∧ f.sourceVersion = e.sourceVersion

/-- The reason that goes with a disposition. -/
def Explains (receipts : List (RecordEnvelope sha256)) (e : RecordEnvelope sha256) :
    EvidenceDisposition → EvidenceReason → Prop
  | .stale, .superseded version winningVersion => version = e.sourceVersion ∧
      ∃ f ∈ receipts, f.identity = e.identity ∧ ¬ Superseded receipts f ∧
        winningVersion = f.sourceVersion
  | .conflicted, .differentPayloads version payloads => version = e.sourceVersion ∧
      payloads = (sortedSet ((sameVersion receipts e).map RecordEnvelope.payloadHash)).length
  | .accepted, .selected version => version = e.sourceVersion
  | .duplicate, .duplicates acceptedReceiptId => ∃ f ∈ receipts, f.identity = e.identity ∧
      Disposes receipts f .accepted ∧ acceptedReceiptId = f.receiptId
  | _, _ => False

/-- The conflict that a contradicted receipt belongs to. -/
def conflictOf (receipts : List (RecordEnvelope sha256)) (e : RecordEnvelope sha256) :
    CanonicalConflict where
  identity := e.identity
  sourceVersion := e.sourceVersion
  payloadHashes := sortedSet ((sameVersion receipts e).map RecordEnvelope.payloadHash)
  receiptIds := (sortedSet ((sameVersion receipts e).map fun f =>
    toLex (f.payloadHash, f.receiptId))).map fun p => (ofLex p).2

theorem Disposes.unique {receipts : List (RecordEnvelope sha256)} {e : RecordEnvelope sha256}
    {d d' : EvidenceDisposition} (h : Disposes receipts e d) (h' : Disposes receipts e d') :
    d = d' := by
  have hc : Contradicted receipts e → ¬ Superseded receipts e := And.left
  cases d <;> cases d' <;> simp only [Disposes] at h h' <;> tauto

/-! ## One group -/

theorem length_gt_one_iff {κ : Type*} {ks : List κ} (hn : ks.Nodup) :
    ks.length > 1 ↔ ∃ a ∈ ks, ∃ b ∈ ks, a ≠ b := by
  match ks, hn with
  | [], _ => simp
  | [a], _ => simp
  | a :: b :: rest, hn =>
    refine iff_of_true (by simp) ⟨a, by simp, b, by simp, ?_⟩
    rintro rfl
    exact (List.nodup_cons.mp hn).1 List.mem_cons_self

/-- A version has several buckets when two of its receipts differ in their payload. -/
theorem groupBy_keys_length_gt_one {winning : List (RecordEnvelope sha256)} :
    (PyDict.groupBy RecordEnvelope.payloadHash winning).keys.length > 1 ↔
      ∃ a ∈ winning, ∃ b ∈ winning, a.payloadHash ≠ b.payloadHash := by
  rw [length_gt_one_iff (PyDict.nodup_keys _)]
  constructor
  · rintro ⟨x, hx, y, hy, hxy⟩
    obtain ⟨a, ha, rfl⟩ := PyDict.mem_keys_groupBy.mp hx
    obtain ⟨b, hb, rfl⟩ := PyDict.mem_keys_groupBy.mp hy
    exact ⟨a, ha, b, hb, hxy⟩
  · rintro ⟨a, ha, b, hb, hab⟩
    exact ⟨_, PyDict.mem_keys_groupBy.mpr ⟨a, ha, rfl⟩, _,
      PyDict.mem_keys_groupBy.mpr ⟨b, hb, rfl⟩, hab⟩

/-- A single bucket holds every receipt of its version. -/
theorem groupBy_values_headD {winning : List (RecordEnvelope sha256)}
    (h : ¬ (PyDict.groupBy RecordEnvelope.payloadHash winning).keys.length > 1) :
    ((PyDict.groupBy RecordEnvelope.payloadHash winning).values.headD []).Perm winning := by
  have hp := groupBy_values_flatten_perm winning
  have hlen : (PyDict.groupBy RecordEnvelope.payloadHash winning).values.length ≤ 1 := by
    rw [PyDict.keys, List.length_map] at h
    rw [PyDict.values, List.length_map]
    omega
  rcases hv : (PyDict.groupBy RecordEnvelope.payloadHash winning).values with _ | ⟨bucket, rest⟩
  · simpa [hv] using hp
  · obtain rfl : rest = [] := by simpa [hv] using hlen
    simpa [hv] using hp

theorem staleEvidence_perm (group : List (RecordEnvelope sha256)) (w : ℤ) :
    (staleEvidence (versionsOf group) w).Perm
      ((group.filter fun e => e.sourceVersion ≠ w).map fun e =>
        evidenceRecord e .stale (.superseded e.sourceVersion w)) := by
  -- the buckets of one version hold the receipts of that version
  have hversion : ∀ v, ((sortedBy id ((versionsOf group).getD v ∅).keys).flatMap fun payloadHash =>
      (sortedBy RecordEnvelope.receiptId (((versionsOf group).getD v ∅).getD payloadHash [])).map
        fun e => evidenceRecord e .stale (.superseded v w)).Perm
      ((group.filter fun e => e.sourceVersion = v).map fun e =>
        evidenceRecord e .stale (.superseded v w)) := by
    intro v
    rw [versionsOf_getD, ← List.map_flatMap]
    apply List.Perm.map
    simp only [PyDict.getD_groupBy]
    refine (List.Perm.flatMap_left _ fun h _ => sortedBy_perm _ _).trans ?_
    apply PyDict.flatMap_filter_perm
    · exact sortedBy_nodup id (PyDict.keys_nodup _)
    · intro e he
      exact (mem_sortedBy _).mpr (PyDict.mem_keys_groupBy.mpr ⟨e, he, rfl⟩)
  have hstep : ∀ v, (if v = w then []
      else (sortedBy id ((versionsOf group).getD v ∅).keys).flatMap fun payloadHash =>
        (sortedBy RecordEnvelope.receiptId (((versionsOf group).getD v ∅).getD payloadHash [])).map
          fun e => evidenceRecord e .stale (.superseded v w)).Perm
      (((group.filter fun e => e.sourceVersion ≠ w).filter fun e => e.sourceVersion = v).map
        fun e => evidenceRecord e .stale (.superseded e.sourceVersion w)) := by
    intro v
    split_ifs with hv
    · subst hv
      rw [List.filter_filter, List.filter_eq_nil_iff.mpr (by simp)]
      exact List.Perm.refl _
    · refine (hversion v).trans (List.Perm.of_eq ?_)
      have hf : ((group.filter fun e => e.sourceVersion ≠ w).filter fun e => e.sourceVersion = v) =
          group.filter fun e => e.sourceVersion = v := by
        rw [List.filter_filter]
        refine List.filter_congr fun e _ => ?_
        by_cases he : e.sourceVersion = v
        · simp [he, hv]
        · simp [he]
      rw [hf]
      refine List.map_congr_left fun e he => ?_
      have he : e.sourceVersion = v := by simpa using (List.mem_filter.mp he).2
      rw [he]
  refine (List.Perm.flatMap_left _ fun v _ => hstep v).trans ?_
  rw [← List.map_flatMap]
  apply List.Perm.map
  apply PyDict.flatMap_filter_perm
  · exact sortedBy_nodup id (versionsOf group).keys_nodup
  · intro e he
    exact (mem_sortedBy _).mpr (mem_versionsOf_keys.mpr ⟨e, List.mem_of_mem_filter he, rfl⟩)

theorem conflictingEnvelopes_perm (winning : List (RecordEnvelope sha256)) :
    (conflictingEnvelopes (PyDict.groupBy RecordEnvelope.payloadHash winning)).Perm winning :=
  (sortedBy_perm _ _).trans (groupBy_values_flatten_perm winning)

/-- Receipts of the version `w` in a group. -/
def atVersion (group : List (RecordEnvelope sha256)) (w : ℤ) : List (RecordEnvelope sha256) :=
  group.filter fun e => e.sourceVersion = w

theorem mem_atVersion {group : List (RecordEnvelope sha256)} {w : ℤ} {e : RecordEnvelope sha256} :
    e ∈ atVersion group w ↔ e ∈ group ∧ e.sourceVersion = w := by
  simp [atVersion]

/-- The two ways a round ends: a contradicted winning version, or an accepted receipt and its
duplicates. -/
inductive RoundResult (i : Identity) (group : List (RecordEnvelope sha256)) (w : ℤ) :
    IdentityOutcome → Prop
  | conflicted (evidence : List (RecordEnvelope sha256)) (hashes : List Text)
      (differ : ∃ a ∈ atVersion group w, ∃ b ∈ atVersion group w, a.payloadHash ≠ b.payloadHash)
      (perm : evidence.Perm (atVersion group w))
      (sorted : evidence.Pairwise fun a b =>
        toLex (a.payloadHash, a.receiptId) ≤ toLex (b.payloadHash, b.receiptId))
      (hashes_eq : hashes = sortedSet ((atVersion group w).map RecordEnvelope.payloadHash)) :
      RoundResult i group w ⟨[], staleEvidence (versionsOf group) w ++
        evidence.map (fun e => evidenceRecord e .conflicted (.differentPayloads w hashes.length)),
        [⟨i, w, hashes, evidence.map RecordEnvelope.receiptId⟩]⟩
  | accepted (e : RecordEnvelope sha256) (duplicates : List (RecordEnvelope sha256))
      (agree : ∀ a ∈ atVersion group w, ∀ b ∈ atVersion group w, a.payloadHash = b.payloadHash)
      (perm : (e :: duplicates).Perm (atVersion group w))
      (first : ∀ f ∈ atVersion group w, e.receiptId ≤ f.receiptId) :
      RoundResult i group w ⟨[e.record], staleEvidence (versionsOf group) w ++
        evidenceRecord e .accepted (.selected w) ::
          duplicates.map (fun d => evidenceRecord d .duplicate (.duplicates e.receiptId)), []⟩

theorem winningVersion_eq {group : List (RecordEnvelope sha256)} {w : ℤ}
    (h : (versionsOf group).keys.max? = some w) :
    (∃ e ∈ group, e.sourceVersion = w) ∧ ∀ e ∈ group, e.sourceVersion ≤ w := by
  obtain ⟨hw, hle⟩ := List.max?_eq_some_iff.mp h
  refine ⟨mem_versionsOf_keys.mp hw, fun e he => ?_⟩
  exact hle _ (mem_versionsOf_keys.mpr ⟨e, he, rfl⟩)

theorem winningVersion_isSome {group : List (RecordEnvelope sha256)} (hne : group ≠ []) :
    ∃ w, (versionsOf group).keys.max? = some w := by
  obtain ⟨e, he⟩ := List.exists_mem_of_ne_nil group hne
  have hk : (versionsOf group).keys ≠ [] :=
    List.ne_nil_of_mem (mem_versionsOf_keys.mpr ⟨e, he, rfl⟩)
  cases h : (versionsOf group).keys.max? with
  | none => exact absurd (List.max?_eq_none_iff.mp h) hk
  | some w => exact ⟨w, rfl⟩

theorem identityOutcome_result {group : List (RecordEnvelope sha256)} {w : ℤ}
    (h : (versionsOf group).keys.max? = some w) (i : Identity) :
    RoundResult i group w (identityOutcome i (versionsOf group)) := by
  obtain ⟨⟨top, htop, htopv⟩, -⟩ := winningVersion_eq h
  have hbuckets := versionsOf_getD group w
  rw [← atVersion] at hbuckets
  unfold identityOutcome
  simp only [h, hbuckets]
  split_ifs with hlen
  · rw [conflictOutcome, ← sortedBy_length id (PyDict.groupBy _ _).keys]
    refine .conflicted _ _ (groupBy_keys_length_gt_one.mp hlen) (conflictingEnvelopes_perm _)
      (sortedBy_pairwise _ _) ?_
    apply sortedBy_id_eq_sortedSet (PyDict.nodup_keys _)
    intro payloadHash
    rw [PyDict.mem_keys_groupBy, List.mem_map]
  · have hagree : ∀ a ∈ atVersion group w, ∀ b ∈ atVersion group w,
        a.payloadHash = b.payloadHash := by
      intro a ha b hb
      by_contra hab
      exact hlen (groupBy_keys_length_gt_one.mpr ⟨a, ha, b, hb, hab⟩)
    have hp := (sortedBy_perm RecordEnvelope.receiptId _).trans (groupBy_values_headD hlen)
    unfold acceptedOutcome
    split
    next hnil =>
      rw [hnil] at hp
      exact absurd (hp.mem_iff.mpr (mem_atVersion.mpr ⟨htop, htopv⟩)) List.not_mem_nil
    next e duplicates hcons =>
      rw [hcons] at hp
      refine .accepted e duplicates hagree hp fun f hf => ?_
      exact sortedBy_head_le _ hcons f ((groupBy_values_headD hlen).mem_iff.mpr hf)

section Round

variable {i : Identity} {group : List (RecordEnvelope sha256)} {w : ℤ} {outcome : IdentityOutcome}

theorem stale_ids_perm : ((staleEvidence (versionsOf group) w).map EvidenceRecord.receiptId).Perm
    ((group.filter fun e => !decide (e.sourceVersion = w)).map RecordEnvelope.receiptId) := by
  have hp := (staleEvidence_perm group w).map EvidenceRecord.receiptId
  rw [List.map_map] at hp
  simp only [ne_eq, decide_not] at hp
  exact hp

/-- A round gives every receipt of the group one evidence record. -/
theorem RoundResult.ids_perm (h : RoundResult i group w outcome) :
    (outcome.evidence.map EvidenceRecord.receiptId).Perm
      (group.map RecordEnvelope.receiptId) := by
  have hsplit := (List.filter_append_perm (fun e => decide (e.sourceVersion = w)) group).map
    RecordEnvelope.receiptId
  rw [List.map_append] at hsplit
  refine List.Perm.trans ?_ (List.perm_append_comm.trans hsplit)
  cases h with
  | conflicted evidence hashes differ perm sorted hashes_eq =>
    rw [List.map_append]
    refine stale_ids_perm.append ?_
    rw [List.map_map]
    exact perm.map RecordEnvelope.receiptId
  | accepted e duplicates agree perm first =>
    rw [List.map_append]
    refine stale_ids_perm.append ?_
    rw [List.map_cons, List.map_map]
    exact perm.map RecordEnvelope.receiptId

/-- The receipts of one identity, and their highest version. -/
structure IsGroup (receipts : List (RecordEnvelope sha256)) (i : Identity)
    (group : List (RecordEnvelope sha256)) (w : ℤ) : Prop where
  eq : group = receipts.filter fun e => e.identity = i
  attained : ∃ e ∈ group, e.sourceVersion = w
  highest : ∀ e ∈ group, e.sourceVersion ≤ w

variable {receipts : List (RecordEnvelope sha256)}

namespace IsGroup

theorem mem (hg : IsGroup receipts i group w) (e : RecordEnvelope sha256) :
    e ∈ group ↔ e ∈ receipts ∧ e.identity = i := by
  rw [hg.eq]
  simp

theorem ids_nodup (hg : IsGroup receipts i group w)
    (hids : (receipts.map RecordEnvelope.receiptId).Nodup) :
    ((atVersion group w).map RecordEnvelope.receiptId).Nodup := by
  rw [atVersion, hg.eq, List.filter_filter]
  exact hids.sublist (List.filter_sublist.map _)

theorem superseded_iff (hg : IsGroup receipts i group w) {e : RecordEnvelope sha256}
    (he : e ∈ group) : Superseded receipts e ↔ e.sourceVersion ≠ w := by
  have hi := ((hg.mem e).mp he).2
  constructor
  · rintro ⟨f, hf, hfi, hlt⟩
    have hle := hg.highest f ((hg.mem f).mpr ⟨hf, hfi.trans hi⟩)
    omega
  · intro hne
    obtain ⟨f, hf, rfl⟩ := hg.attained
    obtain ⟨hfr, hfi⟩ := (hg.mem f).mp hf
    exact ⟨f, hfr, hfi.trans hi.symm, lt_of_le_of_ne (hg.highest e he) hne⟩

theorem mem_atVersion_iff (hg : IsGroup receipts i group w) {e f : RecordEnvelope sha256}
    (he : e ∈ atVersion group w) : f ∈ atVersion group w ↔
      f ∈ receipts ∧ f.identity = e.identity ∧ f.sourceVersion = e.sourceVersion := by
  obtain ⟨he, hw⟩ := mem_atVersion.mp he
  rw [mem_atVersion, hg.mem, hw, ((hg.mem e).mp he).2, and_assoc]

theorem contradicted_iff (hg : IsGroup receipts i group w) {e : RecordEnvelope sha256}
    (he : e ∈ atVersion group w) : Contradicted receipts e ↔
      ∃ f ∈ atVersion group w, f.payloadHash ≠ e.payloadHash := by
  have hs : ¬ Superseded receipts e := by
    rw [hg.superseded_iff (mem_atVersion.mp he).1]
    exact not_not.mpr (mem_atVersion.mp he).2
  simp only [Contradicted, hs, not_false_eq_true, true_and, hg.mem_atVersion_iff he, and_assoc]

theorem hasFirstId_iff (hg : IsGroup receipts i group w) {e : RecordEnvelope sha256}
    (he : e ∈ atVersion group w) : HasFirstId receipts e ↔
      ∀ f ∈ atVersion group w, e.receiptId ≤ f.receiptId := by
  simp only [HasFirstId, hg.mem_atVersion_iff he, and_imp]

end IsGroup

theorem IsGroup.sameVersion_eq (hg : IsGroup receipts i group w) {e : RecordEnvelope sha256}
    (he : e ∈ atVersion group w) : sameVersion receipts e = atVersion group w := by
  obtain ⟨he, hw⟩ := mem_atVersion.mp he
  rw [atVersion, hg.eq, List.filter_filter, sameVersion, hw, ((hg.mem e).mp he).2]
  simp only [Bool.decide_and, Bool.and_comm]

theorem IsGroup.not_superseded (hg : IsGroup receipts i group w) {e : RecordEnvelope sha256}
    (he : e ∈ atVersion group w) : ¬ Superseded receipts e := by
  rw [hg.superseded_iff (mem_atVersion.mp he).1]
  exact not_not.mpr (mem_atVersion.mp he).2

theorem IsGroup.mem_atVersion_of_not_superseded (hg : IsGroup receipts i group w)
    {e : RecordEnvelope sha256} (he : e ∈ group) (hs : ¬ Superseded receipts e) :
    e ∈ atVersion group w := by
  rw [hg.superseded_iff he] at hs
  exact mem_atVersion.mpr ⟨he, not_not.mp hs⟩

/-- What a round says about one of its receipts. -/
def Decides (receipts group : List (RecordEnvelope sha256)) (v : EvidenceRecord) : Prop :=
  ∃ e ∈ group, ∃ d reason,
    v = evidenceRecord e d reason ∧ Disposes receipts e d ∧ Explains receipts e d reason

theorem staleEvidence_decides (hg : IsGroup receipts i group w) {v : EvidenceRecord}
    (hv : v ∈ staleEvidence (versionsOf group) w) : Decides receipts group v := by
  obtain ⟨e, he, rfl⟩ := List.mem_map.mp ((staleEvidence_perm group w).mem_iff.mp hv)
  obtain ⟨he, hw⟩ := List.mem_filter.mp he
  obtain ⟨f, hf, hfw⟩ := hg.attained
  refine ⟨e, he, _, _, rfl, (hg.superseded_iff he).mpr (by simpa using hw), rfl, f,
    ((hg.mem f).mp hf).1, ?_, hg.not_superseded (mem_atVersion.mpr ⟨hf, hfw⟩), hfw.symm⟩
  rw [((hg.mem f).mp hf).2, ((hg.mem e).mp he).2]

/-- A version with two payloads contradicts each of its receipts. -/
theorem IsGroup.contradicted_of_differ (hg : IsGroup receipts i group w)
    (differ : ∃ a ∈ atVersion group w, ∃ b ∈ atVersion group w, a.payloadHash ≠ b.payloadHash)
    {e : RecordEnvelope sha256} (he : e ∈ atVersion group w) : Contradicted receipts e := by
  obtain ⟨a, ha, b, hb, hab⟩ := differ
  rw [hg.contradicted_iff he]
  by_cases hae : a.payloadHash = e.payloadHash
  · exact ⟨b, hb, fun hbe => hab (hae.trans hbe.symm)⟩
  · exact ⟨a, ha, hae⟩

theorem IsGroup.not_contradicted_of_agree (hg : IsGroup receipts i group w)
    (agree : ∀ a ∈ atVersion group w, ∀ b ∈ atVersion group w, a.payloadHash = b.payloadHash)
    {e : RecordEnvelope sha256} (he : e ∈ atVersion group w) : ¬ Contradicted receipts e := by
  rw [hg.contradicted_iff he]
  rintro ⟨f, hf, hne⟩
  exact hne (agree f hf e he)

/-- The receipt with the first ID is the only one. -/
theorem IsGroup.eq_of_first (hg : IsGroup receipts i group w)
    (hids : (receipts.map RecordEnvelope.receiptId).Nodup) {e f : RecordEnvelope sha256}
    (he : e ∈ atVersion group w) (hf : f ∈ atVersion group w)
    (first : ∀ g ∈ atVersion group w, e.receiptId ≤ g.receiptId) (hfirst : HasFirstId receipts f) :
    f = e := by
  rw [hg.hasFirstId_iff hf] at hfirst
  exact List.inj_on_of_nodup_map (hg.ids_nodup hids) hf he
    (le_antisymm (hfirst e he) (first f hf))

/-- Every evidence record of a round gives its receipt the disposition it is due. -/
theorem RoundResult.decides (h : RoundResult i group w outcome) (hg : IsGroup receipts i group w)
    (hids : (receipts.map RecordEnvelope.receiptId).Nodup) {v : EvidenceRecord}
    (hv : v ∈ outcome.evidence) : Decides receipts group v := by
  cases h with
  | conflicted evidence hashes differ perm sorted hashes_eq =>
    rcases List.mem_append.mp hv with hv | hv
    · exact staleEvidence_decides hg hv
    · obtain ⟨e, he, rfl⟩ := List.mem_map.mp hv
      have he := perm.mem_iff.mp he
      have hw := (mem_atVersion.mp he).2
      refine ⟨e, (mem_atVersion.mp he).1, _, _, rfl, hg.contradicted_of_differ differ he, hw.symm, ?_⟩
      rw [hg.sameVersion_eq he, hashes_eq]
  | accepted e duplicates agree perm first =>
    have he := perm.mem_iff.mp List.mem_cons_self
    have haccepted : Disposes receipts e .accepted := ⟨hg.not_superseded he,
      hg.not_contradicted_of_agree agree he, (hg.hasFirstId_iff he).mpr first⟩
    rcases List.mem_append.mp hv with hv | hv
    · exact staleEvidence_decides hg hv
    · rcases List.mem_cons.mp hv with rfl | hv
      · exact ⟨e, (mem_atVersion.mp he).1, _, _, rfl, haccepted, (mem_atVersion.mp he).2.symm⟩
      · obtain ⟨d, hd, rfl⟩ := List.mem_map.mp hv
        have hdw := perm.mem_iff.mp (List.mem_cons_of_mem e hd)
        have her := (hg.mem e).mp (mem_atVersion.mp he).1
        have hdr := (hg.mem d).mp (mem_atVersion.mp hdw).1
        refine ⟨d, (mem_atVersion.mp hdw).1, _, _, rfl, ⟨hg.not_superseded hdw,
          hg.not_contradicted_of_agree agree hdw, fun hfirst => ?_⟩,
          e, her.1, her.2.trans hdr.2.symm, haccepted, rfl⟩
        -- a duplicate with the first receipt ID would be the accepted receipt itself
        have hn : (e :: duplicates).Nodup :=
          perm.nodup_iff.mpr ((hg.ids_nodup hids).of_map RecordEnvelope.receiptId)
        exact (List.nodup_cons.mp hn).1 (hg.eq_of_first hids he hdw first hfirst ▸ hd)

/-- The canonical record of a round is that of the accepted receipt. -/
theorem RoundResult.mem_canonicalRecords (h : RoundResult i group w outcome)
    (hg : IsGroup receipts i group w) (hids : (receipts.map RecordEnvelope.receiptId).Nodup)
    {r : FinancialRecord} : r ∈ outcome.canonicalRecords ↔
      ∃ e ∈ group, Disposes receipts e .accepted ∧ e.record = r := by
  cases h with
  | conflicted evidence hashes differ perm sorted hashes_eq =>
    refine iff_of_false List.not_mem_nil ?_
    rintro ⟨e, he, ⟨hs, hc, -⟩, -⟩
    exact hc (hg.contradicted_of_differ differ (hg.mem_atVersion_of_not_superseded he hs))
  | accepted e duplicates agree perm first =>
    have he := perm.mem_iff.mp List.mem_cons_self
    rw [List.mem_singleton]
    constructor
    · rintro rfl
      exact ⟨e, (mem_atVersion.mp he).1, ⟨hg.not_superseded he,
        hg.not_contradicted_of_agree agree he, (hg.hasFirstId_iff he).mpr first⟩, rfl⟩
    · rintro ⟨f, hf, ⟨hs, -, hfirst⟩, rfl⟩
      rw [hg.eq_of_first hids he (hg.mem_atVersion_of_not_superseded hf hs) first hfirst]

/-- A round reports the conflict of its contradicted receipts. -/
theorem RoundResult.mem_conflicts (h : RoundResult i group w outcome)
    (hg : IsGroup receipts i group w) (hids : (receipts.map RecordEnvelope.receiptId).Nodup)
    {c : CanonicalConflict} : c ∈ outcome.conflicts ↔
      ∃ e ∈ group, Contradicted receipts e ∧ conflictOf receipts e = c := by
  cases h with
  | conflicted evidence hashes differ perm sorted hashes_eq =>
    have hconflict : ∀ e ∈ atVersion group w, conflictOf receipts e =
        ⟨i, w, hashes, evidence.map RecordEnvelope.receiptId⟩ := by
      intro e he
      have hkeys : evidence.map (fun f => toLex (f.payloadHash, f.receiptId)) =
          sortedSet ((atVersion group w).map fun f => toLex (f.payloadHash, f.receiptId)) := by
        have hn : (evidence.map fun f => toLex (f.payloadHash, f.receiptId)).Nodup := by
          refine List.Nodup.of_map (fun p => (ofLex p).2) ?_
          rw [List.map_map]
          exact (perm.map RecordEnvelope.receiptId).nodup_iff.mpr (hg.ids_nodup hids)
        rw [← sortedBy_id_eq_sortedSet hn fun k => (perm.map _).mem_iff]
        exact (sortedBy_eq_self id (List.pairwise_map.mpr sorted)).symm
      rw [conflictOf, hg.sameVersion_eq he, ← hkeys, List.map_map, hashes_eq,
        (mem_atVersion.mp he).2, ((hg.mem e).mp (mem_atVersion.mp he).1).2]
      rfl
    rw [List.mem_singleton]
    constructor
    · rintro rfl
      obtain ⟨e, he, hew⟩ := hg.attained
      have he := mem_atVersion.mpr ⟨he, hew⟩
      exact ⟨e, (mem_atVersion.mp he).1, hg.contradicted_of_differ differ he, hconflict e he⟩
    · rintro ⟨e, he, hc, rfl⟩
      exact hconflict e (hg.mem_atVersion_of_not_superseded he hc.1)
  | accepted e duplicates agree perm first =>
    refine iff_of_false List.not_mem_nil ?_
    rintro ⟨f, hf, hc, -⟩
    exact hg.not_contradicted_of_agree agree (hg.mem_atVersion_of_not_superseded hf hc.1) hc

end Round

end Threadline
