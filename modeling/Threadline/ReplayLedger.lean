import Threadline.CanonicalSpec
import Threadline.PyExcept

/-!
# Incremental replay

A ledger keeps the unique receipts of the batches applied so far. A batch is
applied as a whole or not at all, so the ledger always holds the deduplicated
receipts of the batches that succeeded.
-/

open PyText PySorted PyExcept

namespace Threadline

variable {sha256 : Bytes → Text}

/-- Every receipt is stored under its own ID. -/
def Keyed (receipts : PyDict Text (RecordEnvelope sha256)) : Prop :=
  ∀ p ∈ receipts.items, p.2.receiptId = p.1

/-- Accumulated source evidence: `_receipts`. -/
structure ReplayLedger (sha256 : Bytes → Text) where
  receiptById : PyDict Text (RecordEnvelope sha256)
  keyed : Keyed receiptById

namespace ReplayLedger

/-- One step of the loop in `apply`, on the candidate receipts and the number added. -/
def applyStep (state : PyDict Text (RecordEnvelope sha256) × ℕ) (envelope : RecordEnvelope sha256) :
    Except CanonicalizationError (PyDict Text (RecordEnvelope sha256) × ℕ) :=
  match state.1.get? envelope.receiptId with
  | none => .ok (state.1.set envelope.receiptId envelope, state.2 + 1)
  | some existing =>
    if existing.fingerprint ≠ envelope.fingerprint then .error (.receiptConflict envelope.receiptId)
    else .ok state

theorem applyStep_eq_ok {state state' : PyDict Text (RecordEnvelope sha256) × ℕ}
    {e : RecordEnvelope sha256} (h : applyStep state e = .ok state') :
    (state.1.get? e.receiptId = none ∧ state' = (state.1.set e.receiptId e, state.2 + 1)) ∨
      ∃ existing, state.1.get? e.receiptId = some existing ∧
        existing.fingerprint = e.fingerprint ∧ state' = state := by
  unfold applyStep at h
  split at h
  · next hnone => exact .inl ⟨hnone, (Except.ok.inj h).symm⟩
  · next existing hsome =>
    split at h
    · cases h
    · next heq => exact .inr ⟨existing, hsome, not_not.mp heq, (Except.ok.inj h).symm⟩

theorem keyed_set {receipts : PyDict Text (RecordEnvelope sha256)} (h : Keyed receipts)
    (e : RecordEnvelope sha256) : Keyed (receipts.set e.receiptId e) := by
  rintro ⟨id, f⟩ hp
  rw [PyDict.mem_items_iff, PyDict.get?_set] at hp
  split_ifs at hp with hid
  · obtain rfl := Option.some.inj hp
    exact hid
  · exact h (id, f) (PyDict.mem_items_iff.mpr hp)

theorem keyed_applyLoop {envelopes : List (RecordEnvelope sha256)}
    {state state' : PyDict Text (RecordEnvelope sha256) × ℕ} (hk : Keyed state.1)
    (h : envelopes.foldlM applyStep state = .ok state') : Keyed state'.1 := by
  induction envelopes using List.reverseRecOn generalizing state' with
  | nil =>
    obtain rfl : state = state' := Except.ok.inj h
    exact hk
  | append_singleton envelopes e ih =>
    obtain ⟨before, hbefore, hstep⟩ := foldlM_concat_eq_ok.mp h
    have hk' := ih hbefore
    rcases applyStep_eq_ok hstep with ⟨_, rfl⟩ | ⟨_, _, _, rfl⟩
    · exact keyed_set hk' e
    · exact hk'

instance : EmptyCollection (ReplayLedger sha256) := ⟨⟨∅, fun _ hp => absurd hp List.not_mem_nil⟩⟩

/-- Atomically add a batch of receipts: the number of new ones, and the ledger afterwards. A
receipt conflict leaves the ledger as it was. -/
def apply (ledger : ReplayLedger sha256) (envelopes : List (RecordEnvelope sha256)) :
    Except CanonicalizationError ℕ × ReplayLedger sha256 :=
  match h : envelopes.foldlM applyStep (ledger.receiptById, 0) with
  | .error err => (.error err, ledger)
  | .ok (candidate, added) => (.ok added, ⟨candidate, keyed_applyLoop ledger.keyed h⟩)

/-- `ReplayLedger(envelopes)`. -/
def make? (envelopes : List (RecordEnvelope sha256)) :
    Except CanonicalizationError (ReplayLedger sha256) :=
  match (∅ : ReplayLedger sha256).apply envelopes with
  | (.error err, _) => .error err
  | (.ok _, ledger) => .ok ledger

def result (ledger : ReplayLedger sha256) : Except CanonicalizationError CanonicalizationResult :=
  canonicalize ledger.receiptById.values

def receipts (ledger : ReplayLedger sha256) : List (RecordEnvelope sha256) :=
  sortedBy RecordEnvelope.receiptId ledger.receiptById.values

/-- `len(ledger)`. -/
def length (ledger : ReplayLedger sha256) : ℕ := ledger.receiptById.items.length

/-- A call of `apply` in a sequence of calls, with the batches that have succeeded. -/
def applyNext (state : ReplayLedger sha256 × List (List (RecordEnvelope sha256)))
    (batch : List (RecordEnvelope sha256)) :
    ReplayLedger sha256 × List (List (RecordEnvelope sha256)) :=
  match state.1.apply batch with
  | (.error _, ledger) => (ledger, state.2)
  | (.ok _, ledger) => (ledger, state.2 ++ [batch])

/-- The ledger after a sequence of `apply` calls, and the batches that succeeded. The first batch
is the one the ledger is created with. -/
def applyAll (batches : List (List (RecordEnvelope sha256))) :
    ReplayLedger sha256 × List (List (RecordEnvelope sha256)) :=
  batches.foldl applyNext (∅, [])

/-! ## One call -/

/-- The loop of `apply` is the deduplication loop with a counter. -/
theorem applyLoop_fst (envelopes : List (RecordEnvelope sha256))
    (state : PyDict Text (RecordEnvelope sha256) × ℕ) :
    (envelopes.foldlM applyStep state).map Prod.fst = envelopes.foldlM deduplicateStep state.1 := by
  induction envelopes generalizing state with
  | nil => rfl
  | cons e envelopes ih =>
    rw [List.foldlM_cons, List.foldlM_cons]
    unfold applyStep deduplicateStep
    cases hget : state.1.get? e.receiptId with
    | none => exact ih (state.1.set e.receiptId e, state.2 + 1)
    | some existing =>
      simp only
      split
      · rfl
      · exact ih state

/-- The receipt IDs of a batch that a ledger does not hold. -/
def newIds (ledger : ReplayLedger sha256) (batch : List (RecordEnvelope sha256)) : List Text :=
  (batch.map RecordEnvelope.receiptId).dedup.filter fun id => (ledger.receiptById.get? id).isNone

theorem applyLoop_keys {envelopes : List (RecordEnvelope sha256)}
    {state state' : PyDict Text (RecordEnvelope sha256) × ℕ}
    (h : envelopes.foldlM applyStep state = .ok state') :
    (∀ id, id ∈ state'.1.keys ↔ id ∈ state.1.keys ∨ id ∈ envelopes.map RecordEnvelope.receiptId) ∧
      state'.1.keys.length + state.2 = state.1.keys.length + state'.2 := by
  induction envelopes using List.reverseRecOn generalizing state' with
  | nil =>
    obtain rfl : state = state' := Except.ok.inj h
    exact ⟨fun id => by simp, rfl⟩
  | append_singleton envelopes e ih =>
    obtain ⟨before, hbefore, hstep⟩ := foldlM_concat_eq_ok.mp h
    obtain ⟨hmem, hlen⟩ := ih hbefore
    rcases applyStep_eq_ok hstep with ⟨hnone, rfl⟩ | ⟨existing, hsome, _, rfl⟩
    · have hitems := PyDict.items_set_of_get?_none (v := e) hnone
      have hkeys : (before.1.set e.receiptId e).keys = before.1.keys ++ [e.receiptId] := by
        rw [PyDict.keys, hitems, List.map_append]
        rfl
      refine ⟨fun id => ?_, ?_⟩
      · rw [hkeys, List.mem_append, hmem, List.map_append, List.mem_append, or_assoc]
        rfl
      · rw [hkeys, List.length_append, List.length_singleton]
        omega
    · refine ⟨fun id => ?_, hlen⟩
      have he : e.receiptId ∈ state'.1.keys := PyDict.mem_keys_iff.mpr ⟨existing, hsome⟩
      rw [hmem, List.map_append, List.mem_append, ← or_assoc, ← hmem]
      constructor
      · exact Or.inl
      · rintro (hid | hid)
        · exact hid
        · rw [List.mem_singleton.mp hid]
          exact he

/-- A call raises, and changes nothing, or it adds the receipts with new IDs. -/
theorem apply_cases (ledger : ReplayLedger sha256) (batch : List (RecordEnvelope sha256)) :
    (∃ err, batch.foldlM deduplicateStep ledger.receiptById = .error err ∧
      ledger.apply batch = (.error err, ledger)) ∨
    ∃ after, batch.foldlM deduplicateStep ledger.receiptById = .ok after.receiptById ∧
      ledger.apply batch = (.ok (ledger.newIds batch).length, after) := by
  have hfst := applyLoop_fst batch (ledger.receiptById, 0)
  unfold apply
  split
  · next err herr =>
    rw [herr] at hfst
    exact .inl ⟨err, hfst.symm, rfl⟩
  · next candidate added hok =>
    rw [hok] at hfst
    refine .inr ⟨⟨candidate, keyed_applyLoop ledger.keyed hok⟩, hfst.symm, ?_⟩
    obtain ⟨hmem, hlen⟩ := applyLoop_keys hok
    have hperm : candidate.keys.Perm (ledger.receiptById.keys ++ ledger.newIds batch) := by
      refine (List.perm_ext_iff_of_nodup candidate.nodup_keys ?_).mpr fun id => ?_
      · refine List.nodup_append.mpr ⟨ledger.receiptById.nodup_keys,
          (List.nodup_dedup _).filter _, ?_⟩
        rintro id hid _ hnew rfl
        obtain ⟨v, hv⟩ := PyDict.mem_keys_iff.mp hid
        simp [newIds, hv] at hnew
      · rw [hmem, List.mem_append, newIds, List.mem_filter, List.mem_dedup]
        cases hget : ledger.receiptById.get? id with
        | none => simp
        | some v => simp [PyDict.mem_keys_iff.mpr ⟨v, hget⟩]
    have hcount := hperm.length_eq
    rw [List.length_append] at hcount
    have hadded : added = (ledger.newIds batch).length := by
      dsimp only at hlen
      omega
    exact Prod.ext (congrArg Except.ok hadded) rfl

/-! ## Sequences of calls -/

theorem applyAll_concat (batches : List (List (RecordEnvelope sha256)))
    (batch : List (RecordEnvelope sha256)) :
    applyAll (batches ++ [batch]) = applyNext (applyAll batches) batch := by
  simp [applyAll]

/-- The ledger holds the deduplicated receipts of the batches that succeeded. -/
theorem applyAll_receipts (batches : List (List (RecordEnvelope sha256))) :
    deduplicateReceipts (applyAll batches).2.flatten = .ok (applyAll batches).1.receiptById := by
  induction batches using List.reverseRecOn with
  | nil => rfl
  | append_singleton batches batch ih =>
    rw [applyAll_concat, applyNext]
    rcases (applyAll batches).1.apply_cases batch with ⟨err, _, happly⟩ | ⟨after, hafter, happly⟩
    · rw [happly]
      exact ih
    · rw [happly]
      change deduplicateReceipts ((applyAll batches).2 ++ [batch]).flatten = _
      rw [List.flatten_concat, deduplicateReceipts, List.foldlM_append, ← deduplicateReceipts, ih]
      exact hafter

theorem applyAll_subset (batches : List (List (RecordEnvelope sha256))) :
    ∀ batch ∈ (applyAll batches).2, batch ∈ batches := by
  induction batches using List.reverseRecOn with
  | nil => exact fun batch h => h
  | append_singleton batches batch ih =>
    intro b hb
    rw [applyAll_concat, applyNext] at hb
    rcases (applyAll batches).1.apply_cases batch with ⟨err, _, happly⟩ | ⟨after, _, happly⟩
    · rw [happly] at hb
      exact List.mem_append_left _ (ih b hb)
    · rw [happly] at hb
      rcases List.mem_append.mp hb with hb | hb
      · exact List.mem_append_left _ (ih b hb)
      · exact List.mem_append_right _ hb

/-- Batches without a receipt conflict all succeed. -/
theorem applyAll_of_agree {batches : List (List (RecordEnvelope sha256))}
    (h : ReceiptsAgree batches.flatten) : (applyAll batches).2 = batches := by
  induction batches using List.reverseRecOn with
  | nil => rfl
  | append_singleton batches batch ih =>
    rw [List.flatten_concat] at h
    have ih := ih fun a ha b hb => h a (List.mem_append_left _ ha) b (List.mem_append_left _ hb)
    have hbefore := applyAll_receipts batches
    rw [ih] at hbefore
    rw [applyAll_concat, applyNext]
    rcases (applyAll batches).1.apply_cases batch with ⟨err, herr, _⟩ | ⟨after, _, happly⟩
    · have hall : deduplicateReceipts (batches.flatten ++ batch) = .error err := by
        rw [deduplicateReceipts, List.foldlM_append, ← deduplicateReceipts, hbefore]
        exact herr
      obtain ⟨a, ha, b, hb, hid, hne, _⟩ := deduplicateReceipts_error hall
      exact absurd (h a ha b hb hid) hne
    · rw [happly]
      exact congrArg (· ++ [batch]) ih

/-- Receipts that a ledger has stored are dropped by `apply`. -/
theorem apply_stored {ledger : ReplayLedger sha256} {batch : List (RecordEnvelope sha256)}
    (h : ∀ e ∈ batch, ∃ r, ledger.receiptById.get? e.receiptId = some r ∧
      r.fingerprint = e.fingerprint) : ledger.apply batch = (.ok 0, ledger) := by
  have hloop : batch.foldlM applyStep (ledger.receiptById, 0) = .ok (ledger.receiptById, 0) := by
    induction batch with
    | nil => rfl
    | cons e batch ih =>
      obtain ⟨r, hr, hf⟩ := h e List.mem_cons_self
      have hstep : applyStep (ledger.receiptById, 0) e = .ok (ledger.receiptById, 0) := by
        simp [applyStep, hr, hf]
      rw [List.foldlM_cons, hstep]
      exact ih fun e he => h e (List.mem_cons_of_mem _ he)
  unfold apply
  split
  · next err herr => cases hloop.symm.trans herr
  · next candidate added hok =>
    obtain ⟨rfl, rfl⟩ := Prod.mk.inj (Except.ok.inj (hloop.symm.trans hok))
    rfl

/-- A sequence of `apply` calls is the canonicalization of the batches that succeeded: every call
either raises a receipt conflict and changes nothing or adds its new receipts, the result is that
of a full rebuild in any order, and replaying what has succeeded changes nothing. -/
theorem applyAll_correct (batches : List (List (RecordEnvelope sha256)))
    (hinj : Set.InjOn sha256
      {bytes | ∃ e ∈ batches.flatten, canonicalRecordBytes e.record = some bytes}) :
    (∀ batch,
      (∃ id, (applyAll batches).1.apply batch = (.error (.receiptConflict id), (applyAll batches).1) ∧
        applyAll (batches ++ [batch]) = applyAll batches) ∨
      ∃ after, (applyAll batches).1.apply batch =
          (.ok ((applyAll batches).1.newIds batch).length, after) ∧
        applyAll (batches ++ [batch]) = (after, (applyAll batches).2 ++ [batch])) ∧
    (∀ envelopes, (∀ e, e ∈ envelopes ↔ e ∈ (applyAll batches).2.flatten) →
      (applyAll batches).1.result = canonicalize envelopes ∧
        ∃ result, canonicalize envelopes = .ok result) ∧
    ∀ batch ∈ (applyAll batches).2, ∀ replayed, (∀ e ∈ replayed, e ∈ batch) →
      (applyAll batches).1.apply replayed = (.ok 0, (applyAll batches).1) := by
  have hreceipts := applyAll_receipts batches
  have hunique := deduplicateReceipts_ok hreceipts
  refine ⟨fun batch => ?_, fun envelopes henvelopes => ?_, fun batch hbatch replayed hsub => ?_⟩
  · rw [applyAll_concat, applyNext]
    rcases (applyAll batches).1.apply_cases batch with ⟨err, herr, happly⟩ | ⟨after, _, happly⟩
    · left
      have hall : deduplicateReceipts ((applyAll batches).2.flatten ++ batch) = .error err := by
        rw [deduplicateReceipts, List.foldlM_append, ← deduplicateReceipts, hreceipts]
        exact herr
      obtain ⟨_, _, b, _, _, _, rfl⟩ := deduplicateReceipts_error hall
      exact ⟨b.receiptId, happly, by rw [happly]⟩
    · exact .inr ⟨after, happly, by rw [happly]⟩
  · have hinj' : Set.InjOn sha256
        {bytes | ∃ e ∈ envelopes, canonicalRecordBytes e.record = some bytes} := by
      refine hinj.mono ?_
      rintro bytes ⟨e, he, hb⟩
      obtain ⟨batch, hbatch, heb⟩ := List.mem_flatten.mp ((henvelopes e).mp he)
      exact ⟨e, List.mem_flatten.mpr ⟨batch, applyAll_subset batches batch hbatch, heb⟩, hb⟩
    have hinj'' : Set.InjOn sha256
        {bytes | ∃ e ∈ (applyAll batches).2.flatten, canonicalRecordBytes e.record = some bytes} := by
      simpa only [henvelopes] using hinj'
    have hsame : ∀ e, e ∈ (applyAll batches).1.receiptById.values ↔ e ∈ envelopes := fun e =>
      (hunique.mem_iff (hashTellsReplays_of_injOn hinj'') e).trans (henvelopes e).symm
    have hagree : ReceiptsAgree envelopes := by
      intro a ha b hb
      exact hunique.agree a ((henvelopes a).mp ha) b ((henvelopes b).mp hb)
    obtain ⟨result, hresult⟩ := canonicalize_ok_iff.mpr hagree
    have hsame := canonicalize_ok_congr (hashTellsReplays_of_injOn hinj') hsame result
    exact ⟨(hsame.mpr hresult).trans hresult.symm, result, hresult⟩
  · apply apply_stored
    intro e he
    have hmem : e ∈ (applyAll batches).2.flatten :=
      List.mem_flatten.mpr ⟨batch, hbatch, hsub e he⟩
    cases hget : (applyAll batches).1.receiptById.get? e.receiptId with
    | none =>
      rw [deduplicateReceipts_get? hreceipts, List.find?_eq_none] at hget
      exact absurd (by simp) (hget e hmem)
    | some r => exact ⟨r, rfl, receiptsAgree_of_ok hreceipts e hmem r hget⟩

/-- The versions of an order in two batches, then all of them again. -/
theorem applyAll_correct_corrected_order :
    (applyAll [correctedOrderReceipts.envelopes.take 1,
      correctedOrderReceipts.envelopes.drop 1]).1.result =
        canonicalize correctedOrderReceipts.envelopes.reverse ∧
    (applyAll [correctedOrderReceipts.envelopes]).1.apply
      (correctedOrderReceipts.envelopes.drop 1) =
        (.ok 0, (applyAll [correctedOrderReceipts.envelopes]).1) := by
  have hagree : ReceiptsAgree correctedOrderReceipts.envelopes := by
    unfold ReceiptsAgree
    decide +kernel
  have hsplit : [correctedOrderReceipts.envelopes.take 1,
      correctedOrderReceipts.envelopes.drop 1].flatten = correctedOrderReceipts.envelopes := by
    rw [List.flatten_cons, List.flatten_singleton, List.take_append_drop]
  have hwhole : [correctedOrderReceipts.envelopes].flatten = correctedOrderReceipts.envelopes :=
    List.flatten_singleton
  have hinj := correctedOrderReceipts.envelopes_injOn
  obtain ⟨-, hrebuild, -⟩ := applyAll_correct [correctedOrderReceipts.envelopes.take 1,
    correctedOrderReceipts.envelopes.drop 1] (by rw [hsplit]; exact hinj)
  obtain ⟨-, -, hreplay⟩ := applyAll_correct [correctedOrderReceipts.envelopes]
    (by rw [hwhole]; exact hinj)
  rw [applyAll_of_agree (by rw [hsplit]; exact hagree), hsplit] at hrebuild
  rw [applyAll_of_agree (by rw [hwhole]; exact hagree)] at hreplay
  exact ⟨(hrebuild _ fun e => List.mem_reverse).1,
    hreplay _ (List.mem_singleton_self _) _ fun e he => List.mem_of_mem_drop he⟩

end ReplayLedger

end Threadline
