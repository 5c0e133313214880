import Mathlib.Order.Bounds.Basic
import Threadline.ImpactReach
import Threadline.TransactionRules

/-!
# The plan of a change

Expansion gives the least set of keys that holds the seeds and all that depends
on them. A plan is determined by the records it was made from, in whatever order
and however often they are given.
-/

open PyText PyCalendar PySorted

namespace Threadline

/-! ## Dependence -/

def HasDay (records : List FinancialRecord) (k : RecordKey) (day : Date) : Prop :=
  ∃ r ∈ records, keyOf r = k ∧ day ∈ daysOf r

/-- A relationship in either direction, or a shared availability or payout date. -/
def Depends (records : List FinancialRecord) (k k' : RecordKey) : Prop :=
  (∃ r ∈ records, Links r k k') ∨ ∃ day, HasDay records k day ∧ HasDay records k' day

/-- What a key leaves open: an issue of one of its records, or that it has none. -/
def LeavesOpen (records : List FinancialRecord) (k : RecordKey) (reason : Text) : Prop :=
  (∃ r ∈ records, keyOf r = k ∧ reason ∈ ownIssues r) ∨
    (∀ r ∈ records, keyOf r ≠ k) ∧ reason = ImpactGraph.missingReason k

/-- The sets that hold the seeds and all that depends on their members. -/
def closedSets (records : List FinancialRecord) (seeds : List RecordKey) : Set (Set RecordKey) :=
  {keys | (∀ k ∈ seeds, k ∈ keys) ∧ ∀ k ∈ keys, ∀ k', Depends records k k' → k' ∈ keys}

namespace ImpactGraph

/-- An expansion: the least closed set, its days and what it leaves open, each listed once. -/
structure Expansion (records : List FinancialRecord) (seeds keys : List RecordKey)
    (collected : Collected) : Prop where
  least : IsLeast (closedSets records seeds) {k | k ∈ keys}
  dates : ∀ day, day ∈ collected.dates ↔ ∃ k ∈ keys, HasDay records k day
  reasons : ∀ reason, reason ∈ collected.reasons ↔ ∃ k ∈ keys, LeavesOpen records k reason
  keysOnce : keys.Nodup
  datesOnce : collected.dates.Nodup
  reasonsOnce : collected.reasons.Nodup

variable {g : ImpactGraph} {records : List FinancialRecord} {seeds keys : List RecordKey}
  {k : RecordKey}

theorem Holds.mem_reasonsOf (h : g.Holds records) {reason : Text} :
    reason ∈ g.reasonsOf k ↔ LeavesOpen records k reason := by
  have hknown : k ∉ g.known ↔ ∀ r ∈ records, keyOf r ≠ k := by
    rw [h.known]
    simp only [not_exists, not_and, Ne]
  rw [reasonsOf, List.mem_append, h.issues, LeavesOpen, ← hknown]
  by_cases hk : k ∈ g.known
  · simp [hk]
  · simp [hk]

theorem Holds.reachable_isLeast (h : g.Holds records) :
    IsLeast (closedSets records seeds) {k | g.Reachable seeds k} := by
  refine ⟨⟨fun k hk => .seed hk, fun k hk k' hdepends => ?_⟩, fun keys hkeys k hk => ?_⟩
  · rcases hdepends with hlinks | ⟨day, hday, hday'⟩
    · exact .neighbor hk ((h.neighbors k k').mpr hlinks)
    · exact .sameDay hk ((h.dates k day).mpr hday) ((h.keysOn k' day).mpr hday')
  · induction hk with
    | seed hk => exact hkeys.1 _ hk
    | neighbor _ hk' ih => exact hkeys.2 _ ih _ (.inl ((h.neighbors _ _).mp hk'))
    | sameDay _ hday hk' ih =>
      exact hkeys.2 _ ih _ (.inr ⟨_, (h.dates _ _).mp hday, (h.keysOn _ _).mp hk'⟩)

/-! ## Each key, day and reason once -/

theorem getD_insert_nodup {κ α : Type*} [DecidableEq κ] [BEq α] [LawfulBEq α]
    {d : PyDict κ (List α)} {key k : κ} {a : α} (h : (d.getD k []).Nodup) :
    ((d.modify key [] (List.insert a)).getD k []).Nodup := by
  rw [PyDict.getD_modify]
  split_ifs with hk
  · rw [hk]
    exact h.insert
  · exact h

theorem nodup_addAvailability {key : RecordKey} {availableOn : Option Date} {hasEffect : Bool}
    {issue : Text} (h : (g.datesOf k).Nodup) :
    ((g.addAvailability key availableOn hasEffect issue).datesOf k).Nodup := by
  cases availableOn with
  | none => cases hasEffect <;> exact h
  | some day => exact getD_insert_nodup h

theorem nodup_addRecord {r : FinancialRecord} (h : (g.datesOf k).Nodup) :
    ((g.addRecord r).datesOf k).Nodup := by
  cases r with
  | order o => exact h
  | payment p => exact nodup_addAvailability (by simpa using h)
  | refund r => exact nodup_addAvailability (by simpa using h)
  | fee f => simpa [addRecord] using h
  | settlementLine line => simpa [addRecord] using h
  | payout p => exact getD_insert_nodup h

theorem nodup_datesOf (h : records.foldlM add empty = .ok g) : (g.datesOf k).Nodup := by
  refine PyExcept.foldlM_invariant (P := fun g => (g.datesOf k).Nodup)
    (fun b r b' _ hb hadd => ?_) List.nodup_nil h
  rw [← (add_eq_ok.mp hadd).2]
  exact nodup_addRecord hb

theorem nodup_issues_link {child : RecordKey} {t : EntityType} {id : Text}
    (h : (g.issuesOf k).Nodup) : ((g.link child t id).issuesOf k).Nodup := by
  unfold link
  split_ifs
  · exact getD_insert_nodup h
  · exact h

theorem nodup_issues_addAvailability {key : RecordKey} {availableOn : Option Date}
    {hasEffect : Bool} {issue : Text} (h : (g.issuesOf k).Nodup) :
    ((g.addAvailability key availableOn hasEffect issue).issuesOf k).Nodup := by
  cases availableOn with
  | none =>
    cases hasEffect
    · exact h
    · exact getD_insert_nodup h
  | some day => exact h

theorem nodup_issues_addRecord {r : FinancialRecord} (h : (g.issuesOf k).Nodup) :
    ((g.addRecord r).issuesOf k).Nodup := by
  cases r with
  | order o => exact h
  | payment p => exact nodup_issues_addAvailability (nodup_issues_link h)
  | refund r => exact nodup_issues_addAvailability (nodup_issues_link h)
  | fee f => exact nodup_issues_link h
  | settlementLine line => exact nodup_issues_link (nodup_issues_link h)
  | payout p => exact h

theorem missingReason_notMem_ownIssues (r : FinancialRecord) : missingReason k ∉ ownIssues r := by
  intro hmissing
  -- The reasons differ in one of their first three characters.
  have htake : (missingReason k).take 3 = txt "REL" := rfl
  have hday : ∀ {availableOn hasEffect issue}, issue.take 3 ≠ txt "REL" →
      missingReason k ∉ availabilityIssues availableOn hasEffect issue := by
    intro availableOn hasEffect issue hissue hmem
    unfold availabilityIssues at hmem
    split_ifs at hmem
    · rw [← List.mem_singleton.mp hmem] at hissue
      exact hissue htake
    · exact List.not_mem_nil hmem
  rcases List.mem_append.mp hmissing with hmem | hmem
  · obtain ⟨parent, -, hlink⟩ := List.mem_flatMap.mp hmem
    unfold linkIssues at hlink
    split_ifs at hlink
    · rw [List.mem_singleton.mp hlink] at htake
      exact absurd htake (by decide)
    · exact List.not_mem_nil hlink
  · cases r with
    | payment p => exact hday (by decide) hmem
    | refund r => exact hday (by decide) hmem
    | order o => exact List.not_mem_nil hmem
    | fee f => exact List.not_mem_nil hmem
    | settlementLine line => exact List.not_mem_nil hmem
    | payout p => exact List.not_mem_nil hmem

theorem nodup_reasonsOf (h : records.foldlM add empty = .ok g) : (g.reasonsOf k).Nodup := by
  have hissues : (g.issuesOf k).Nodup := by
    refine PyExcept.foldlM_invariant (P := fun g => (g.issuesOf k).Nodup)
      (fun b r b' _ hb hadd => ?_) List.nodup_nil h
    rw [← (add_eq_ok.mp hadd).2]
    exact nodup_issues_addRecord hb
  unfold reasonsOf
  split_ifs
  · simpa using hissues
  · refine hissues.append (List.nodup_singleton _) ?_
    intro reason hreason hmissing
    obtain ⟨r, -, -, hown⟩ := ((holds_of_foldlM h).1.issues k reason).mp hreason
    rw [List.mem_singleton.mp hmissing] at hown
    exact missingReason_notMem_ownIssues r hown

/-- The visited keys, their days and reasons are sets. -/
theorem expand_nodup (h : records.foldlM add empty = .ok g) (seeds : List RecordKey) :
    (g.expand seeds).1.Nodup ∧ (g.expand seeds).2.dates.Nodup ∧
      (g.expand seeds).2.reasons.Nodup := by
  let Once (_ visited : List RecordKey) (s : Collected) : Prop :=
    visited.Nodup ∧ s.dates.Nodup ∧ s.reasons.Nodup
  have hrun := (Option.some_get (g.expand_isSome seeds)).symm
  refine @Worklist.run_invariant _ _ _ _ Once (fun _ hs => hs)
    (fun {k _ visited s} hk hs => ?_) _ _ _ _ _ hrun ⟨List.nodup_nil, List.nodup_nil, List.nodup_nil⟩
  refine ⟨List.nodup_cons.mpr ⟨hk, hs.1⟩, ?_, (nodup_reasonsOf h).union s.reasons⟩
  apply hs.2.1.append ((nodup_datesOf h).filter _)
  intro day hday hnew
  exact absurd hday (of_decide_eq_true (List.mem_filter.mp hnew).2)

theorem expansion (h : records.foldlM add empty = .ok g) (seeds : List RecordKey) :
    Expansion records seeds (g.expand seeds).1 (g.expand seeds).2 := by
  have hholds := (holds_of_foldlM h).1
  have hkeys : {k | k ∈ (g.expand seeds).1} = {k | g.Reachable seeds k} :=
    Set.ext fun k => mem_expand
  obtain ⟨hkeysOnce, hdatesOnce, hreasonsOnce⟩ := expand_nodup h seeds
  refine ⟨hkeys ▸ hholds.reachable_isLeast, fun day => ?_, fun reason => ?_, hkeysOnce, hdatesOnce,
    hreasonsOnce⟩
  · simp only [mem_expand_dates, mem_expand, hholds.dates]
    rfl
  · simp only [mem_expand_reasons, mem_expand, hholds.mem_reasonsOf]

/-! ## The same records -/

theorem closedSets_congr {records' : List FinancialRecord} {seeds' : List RecordKey}
    (hrecords : ∀ r, r ∈ records ↔ r ∈ records') (hseeds : ∀ k, k ∈ seeds ↔ k ∈ seeds') :
    closedSets records seeds = closedSets records' seeds' := by
  funext keys
  show (_ ∧ _) = (_ ∧ _)
  simp only [Depends, HasDay, hrecords, hseeds]

/-- The same records and seeds give the same keys, days and reasons. -/
theorem Expansion.congr {records' : List FinancialRecord} {seeds' keys' : List RecordKey}
    {collected collected' : Collected} (h : Expansion records seeds keys collected)
    (h' : Expansion records' seeds' keys' collected') (hrecords : ∀ r, r ∈ records ↔ r ∈ records')
    (hseeds : ∀ k, k ∈ seeds ↔ k ∈ seeds') :
    (∀ k, k ∈ keys ↔ k ∈ keys') ∧ (∀ day, day ∈ collected.dates ↔ day ∈ collected'.dates) ∧
      ∀ reason, reason ∈ collected.reasons ↔ reason ∈ collected'.reasons := by
  have hleast := h'.least
  rw [← closedSets_congr hrecords hseeds] at hleast
  have hkeys : ∀ k, k ∈ keys ↔ k ∈ keys' := Set.ext_iff.mp (h.least.unique hleast)
  refine ⟨hkeys, fun day => ?_, fun reason => ?_⟩
  · rw [h.dates, h'.dates]
    simp only [hkeys, HasDay, hrecords]
  · rw [h.reasons, h'.reasons]
    simp only [hkeys, LeavesOpen, hrecords]

theorem exists_foldlM_add (hids : ∀ r ∈ records, r.recordId ≠ []) :
    ∃ g, records.foldlM add empty = .ok g := by
  induction records using List.reverseRecOn with
  | nil => exact ⟨empty, rfl⟩
  | append_singleton records r ih =>
    obtain ⟨g, hg⟩ := ih fun r' hr' => hids r' (List.mem_append_left _ hr')
    have hid := hids r (List.mem_append_right _ List.mem_cons_self)
    exact ⟨g.addRecord r, PyExcept.foldlM_concat_eq_ok.mpr ⟨g, hg, add_eq_ok.mpr ⟨hid, rfl⟩⟩⟩

theorem foldlM_add_eq_error {r : FinancialRecord} (hr : r ∈ records) (hid : r.recordId = []) :
    records.foldlM add g = .error .recordId := by
  induction records generalizing g with
  | nil => cases hr
  | cons r' records ih =>
    rw [List.foldlM_cons, add, recordKey]
    split_ifs with hid'
    · rfl
    · have hne : r ≠ r' := fun heq => hid' (heq ▸ hid)
      exact ih ((List.mem_cons.mp hr).resolve_left hne)

theorem expand_terminates (g : ImpactGraph) (seeds : List RecordKey) {fuel : ℕ}
    (hfuel : g.expandFuel seeds ≤ fuel) :
    Worklist.run g.visit fuel seeds [] ⟨[], []⟩ = some (g.expand seeds) :=
  Worklist.run_of_le (Option.some_get (g.expand_isSome seeds)).symm hfuel

end ImpactGraph

theorem RecordKey.eq_of_fields {k k' : RecordKey} (htype : k.entityType = k'.entityType)
    (hid : k.sourceId = k'.sourceId) : k = k' := by
  cases k
  cases k'
  exact congrArg₂ RecordKey.mk htype hid

theorem RecordKey.sortKey_injective : Function.Injective RecordKey.sortKey := by
  intro k k' h
  obtain ⟨htype, hid⟩ := Prod.mk.inj (toLex.injective h)
  exact RecordKey.eq_of_fields (EntityType.value_injective htype) hid

/-- The IDs of one type among the keys. -/
theorem sourceIds_nodup {keys : List RecordKey} (h : keys.Nodup) (t : EntityType) :
    (((keys.filter fun key => key.entityType = t).map RecordKey.sourceId).map id).Nodup := by
  rw [List.map_id]
  refine (h.filter _).map_on fun k hk k' hk' hid => ?_
  have htype := of_decide_eq_true (List.mem_filter.mp hk).2
  have htype' := of_decide_eq_true (List.mem_filter.mp hk').2
  exact RecordKey.eq_of_fields (htype.trans htype'.symm) hid

theorem sourceIds_congr {keys keys' : List RecordKey} (h : ∀ k, k ∈ keys ↔ k ∈ keys')
    (hn : keys.Nodup) (hn' : keys'.Nodup) (t : EntityType) :
    sortedBy id ((keys.filter fun key => key.entityType = t).map RecordKey.sourceId) =
      sortedBy id ((keys'.filter fun key => key.entityType = t).map RecordKey.sourceId) := by
  apply sortedBy_eq_of_mem id (sourceIds_nodup hn t) (sourceIds_nodup hn' t)
  intro sourceId
  simp only [List.mem_map, List.mem_filter, h]

theorem recordIds_of_mem {records records' : List FinancialRecord}
    (h : ∀ r, r ∈ records ↔ r ∈ records') (hids : ∀ r ∈ records, r.recordId ≠ []) :
    ∀ r ∈ records', r.recordId ≠ [] := fun r hr => hids r ((h r).mpr hr)

/-- The records decide the plan, whatever their order and however often they are given. -/
theorem planAffectedWindows_congr {before before' after after' changed changed' :
    List FinancialRecord} (hbefore : ∀ r, r ∈ before ↔ r ∈ before')
    (hafter : ∀ r, r ∈ after ↔ r ∈ after') (hchanged : ∀ r, r ∈ changed ↔ r ∈ changed')
    (changeKind : ChangeKind) (canonicalChanged completenessChanged : Bool) :
    planAffectedWindows before after changed changeKind canonicalChanged completenessChanged =
      planAffectedWindows before' after' changed' changeKind canonicalChanged
        completenessChanged := by
  have hempty : changed = [] ↔ changed' = [] := by
    simp only [List.eq_nil_iff_forall_not_mem, hchanged]
  have hrecords : ∀ r, r ∈ before ++ after ++ changed ↔ r ∈ before' ++ after' ++ changed' := by
    intro r
    simp only [List.mem_append, hbefore, hafter, hchanged]
  unfold planAffectedWindows
  simp only [hempty]
  split_ifs
  · rfl
  · rfl
  · rfl
  by_cases hids : ∀ r ∈ before ++ after ++ changed, r.recordId ≠ []
  · have hids' := recordIds_of_mem hrecords hids
    obtain ⟨g, hg⟩ := ImpactGraph.exists_foldlM_add hids
    obtain ⟨g', hg'⟩ := ImpactGraph.exists_foldlM_add hids'
    have hseeds : changed.mapM recordKey = .ok (changed.map keyOf) :=
      (PyExcept.mapM_eq_ok_iff_map fun r key => by rw [ImpactGraph.recordKey_eq_ok, eq_comm]).mpr
        ⟨fun r hr => hids r (List.mem_append_right _ hr), rfl⟩
    have hseeds' : changed'.mapM recordKey = .ok (changed'.map keyOf) :=
      (PyExcept.mapM_eq_ok_iff_map fun r key => by rw [ImpactGraph.recordKey_eq_ok, eq_comm]).mpr
        ⟨fun r hr => hids' r (List.mem_append_right _ hr), rfl⟩
    have hmem : ∀ k, k ∈ (changed.map keyOf).dedup ↔ k ∈ (changed'.map keyOf).dedup := by
      intro k
      simp only [List.mem_dedup, List.mem_map, hchanged]
    have h := ImpactGraph.expansion hg (changed.map keyOf).dedup
    have h' := ImpactGraph.expansion hg' (changed'.map keyOf).dedup
    obtain ⟨hkeys, hdates, hreasons⟩ := h.congr h' hrecords hmem
    have hnone : (g.expand (changed.map keyOf).dedup).2.reasons ≠ [] ↔
        (g'.expand (changed'.map keyOf).dedup).2.reasons ≠ [] := by
      simp only [Ne, List.eq_nil_iff_forall_not_mem, hreasons]
    have hdays := sortedBy_eq_of_mem id (by simpa using h.datesOnce) (by simpa using h'.datesOnce)
      hdates
    have hcodes := sortedBy_eq_of_mem id (by simpa using h.reasonsOnce)
      (by simpa using h'.reasonsOnce) hreasons
    have hsources := sortedBy_eq_of_mem RecordKey.sortKey
      (h.keysOnce.map RecordKey.sortKey_injective) (h'.keysOnce.map RecordKey.sortKey_injective)
      hkeys
    simp only [hg, hg', hseeds, hseeds', bind, Except.bind, hnone, hdays, hcodes, hsources,
      sourceIds_congr hkeys h.keysOnce h'.keysOnce]
  · -- A record without an ID raises wherever it stands.
    simp only [not_forall, not_not] at hids
    obtain ⟨r, hr, hid⟩ := hids
    rw [ImpactGraph.foldlM_add_eq_error hr hid,
      ImpactGraph.foldlM_add_eq_error ((hrecords r).mp hr) hid]
    rfl

/-- Expansion ends with the least set of keys that holds the seeds and all that depends on them,
with its days and what it leaves open, and the plan does not depend on the order or the repetition
of its records. -/
theorem impact_expansion_exact :
    (∀ records : List FinancialRecord, (∀ r ∈ records, r.recordId ≠ []) →
      ∃ g, records.foldlM ImpactGraph.add ImpactGraph.empty = .ok g ∧ ∀ seeds,
        (∀ fuel ≥ g.expandFuel seeds,
          Worklist.run g.visit fuel seeds [] ⟨[], []⟩ = some (g.expand seeds)) ∧
        ImpactGraph.Expansion records seeds (g.expand seeds).1 (g.expand seeds).2) ∧
    ∀ before before' after after' changed changed' : List FinancialRecord,
      (∀ r, r ∈ before ↔ r ∈ before') → (∀ r, r ∈ after ↔ r ∈ after') →
      (∀ r, r ∈ changed ↔ r ∈ changed') →
      ∀ changeKind canonicalChanged completenessChanged,
        planAffectedWindows before after changed changeKind canonicalChanged completenessChanged =
          planAffectedWindows before' after' changed' changeKind canonicalChanged
            completenessChanged := by
  refine ⟨fun records hids => ?_, fun _ _ _ _ _ _ hbefore hafter hchanged =>
    planAffectedWindows_congr hbefore hafter hchanged⟩
  obtain ⟨g, hg⟩ := ImpactGraph.exists_foldlM_add hids
  exact ⟨g, hg, fun seeds => ⟨fun _ hfuel => g.expand_terminates seeds hfuel,
    ImpactGraph.expansion hg seeds⟩⟩

namespace PaidDay

/-- A correction of a payment expands to its order and fee, whichever record was read first. -/
theorem payment_impact_expansion :
    (∃ g, [.order order, .payment payment, .fee fee].foldlM ImpactGraph.add ImpactGraph.empty =
      .ok g ∧ ∀ seeds, ImpactGraph.Expansion [.order order, .payment payment, .fee fee] seeds
        (g.expand seeds).1 (g.expand seeds).2) ∧
    planAffectedWindows [.order order, .fee fee] [.order order, .fee fee] [.payment payment]
        .newFact true false =
      planAffectedWindows [.fee fee, .order order] [.order order, .fee fee, .order order]
        [.payment payment, .payment payment] .newFact true false := by
  obtain ⟨g, hg, hexpand⟩ := impact_expansion_exact.1 [.order order, .payment payment, .fee fee]
    (by decide)
  refine ⟨⟨g, hg, fun seeds => (hexpand seeds).2⟩, ?_⟩
  apply impact_expansion_exact.2
  · exact fun r => List.Perm.mem_iff (List.Perm.swap _ _ _)
  · intro r
    simp only [List.mem_cons, List.not_mem_nil, or_false]
    tauto
  · intro r
    simp only [List.mem_cons, List.not_mem_nil, or_false, or_self]

end PaidDay

end Threadline
