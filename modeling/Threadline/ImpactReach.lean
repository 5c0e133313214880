import Threadline.AffectedWindows

/-!
# What the impact graph reaches

The dictionaries of a graph hold exactly the links, days and issues of the
records added to it. Expansion visits exactly the keys reachable from the seeds.
-/

open PyText PyCalendar PySorted

namespace Threadline

/-! ## Dictionaries of sets -/

theorem mem_modify_insert {κ α : Type*} [DecidableEq κ] [BEq α] [LawfulBEq α]
    {d : PyDict κ (List α)} {k k' : κ} {a a' : α} :
    a' ∈ (d.modify k [] (List.insert a)).getD k' [] ↔
      a' ∈ d.getD k' [] ∨ (k' = k ∧ a' = a) := by
  rw [PyDict.getD_modify]
  by_cases hk : k = k'
  · subst hk
    rw [if_pos rfl, List.mem_insert_iff]
    tauto
  · rw [if_neg hk]
    have hk' : k' ≠ k := Ne.symm hk
    tauto

/-! ## What a record adds -/

/-- The keys a record refers to. -/
def parentsOf : FinancialRecord → List RecordKey
  | .order _ => []
  | .payment p => [⟨.order, p.orderId⟩]
  | .refund r => [⟨.payment, r.paymentId⟩]
  | .fee f => [⟨.payment, f.paymentId⟩]
  | .settlementLine line =>
    [⟨.payout, line.payoutId⟩, ⟨ImpactGraph.movementEntity line.movementType, line.movementId⟩]
  | .payout _ => []

def daysOf : FinancialRecord → List Date
  | .payment p => p.availableOn.toList
  | .refund r => r.availableOn.toList
  | .payout p => [p.payoutDate]
  | _ => []

def linkIssues (parentId : Text) : List Text :=
  if parentId = [] then [txt "MISSING_RELATIONSHIP_ID"] else []

def availabilityIssues (availableOn : Option Date) (hasEffect : Bool) (issue : Text) : List Text :=
  if availableOn = none ∧ hasEffect then [issue] else []

/-- The date that a record with effect leaves open. -/
def dayIssues : FinancialRecord → List Text
  | .payment p =>
    availabilityIssues p.availableOn (p.status = .captured) (txt "CAPTURE_DATE_UNRESOLVED")
  | .refund r =>
    availabilityIssues r.availableOn (r.status = .succeeded) (txt "REFUND_DATE_UNRESOLVED")
  | _ => []

/-- What a record itself leaves open. -/
def ownIssues (r : FinancialRecord) : List Text :=
  (parentsOf r).flatMap (fun parent => linkIssues parent.sourceId) ++ dayIssues r

namespace ImpactGraph

variable {g : ImpactGraph} {key child k k' : RecordKey} {t : EntityType} {id : Text} {day d : Date}

@[simp] theorem known_link : (g.link child t id).known = g.known := by
  unfold link
  split_ifs <;> rfl

@[simp] theorem datesOf_link : (g.link child t id).datesOf k = g.datesOf k := by
  unfold link
  split_ifs <;> rfl

@[simp] theorem keysOn_link : (g.link child t id).keysOn d = g.keysOn d := by
  unfold link
  split_ifs <;> rfl

@[simp] theorem mem_neighborsOf_link : k' ∈ (g.link child t id).neighborsOf k ↔
    k' ∈ g.neighborsOf k ∨
      id ≠ [] ∧ ((k = child ∧ k' = ⟨t, id⟩) ∨ (k = ⟨t, id⟩ ∧ k' = child)) := by
  unfold link
  split_ifs with h
  · simp [h, addIssue, neighborsOf]
  · simp only [neighborsOf, mem_modify_insert, h, ne_eq, not_false_eq_true, true_and, or_assoc]

@[simp] theorem mem_issuesOf_link {i : Text} : i ∈ (g.link child t id).issuesOf k ↔
    i ∈ g.issuesOf k ∨ k = child ∧ i ∈ linkIssues id := by
  unfold link linkIssues
  split_ifs with h
  · simp [addIssue, issuesOf, mem_modify_insert]
  · simp [issuesOf]

@[simp] theorem known_addDate : (g.addDate key day).known = g.known := rfl

@[simp] theorem neighborsOf_addDate : (g.addDate key day).neighborsOf k = g.neighborsOf k := rfl

@[simp] theorem mem_datesOf_addDate :
    d ∈ (g.addDate key day).datesOf k ↔ d ∈ g.datesOf k ∨ (k = key ∧ d = day) :=
  mem_modify_insert

@[simp] theorem mem_keysOn_addDate :
    k ∈ (g.addDate key day).keysOn d ↔ k ∈ g.keysOn d ∨ (d = day ∧ k = key) :=
  mem_modify_insert

@[simp] theorem issuesOf_addDate : (g.addDate key day).issuesOf k = g.issuesOf k := rfl

section Availability

variable {availableOn : Option Date} {hasEffect : Bool} {issue : Text}

@[simp] theorem known_addAvailability :
    (g.addAvailability key availableOn hasEffect issue).known = g.known := by
  unfold addAvailability
  cases availableOn <;> cases hasEffect <;> rfl

@[simp] theorem neighborsOf_addAvailability :
    (g.addAvailability key availableOn hasEffect issue).neighborsOf k = g.neighborsOf k := by
  unfold addAvailability
  cases availableOn <;> cases hasEffect <;> rfl

@[simp] theorem mem_datesOf_addAvailability :
    d ∈ (g.addAvailability key availableOn hasEffect issue).datesOf k ↔
      d ∈ g.datesOf k ∨ (k = key ∧ d ∈ availableOn) := by
  cases availableOn with
  | none => cases hasEffect <;> simp [addAvailability, addIssue, datesOf]
  | some day => simp [addAvailability, eq_comm]

@[simp] theorem mem_keysOn_addAvailability :
    k ∈ (g.addAvailability key availableOn hasEffect issue).keysOn d ↔
      k ∈ g.keysOn d ∨ (k = key ∧ d ∈ availableOn) := by
  cases availableOn with
  | none => cases hasEffect <;> simp [addAvailability, addIssue, keysOn]
  | some day => simp [addAvailability, eq_comm, and_comm]

@[simp] theorem mem_issuesOf_addAvailability {i : Text} :
    i ∈ (g.addAvailability key availableOn hasEffect issue).issuesOf k ↔
      i ∈ g.issuesOf k ∨ k = key ∧ i ∈ availabilityIssues availableOn hasEffect issue := by
  cases availableOn with
  | none =>
    cases hasEffect <;>
      simp [addAvailability, availabilityIssues, addIssue, issuesOf, mem_modify_insert]
  | some day => simp [addAvailability, availabilityIssues]

end Availability

@[simp] theorem neighborsOf_addKnown : (g.addKnown key).neighborsOf k = g.neighborsOf k := rfl

@[simp] theorem datesOf_addKnown : (g.addKnown key).datesOf k = g.datesOf k := rfl

@[simp] theorem keysOn_addKnown : (g.addKnown key).keysOn d = g.keysOn d := rfl

@[simp] theorem issuesOf_addKnown : (g.addKnown key).issuesOf k = g.issuesOf k := rfl

@[simp] theorem mem_known_addKnown : k ∈ (g.addKnown key).known ↔ k = key ∨ k ∈ g.known :=
  List.mem_insert_iff

end ImpactGraph

/-- A relationship of the record, in either direction. -/
def Links (r : FinancialRecord) (k k' : RecordKey) : Prop :=
  ∃ parent ∈ parentsOf r, parent.sourceId ≠ [] ∧
    ((k = keyOf r ∧ k' = parent) ∨ (k = parent ∧ k' = keyOf r))

namespace ImpactGraph

/-- The contents of the dictionaries, for the records that were added. -/
structure Holds (g : ImpactGraph) (records : List FinancialRecord) : Prop where
  known : ∀ k, k ∈ g.known ↔ ∃ r ∈ records, keyOf r = k
  neighbors : ∀ k k', k' ∈ g.neighborsOf k ↔ ∃ r ∈ records, Links r k k'
  dates : ∀ k d, d ∈ g.datesOf k ↔ ∃ r ∈ records, keyOf r = k ∧ d ∈ daysOf r
  keysOn : ∀ k d, k ∈ g.keysOn d ↔ ∃ r ∈ records, keyOf r = k ∧ d ∈ daysOf r
  issues : ∀ k i, i ∈ g.issuesOf k ↔ ∃ r ∈ records, keyOf r = k ∧ i ∈ ownIssues r

variable (g : ImpactGraph) (r : FinancialRecord) (k k' : RecordKey) (d : Date)

theorem mem_known_addRecord : k ∈ (g.addRecord r).known ↔ k ∈ g.known ∨ keyOf r = k := by
  cases r <;> simp [addRecord, or_comm, eq_comm]

theorem mem_neighborsOf_addRecord :
    k' ∈ (g.addRecord r).neighborsOf k ↔ k' ∈ g.neighborsOf k ∨ Links r k k' := by
  cases r <;> simp [addRecord, Links, parentsOf, or_assoc]

theorem mem_datesOf_addRecord :
    d ∈ (g.addRecord r).datesOf k ↔ d ∈ g.datesOf k ∨ keyOf r = k ∧ d ∈ daysOf r := by
  cases r <;> simp [addRecord, daysOf, eq_comm]

theorem mem_keysOn_addRecord :
    k ∈ (g.addRecord r).keysOn d ↔ k ∈ g.keysOn d ∨ keyOf r = k ∧ d ∈ daysOf r := by
  cases r <;> simp [addRecord, daysOf, eq_comm, and_comm]

theorem mem_issuesOf_addRecord {i : Text} :
    i ∈ (g.addRecord r).issuesOf k ↔ i ∈ g.issuesOf k ∨ keyOf r = k ∧ i ∈ ownIssues r := by
  rw [eq_comm (a := keyOf r)]
  cases r <;> simp only [addRecord, ownIssues, parentsOf, dayIssues, List.flatMap_cons,
    List.flatMap_nil, List.append_nil, List.mem_append, List.not_mem_nil,
    mem_issuesOf_addAvailability, mem_issuesOf_link, issuesOf_addKnown, issuesOf_addDate,
    and_or_left, or_assoc, and_false, or_false]

theorem holds_empty : empty.Holds [] where
  known := by simp [empty]
  neighbors := by simp [empty, neighborsOf, PyDict.getD]
  dates := by simp [empty, datesOf, PyDict.getD]
  keysOn := by simp [empty, ImpactGraph.keysOn, PyDict.getD]
  issues := by simp [empty, issuesOf, PyDict.getD]

variable {g} {r} {records : List FinancialRecord}

/-- What one record adds. -/
theorem Holds.addRecord (h : g.Holds records) : (g.addRecord r).Holds (records ++ [r]) where
  known k := by
    rw [mem_known_addRecord, h.known]
    simp [or_and_right, exists_or]
  neighbors k k' := by
    rw [mem_neighborsOf_addRecord, h.neighbors]
    simp [or_and_right, exists_or]
  dates k d := by
    rw [mem_datesOf_addRecord, h.dates]
    simp [or_and_right, exists_or]
  keysOn k d := by
    rw [mem_keysOn_addRecord, h.keysOn]
    simp [or_and_right, exists_or]
  issues k i := by
    rw [mem_issuesOf_addRecord, h.issues]
    simp [or_and_right, exists_or]

theorem recordKey_eq_ok {key : RecordKey} :
    recordKey r = .ok key ↔ r.recordId ≠ [] ∧ keyOf r = key := by
  unfold recordKey
  split_ifs with h <;> simp [h]

theorem add_eq_ok {g' : ImpactGraph} :
    g.add r = .ok g' ↔ r.recordId ≠ [] ∧ g.addRecord r = g' := by
  unfold add
  rw [PyExcept.bind_eq_ok]
  simp only [recordKey_eq_ok, Except.ok.injEq]
  constructor
  · rintro ⟨_, ⟨hid, -⟩, rfl⟩
    exact ⟨hid, rfl⟩
  · rintro ⟨hid, rfl⟩
    exact ⟨_, ⟨hid, rfl⟩, rfl⟩

/-- A graph that could be built holds its records, and each of them has an ID. -/
theorem holds_of_foldlM (h : records.foldlM add empty = .ok g) :
    g.Holds records ∧ ∀ r ∈ records, r.recordId ≠ [] := by
  induction records using List.reverseRecOn generalizing g with
  | nil =>
    obtain rfl := Except.ok.inj h
    exact ⟨holds_empty, by simp⟩
  | append_singleton records r ih =>
    obtain ⟨before, hbefore, hstep⟩ := PyExcept.foldlM_concat_eq_ok.mp h
    obtain ⟨hid, rfl⟩ := add_eq_ok.mp hstep
    obtain ⟨hholds, hids⟩ := ih hbefore
    refine ⟨hholds.addRecord, fun r' hr' => ?_⟩
    rcases List.mem_append.mp hr' with hr' | hr'
    · exact hids r' hr'
    · rw [List.mem_singleton.mp hr']
      exact hid

/-! ## Expansion is reachability -/

variable {seeds : List RecordKey}

/-- The keys that depend on the seeds, through relationships and shared days. -/
inductive Reachable (g : ImpactGraph) (seeds : List RecordKey) : RecordKey → Prop
  | seed {k : RecordKey} (hk : k ∈ seeds) : Reachable g seeds k
  | neighbor {k k' : RecordKey} (hk : Reachable g seeds k) (hk' : k' ∈ g.neighborsOf k) :
      Reachable g seeds k'
  | sameDay {k k' : RecordKey} {day : Date} (hk : Reachable g seeds k) (hday : day ∈ g.datesOf k)
      (hk' : k' ∈ g.keysOn day) : Reachable g seeds k'

/-- What the loop keeps: the visited keys are done up to the pending ones. -/
structure Exploring (g : ImpactGraph) (seeds pending visited : List RecordKey) (s : Collected) :
    Prop where
  reachable : ∀ k, k ∈ pending ∨ k ∈ visited → g.Reachable seeds k
  seeds : ∀ k ∈ seeds, k ∈ pending ∨ k ∈ visited
  neighbors : ∀ k ∈ visited, ∀ k' ∈ g.neighborsOf k, k' ∈ pending ∨ k' ∈ visited
  sameDay : ∀ day ∈ s.dates, ∀ k ∈ g.keysOn day, k ∈ pending ∨ k ∈ visited
  dates : ∀ day, day ∈ s.dates ↔ ∃ k ∈ visited, day ∈ g.datesOf k
  reasons : ∀ i, i ∈ s.reasons ↔ ∃ k ∈ visited, i ∈ g.reasonsOf k

variable {k} {pending visited : List RecordKey} {s : Collected}

theorem Exploring.skip (hk : k ∈ visited) (h : g.Exploring seeds (k :: pending) visited s) :
    g.Exploring seeds pending visited s := by
  have hmem : ∀ {k'}, k' ∈ k :: pending ∨ k' ∈ visited → k' ∈ pending ∨ k' ∈ visited := by
    rintro k' (hk' | hk')
    · rcases List.mem_cons.mp hk' with rfl | hk'
      · exact .inr hk
      · exact .inl hk'
    · exact .inr hk'
  exact ⟨fun k' hk' => h.reachable k' (hk'.imp_left (List.mem_cons_of_mem k)),
    fun k' hk' => hmem (h.seeds k' hk'),
    fun k' hk' k'' hk'' => hmem (h.neighbors k' hk' k'' hk''),
    fun day hday k' hk' => hmem (h.sameDay day hday k' hk'), h.dates, h.reasons⟩

theorem Exploring.visit (h : g.Exploring seeds (k :: pending) visited s) :
    g.Exploring seeds ((g.visit s k).2 ++ pending) (k :: visited) (g.visit s k).1 := by
  have hpushed : ∀ k', k' ∈ (g.visit s k).2 ↔
      (∃ day ∈ g.datesOf k, day ∉ s.dates ∧ k' ∈ g.keysOn day) ∨ k' ∈ g.neighborsOf k := by
    intro k'
    simp [ImpactGraph.visit, and_assoc]
  have hdates : ∀ day, day ∈ (g.visit s k).1.dates ↔ day ∈ s.dates ∨ day ∈ g.datesOf k := by
    intro day
    simp only [ImpactGraph.visit, List.mem_append, List.mem_filter, decide_eq_true_eq]
    tauto
  have hmem : ∀ {k'}, k' ∈ k :: pending ∨ k' ∈ visited →
      k' ∈ (g.visit s k).2 ++ pending ∨ k' ∈ k :: visited := by
    intro k' hk'
    simp only [List.mem_cons, List.mem_append] at hk' ⊢
    tauto
  have hkey : g.Reachable seeds k := h.reachable k (.inl (List.mem_cons_self ..))
  refine ⟨?_, fun k' hk' => hmem (h.seeds k' hk'), ?_, ?_, ?_, ?_⟩
  · rintro k' (hk' | hk')
    · rcases List.mem_append.mp hk' with hk' | hk'
      · rcases (hpushed k').mp hk' with ⟨day, hday, -, hon⟩ | hn
        · exact .sameDay hkey hday hon
        · exact .neighbor hkey hn
      · exact h.reachable k' (.inl (List.mem_cons_of_mem k hk'))
    · rcases List.mem_cons.mp hk' with rfl | hk'
      · exact hkey
      · exact h.reachable k' (.inr hk')
  · intro a ha k' hk'
    rcases List.mem_cons.mp ha with rfl | ha
    · exact .inl (List.mem_append_left _ ((hpushed k').mpr (.inr hk')))
    · exact hmem (h.neighbors a ha k' hk')
  · intro day hday k' hk'
    by_cases hold : day ∈ s.dates
    · exact hmem (h.sameDay day hold k' hk')
    · have hnew := ((hdates day).mp hday).resolve_left hold
      exact .inl (List.mem_append_left _ ((hpushed k').mpr (.inl ⟨day, hnew, hold, hk'⟩)))
  · intro day
    rw [hdates, h.dates]
    simp [or_comm]
  · intro i
    have hreasons : i ∈ (g.visit s k).1.reasons ↔ i ∈ s.reasons ∨ i ∈ g.reasonsOf k :=
      List.mem_union_iff
    rw [hreasons, h.reasons]
    simp [or_comm]

theorem exploring_expand (g : ImpactGraph) (seeds : List RecordKey) :
    g.Exploring seeds [] (g.expand seeds).1 (g.expand seeds).2 := by
  have hstart : g.Exploring seeds seeds [] ⟨[], []⟩ := by
    refine ⟨?_, fun k hk => .inl hk, ?_, ?_, ?_, ?_⟩
    · rintro k (hk | hk)
      · exact .seed hk
      · cases hk
    all_goals simp
  exact @Worklist.run_invariant _ _ _ _ (g.Exploring seeds) (fun hk h => h.skip hk)
    (fun _ h => h.visit) _ _ _ _ _ (Option.some_get (g.expand_isSome seeds)).symm hstart

/-- Expansion visits exactly the reachable keys. -/
theorem mem_expand : k ∈ (g.expand seeds).1 ↔ g.Reachable seeds k := by
  have h := exploring_expand g seeds
  have hdone : ∀ {k'}, k' ∈ [] ∨ k' ∈ (g.expand seeds).1 → k' ∈ (g.expand seeds).1 :=
    fun hk' => hk'.resolve_left List.not_mem_nil
  refine ⟨fun hk => h.reachable k (.inr hk), fun hk => ?_⟩
  induction hk with
  | seed hk => exact hdone (h.seeds _ hk)
  | neighbor _ hk' ih => exact hdone (h.neighbors _ ih _ hk')
  | sameDay _ hday hk' ih => exact hdone (h.sameDay _ ((h.dates _).mpr ⟨_, ih, hday⟩) _ hk')

theorem mem_expand_dates : d ∈ (g.expand seeds).2.dates ↔
    ∃ k, g.Reachable seeds k ∧ d ∈ g.datesOf k := by
  simp only [(exploring_expand g seeds).dates, mem_expand]

theorem mem_expand_reasons {i : Text} : i ∈ (g.expand seeds).2.reasons ↔
    ∃ k, g.Reachable seeds k ∧ i ∈ g.reasonsOf k := by
  simp only [(exploring_expand g seeds).reasons, mem_expand]

end ImpactGraph

end Threadline
