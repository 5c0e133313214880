import Threadline.EventRuns

/-!
# Rounds of the event ingestion

What a run does that is left alone. One file that makes it raise stops all of them,
in this run and in every later one.
-/

open PyText PyJson PyExcept Stepwise Runs

namespace Threadline

/-- The order in which a directory is listed. -/
structure Listing where
  order : List Text → List Text
  perm : ∀ names, (order names).Perm names

variable {library : EventLibrary} {content : Text → Bytes}

namespace EventStore

/-- What becomes of a file of the raw directory. -/
def verdict (library : EventLibrary) (s : EventStore) (name : Text) : Option FileVerdict :=
  (s.raw.get? name).map (judge library)

/-- A file that makes every run raise: its content does, or the server refuses the row. -/
def Blocking (library : EventLibrary) (s : EventStore) (name : Text) : Prop :=
  txt ".json" <:+ name ∧ (s.verdict library name = some .raises ∨
    ∃ event, s.verdict library name = some (.valid event) ∧ event.row? name = none)

/-- The refused ones of these files have been put aside. -/
structure CheckedTo (library : EventLibrary) (names : List Text) (s s' : EventStore) : Prop where
  processed : s'.processed = s.processed
  events : s'.events = s.events
  raw : ∀ name, s'.raw.get? name =
    if name ∈ names ∧ s.verdict library name = some .refused then none else s.raw.get? name
  bad : ∀ name, s'.bad.get? name =
    if name ∈ names ∧ s.verdict library name = some .refused then s.raw.get? name
    else s.bad.get? name

/-- These files have been archived. -/
structure ArchivedTo (names : List Text) (s s' : EventStore) : Prop where
  bad : s'.bad = s.bad
  events : s'.events = s.events
  raw : ∀ name, s'.raw.get? name = if name ∈ names then none else s.raw.get? name
  processed : ∀ name, s'.processed.get? name =
    if name ∈ names ∧ s.raw.get? name ≠ none then s.raw.get? name else s.processed.get? name

variable {s s' : EventStore} {name : Text} {names : List Text}

theorem checkedTo_nil (s : EventStore) : CheckedTo library [] s s :=
  ⟨rfl, rfl, fun _ => (if_neg fun h => nomatch h.1).symm, fun _ => (if_neg fun h => nomatch h.1).symm⟩

/-- A file that is not refused stays. -/
theorem CheckedTo.keep (h : CheckedTo library names s s')
    (hname : s.verdict library name ≠ some .refused) : CheckedTo library (name :: names) s s' := by
  have hsame : ∀ other, (other ∈ name :: names ∧ s.verdict library other = some .refused) ↔
      (other ∈ names ∧ s.verdict library other = some .refused) := by
    intro other
    refine and_congr_left fun hrefused => ⟨fun hmem => ?_, List.mem_cons_of_mem _⟩
    rcases List.mem_cons.mp hmem with rfl | hmem
    · exact absurd hrefused hname
    · exact hmem
  exact ⟨h.processed, h.events, fun other => by simp only [h.raw, hsame],
    fun other => by simp only [h.bad, hsame]⟩

/-- A refused file is put aside before the others. -/
theorem CheckedTo.putAside {c : Bytes} (hc : s.raw.get? name = some c)
    (hname : judge library c = .refused) (hnew : name ∉ names)
    (h : CheckedTo library names { s with raw := s.raw.erase name, bad := s.bad.set name c } s') :
    CheckedTo library (name :: names) s s' := by
  have hverdict : ∀ other ≠ name, verdict library
      { s with raw := s.raw.erase name, bad := s.bad.set name c } other =
        s.verdict library other := by
    intro other hother
    simp only [verdict, PyDict.get?_erase, if_neg hother.symm]
  have hrefused : s.verdict library name = some .refused := by
    rw [verdict, hc, Option.map_some, hname]
  refine ⟨h.processed, h.events, fun other => ?_, fun other => ?_⟩
  · rw [h.raw]
    by_cases hother : other = name
    · subst hother
      simp [hnew, hrefused]
    · simp [hverdict other hother, hother, Ne.symm hother]
  · rw [h.bad]
    by_cases hother : other = name
    · subst hother
      simp [hnew, hrefused, hc]
    · simp [hverdict other hother, hother, Ne.symm hother]

/-- The pending files have been put aside or loaded and archived. -/
def Handled (library : EventLibrary) (s s' : EventStore) : Prop :=
  ∀ name c, txt ".json" <:+ name → s.raw.get? name = some c → s'.raw.get? name = none ∧
    match judge library c with
    | .valid event => s'.processed.get? name = some c ∧ ∃ row, s'.events.get? name = some row ∧
        (s.events.get? name = none → event.row? name = some row)
    | .refused => s'.bad.get? name = some c
    | .raises => False

/-- Nothing has been loaded, and whatever blocks the runs still does. -/
structure Blocked (library : EventLibrary) (s s' : EventStore) : Prop where
  events : s'.events = s.events
  processed : s'.processed = s.processed
  blocking : ∀ name, s.Blocking library name → s'.Blocking library name

theorem CheckedTo.blocking (h : CheckedTo library names s s') (hname : s.Blocking library name) :
    s'.Blocking library name := by
  have hne : s.verdict library name ≠ some .refused := by
    rcases hname.2 with hraises | ⟨event, hvalid, -⟩
    · simp [hraises]
    · simp [hvalid]
  have hverdict : s'.verdict library name = s.verdict library name := by
    rw [verdict, h.raw, if_neg fun hmem => hne hmem.2, verdict]
  exact ⟨hname.1, hverdict.symm ▸ hname.2⟩

theorem CheckedTo.blocked (h : CheckedTo library names s s') : Blocked library s s' :=
  ⟨h.events, h.processed, fun _ => h.blocking⟩

theorem verdict_eq_some {verdict : FileVerdict} :
    s.verdict library name = some verdict ↔
      ∃ c, s.raw.get? name = some c ∧ judge library c = verdict := Option.map_eq_some_iff

/-- A file that blocks the runs is pending. -/
theorem Blocking.pending (h : s.Blocking library name) :
    txt ".json" <:+ name ∧ s.raw.get? name ≠ none := by
  refine ⟨h.1, ?_⟩
  rcases h.2 with hraises | ⟨event, hvalid, -⟩
  · obtain ⟨c, hc, -⟩ := verdict_eq_some.mp hraises
    rw [hc]
    exact Option.some_ne_none c
  · obtain ⟨c, hc, -⟩ := verdict_eq_some.mp hvalid
    rw [hc]
    exact Option.some_ne_none c

/-- A refused file has been put aside. -/
theorem CheckedTo.handled (h : CheckedTo library names s s') {c : Bytes} (hc : s.raw.get? name = some c)
    (hname : name ∈ names) (hjudge : judge library c = .refused) :
    s'.raw.get? name = none ∧ s'.bad.get? name = some c := by
  have hrefused : s.verdict library name = some .refused := by
    rw [verdict, hc, Option.map_some, hjudge]
  rw [h.raw, h.bad, if_pos ⟨hname, hrefused⟩, if_pos ⟨hname, hrefused⟩]
  exact ⟨rfl, hc⟩

end EventStore

namespace Ingesting

open EventStore

variable {s : EventStore} {name : Text}

/-! ## Operations that are left alone -/

theorem outcome_perform {α : Type} (f : EventStore → Except EventError α × EventStore)
    (s : EventStore) : (perform f).outcome s = f s := rfl

theorem outcome_readFile {c : Bytes} (hc : s.raw.get? name = some c) :
    (readFile name).outcome s = (.ok c, s) := by
  simp [readFile, Program.outcome, hc]

theorem outcome_moveToBad {c : Bytes} (hc : s.raw.get? name = some c) :
    (moveToBad name).outcome s =
      (.ok (), { s with raw := s.raw.erase name, bad := s.bad.set name c }) := by
  simp [moveToBad, pass, outcome_perform, hc]

theorem outcome_moveToProcessed {c : Bytes} (hc : s.raw.get? name = some c) :
    (moveToProcessed name).outcome s =
      (.ok (), { s with raw := s.raw.erase name, processed := s.processed.set name c }) := by
  simp [moveToProcessed, pass, outcome_perform, hc]

theorem outcome_checkFile {c : Bytes} (hc : s.raw.get? name = some c) :
    (checkFile library name).outcome s = match judge library c with
      | .valid event => (.ok (some event), s)
      | .refused =>
        (.ok none, { s with raw := s.raw.erase name, bad := s.bad.set name c })
      | .raises => (.error .uncaught, s) := by
  simp only [checkFile, Program.outcome_bind, Program.outcome_tryCatch, outcome_readFile hc,
    Program.outcome_pure]
  cases judge library c with
  | valid event => rfl
  | refused => simp [outcome_moveToBad hc]
  | raises => rfl

/-- The rest of the files is checked from where the first one has left. -/
theorem outcome_checkFiles_cons {c : Bytes} (hc : s.raw.get? name = some c) (names : List Text) :
    (checkFiles library (name :: names)).outcome s = match judge library c with
      | .valid event =>
        (((checkFiles library names).outcome s).1.map (List.cons (name, event)),
          ((checkFiles library names).outcome s).2)
      | .refused => (checkFiles library names).outcome
          { s with raw := s.raw.erase name, bad := s.bad.set name c }
      | .raises => (.error .uncaught, s) := by
  simp only [checkFiles, Program.outcome_bind, outcome_checkFile hc]
  cases judge library c with
  | valid event =>
    rcases hrest : (checkFiles library names).outcome s with ⟨_ | _, s'⟩ <;>
      simp [hrest, Except.map]
  | refused =>
    rcases hrest : (checkFiles library names).outcome
      { s with raw := s.raw.erase name, bad := s.bad.set name c } with ⟨_ | _, s'⟩ <;>
      simp [hrest]
  | raises => rfl

/-- The records of these files. -/
structure Collected (library : EventLibrary) (names : List Text) (s : EventStore)
    (records : List (Text × EventRecord)) : Prop where
  clean : ∀ name ∈ names, s.verdict library name ≠ some .raises
  mem : ∀ name event, (name, event) ∈ records ↔
    name ∈ names ∧ s.verdict library name = some (.valid event)
  nodup : (records.map Prod.fst).Nodup

theorem Collected.valid {names : List Text} {records : List (Text × EventRecord)}
    (h : Collected library names s records) (hnew : name ∉ names) {event : EventRecord}
    (hname : s.verdict library name = some (.valid event)) :
    Collected library (name :: names) s ((name, event) :: records) where
  clean := List.forall_mem_cons.mpr ⟨by simp [hname], h.clean⟩
  mem other event' := by
    rw [List.mem_cons, List.mem_cons, h.mem, Prod.mk.injEq]
    constructor
    · rintro (⟨rfl, rfl⟩ | ⟨hmem, hother⟩)
      · exact ⟨.inl rfl, hname⟩
      · exact ⟨.inr hmem, hother⟩
    · rintro ⟨rfl | hmem, hother⟩
      · rw [hname] at hother
        exact .inl ⟨rfl, (FileVerdict.valid.inj (Option.some.inj hother)).symm⟩
      · exact .inr ⟨hmem, hother⟩
  nodup := by
    refine List.nodup_cons.mpr ⟨fun hmem => ?_, h.nodup⟩
    obtain ⟨record, hrecord, rfl⟩ := List.mem_map.mp hmem
    exact hnew ((h.mem _ _).mp hrecord).1

/-- A file that has been put aside has no record. -/
theorem Collected.refused {names : List Text} {records : List (Text × EventRecord)}
    {s' : EventStore} (h : Collected library names s' records)
    (hothers : ∀ other ∈ names, s'.verdict library other = s.verdict library other)
    (hname : s.verdict library name = some .refused) :
    Collected library (name :: names) s records where
  clean := List.forall_mem_cons.mpr ⟨by simp [hname], fun other hother =>
    hothers other hother ▸ h.clean other hother⟩
  mem other event := by
    rw [h.mem, List.mem_cons]
    constructor
    · rintro ⟨hmem, hother⟩
      exact ⟨.inr hmem, hothers other hmem ▸ hother⟩
    · rintro ⟨rfl | hmem, hother⟩
      · rw [hname] at hother
        cases hother
      · exact ⟨hmem, (hothers other hmem).trans hother⟩
  nodup := h.nodup

/-- The files are checked one after the other, up to one that makes the run raise. -/
theorem outcome_checkFiles {names : List Text} (hn : names.Nodup)
    (hraw : ∀ name ∈ names, s.raw.get? name ≠ none) :
    ∃ done ⊆ names, CheckedTo library done s ((checkFiles library names).outcome s).2 ∧
      match ((checkFiles library names).outcome s).1 with
      | .ok records => done = names ∧ Collected library names s records
      | .error _ => ∃ name ∈ names, s.verdict library name = some .raises := by
  induction names generalizing s with
  | nil =>
    refine ⟨[], List.Subset.refl _, checkedTo_nil s, rfl, ⟨nofun, fun name event => ?_, List.nodup_nil⟩⟩
    exact ⟨nofun, fun h => nomatch h.1⟩
  | cons name names ih =>
    obtain ⟨hnew, hn⟩ := List.nodup_cons.mp hn
    obtain ⟨c, hc⟩ := Option.ne_none_iff_exists'.mp (hraw name List.mem_cons_self)
    have hverdict : s.verdict library name = some (judge library c) := by
      rw [verdict, hc, Option.map_some]
    have hne : ∀ other ∈ names, other ≠ name := fun other hother heq => hnew (heq ▸ hother)
    rw [outcome_checkFiles_cons hc]
    cases hjudge : judge library c with
    | raises =>
      rw [hjudge] at hverdict
      exact ⟨[], List.nil_subset _, checkedTo_nil s, name, List.mem_cons_self, hverdict⟩
    | valid event =>
      rw [hjudge] at hverdict
      obtain ⟨done, hdone, hchecked, hresult⟩ := ih hn fun other hother =>
        hraw other (List.mem_cons_of_mem _ hother)
      have hkept : s.verdict library name ≠ some .refused := by simp [hverdict]
      refine ⟨name :: done, List.cons_subset_cons _ hdone, hchecked.keep hkept, ?_⟩
      cases hrest : ((checkFiles library names).outcome s).1 with
      | error e =>
        rw [hrest] at hresult
        obtain ⟨other, hother, hraises⟩ := hresult
        exact ⟨other, List.mem_cons_of_mem _ hother, hraises⟩
      | ok records =>
        rw [hrest] at hresult
        obtain ⟨rfl, hcollected⟩ := hresult
        exact ⟨rfl, hcollected.valid hnew hverdict⟩
    | refused =>
      rw [hjudge] at hverdict
      set s₁ : EventStore := { s with raw := s.raw.erase name, bad := s.bad.set name c } with hs₁
      have hothers : ∀ other ∈ names, s₁.verdict library other = s.verdict library other := by
        intro other hother
        simp only [hs₁, verdict, PyDict.get?_erase, if_neg (hne other hother).symm]
      obtain ⟨done, hdone, hchecked, hresult⟩ := ih (s := s₁) hn fun other hother => by
        simp only [hs₁, PyDict.get?_erase, if_neg (hne other hother).symm]
        exact hraw other (List.mem_cons_of_mem _ hother)
      refine ⟨name :: done, List.cons_subset_cons _ hdone,
        hchecked.putAside hc hjudge fun hmem => hnew (hdone hmem), ?_⟩
      dsimp only
      cases hrest : ((checkFiles library names).outcome s₁).1 with
      | error e =>
        rw [hrest] at hresult
        obtain ⟨other, hother, hraises⟩ := hresult
        exact ⟨other, List.mem_cons_of_mem _ hother, (hothers other hother) ▸ hraises⟩
      | ok records =>
        rw [hrest] at hresult
        obtain ⟨rfl, hcollected⟩ := hresult
        exact ⟨rfl, hcollected.refused hothers hverdict⟩

theorem outcome_loadRecords (records : List (Text × EventRecord)) (s : EventStore) :
    (loadRecords records).outcome s =
      match records.mapM fun record => (record.2.row? record.1).map (Prod.mk record.1) with
      | some rows => (.ok (), { s with events := rows.foldl insertEvent s.events })
      | none => (.error .database, s) := by
  simp only [loadRecords, insertRecords, pass, commitRows, Program.outcome_bind, outcome_perform,
    Program.outcome_tryFinally, Program.outcome_done]
  cases records.mapM fun record => (record.2.row? record.1).map (Prod.mk record.1) <;> rfl

/-- All files that are there are archived. -/
theorem outcome_archiveFiles {names : List Text} (hn : names.Nodup) (s : EventStore) :
    ((archiveFiles names).outcome s).1 = .ok () ∧
      ArchivedTo names s ((archiveFiles names).outcome s).2 := by
  induction names generalizing s with
  | nil =>
    exact ⟨rfl, rfl, rfl, fun _ => (if_neg List.not_mem_nil).symm,
      fun _ => (if_neg fun h => nomatch h.1).symm⟩
  | cons name names ih =>
    obtain ⟨hnew, hn⟩ := List.nodup_cons.mp hn
    cases hc : s.raw.get? name with
    | none =>
      have hrest : (archiveFiles (name :: names)).outcome s = (archiveFiles names).outcome s := by
        simp [archiveFiles, fileExists, outcome_perform, hc]
      obtain ⟨hok, harchived⟩ := ih hn s
      rw [hrest]
      refine ⟨hok, harchived.bad, harchived.events, fun other => ?_, fun other => ?_⟩
      · rw [harchived.raw]
        by_cases hother : other = name
        · subst hother
          simp [hc]
        · simp [hother]
      · rw [harchived.processed]
        by_cases hother : other = name
        · subst hother
          simp [hc]
        · simp [hother]
    | some c =>
      have hrest : (archiveFiles (name :: names)).outcome s = (archiveFiles names).outcome
          { s with raw := s.raw.erase name, processed := s.processed.set name c } := by
        simp [archiveFiles, fileExists, outcome_perform, outcome_moveToProcessed hc, hc]
      obtain ⟨hok, harchived⟩ := ih hn
        { s with raw := s.raw.erase name, processed := s.processed.set name c }
      rw [hrest]
      refine ⟨hok, harchived.bad, harchived.events, fun other => ?_, fun other => ?_⟩
      · rw [harchived.raw]
        by_cases hother : other = name
        · subst hother
          simp
        · simp [hother, Ne.symm hother]
      · rw [harchived.processed]
        by_cases hother : other = name
        · subst hother
          simp [hnew, hc]
        · simp [hother, Ne.symm hother]

/-! ## A run that is left alone -/

theorem mem_pending (listing : Listing) (s : EventStore) :
    name ∈ (listing.order s.raw.keys).filter (fun name => txt ".json" <:+ name) ↔
      txt ".json" <:+ name ∧ s.raw.get? name ≠ none := by
  rw [List.mem_filter, (listing.perm _).mem_iff, PyDict.mem_keys_iff, decide_eq_true_eq, and_comm,
    Option.ne_none_iff_exists']

/-- The part of a run behind the checks. -/
theorem outcome_load {records : List (Text × EventRecord)} (hn : (records.map Prod.fst).Nodup)
    (s : EventStore) :
    match records.mapM fun record => (record.2.row? record.1).map (Prod.mk record.1) with
    | none => (do
        loadRecords records
        archiveFiles (records.map Prod.fst)
        pure records.length).outcome s = (.error .database, s)
    | some rows => ∃ s', (do
        loadRecords records
        archiveFiles (records.map Prod.fst)
        pure records.length).outcome s = (.ok records.length, s') ∧
          ArchivedTo (records.map Prod.fst)
            { s with events := rows.foldl insertEvent s.events } s' := by
  simp only [Program.outcome_bind, outcome_loadRecords]
  cases records.mapM fun record => (record.2.row? record.1).map (Prod.mk record.1) with
  | none => rfl
  | some rows =>
    obtain ⟨hok, harchived⟩ := outcome_archiveFiles hn
      { s with events := rows.foldl insertEvent s.events }
    rcases harchive : (archiveFiles (records.map Prod.fst)).outcome
      { s with events := rows.foldl insertEvent s.events } with ⟨ended, s'⟩
    rw [harchive] at hok harchived
    subst hok
    exact ⟨s', by simp only [harchive, Program.outcome_pure], harchived⟩

/-- A file without a record has been put aside. -/
theorem Collected.refused_of_not_mem {names : List Text} {records : List (Text × EventRecord)}
    (h : Collected library names s records) (hname : name ∈ names) {c : Bytes}
    (hc : s.raw.get? name = some c) (hnot : ∀ event, (name, event) ∉ records) :
    judge library c = .refused := by
  have hverdict : s.verdict library name = some (judge library c) := by
    rw [verdict, hc, Option.map_some]
  cases hjudge : judge library c with
  | refused => rfl
  | raises => exact absurd (hjudge ▸ hverdict) (h.clean name hname)
  | valid event => exact absurd ((h.mem name event).mpr ⟨hname, hjudge ▸ hverdict⟩) (hnot event)

/-- A valid file has been archived with its event in the table. -/
theorem Collected.loaded {names : List Text} {records : List (Text × EventRecord)}
    {rows : List (Text × RawEvent)} {s₁ s₂ : EventStore} {event : EventRecord} {c : Bytes}
    (h : Collected library names s records) (hchecked : CheckedTo library names s s₁)
    (hrows : records.mapM (fun record => (record.2.row? record.1).map (Prod.mk record.1)) = some rows)
    (harchived : ArchivedTo (records.map Prod.fst)
      { s₁ with events := rows.foldl insertEvent s₁.events } s₂)
    (hname : name ∈ names) (hc : s.raw.get? name = some c) (hjudge : judge library c = .valid event) :
    s₂.raw.get? name = none ∧ s₂.processed.get? name = some c ∧
      ∃ row, s₂.events.get? name = some row ∧
        (s.events.get? name = none → event.row? name = some row) := by
  have hverdict : s.verdict library name = some (.valid event) := by
    rw [verdict, hc, Option.map_some, hjudge]
  have hrecord : (name, event) ∈ records := (h.mem name event).mpr ⟨hname, hverdict⟩
  have hin : name ∈ records.map Prod.fst := List.mem_map.mpr ⟨_, hrecord, rfl⟩
  have hc₁ : s₁.raw.get? name = some c := by
    rw [hchecked.raw, if_neg fun hrefused => ?_, hc]
    rw [hverdict] at hrefused
    cases hrefused.2
  refine ⟨by rw [harchived.raw, if_pos hin], ?_, ?_⟩
  · rw [harchived.processed, if_pos ⟨hin, by simp [hc₁]⟩]
    exact hc₁
  · obtain ⟨row, hrow, hmap⟩ := exists_of_mapM_eq_some hrows hrecord
    obtain ⟨value, -, rfl⟩ := Option.map_eq_some_iff.mp hmap
    obtain ⟨loaded, hloaded⟩ := Option.ne_none_iff_exists'.mp
      (get?_insertEvents_ne_none hrow)
    refine ⟨loaded, by rw [harchived.events]; exact hloaded, fun hnone => ?_⟩
    -- no other record has this file
    rcases get?_insertEvents hloaded with hold | ⟨-, hnew⟩
    · rw [hchecked.events, hnone] at hold
      cases hold
    · obtain ⟨⟨name', event'⟩, hrecord', hmap'⟩ := (mem_of_mapM_eq_some hrows).mp hnew
      obtain ⟨value', hvalue', heq⟩ := Option.map_eq_some_iff.mp hmap'
      obtain ⟨rfl, rfl⟩ := Prod.mk.inj heq
      have hsame := ((h.mem name' event').mp hrecord').2
      rw [hverdict] at hsame
      obtain rfl := FileVerdict.valid.inj (Option.some.inj hsame)
      exact hvalue'

/-- A run that is left alone handles all pending files, unless one of them blocks it. -/
theorem outcome_runIngest (library : EventLibrary) (listing : Listing) (s : EventStore) :
    match ((runIngest library listing.order).outcome s).1 with
    | .ok _ => (∀ name, ¬ s.Blocking library name) ∧
        Handled library s ((runIngest library listing.order).outcome s).2
    | .error _ => (∃ name, s.Blocking library name) ∧
        Blocked library s ((runIngest library listing.order).outcome s).2 := by
  set pending := (listing.order s.raw.keys).filter fun name => txt ".json" <:+ name with hpending
  have hmem : ∀ {name}, name ∈ pending ↔ txt ".json" <:+ name ∧ s.raw.get? name ≠ none :=
    mem_pending listing s
  have hnodup : pending.Nodup :=
    ((listing.perm _).nodup_iff.mpr (PyDict.nodup_keys _)).filter _
  simp only [runIngest, Program.outcome_bind, listNames, outcome_perform, ← hpending]
  split_ifs with hnone
  · refine ⟨fun name hname => ?_, fun name c hjson hc => ?_⟩
    · have hin := hmem.mpr (Blocking.pending hname)
      rw [hnone] at hin
      cases hin
    · have hin := hmem.mpr ⟨hjson, by rw [hc]; exact Option.some_ne_none c⟩
      rw [hnone] at hin
      cases hin
  obtain ⟨done, -, hchecked, hresult⟩ : ∃ done ⊆ pending, _ :=
    outcome_checkFiles hnodup fun name hname => (hmem.mp hname).2
  rcases hfiles : (checkFiles library pending).outcome s with ⟨result, s₁⟩
  rw [hfiles] at hchecked hresult
  rw [Program.outcome_bind, hfiles]
  cases result with
  | error e =>
    obtain ⟨name, hname, hraises⟩ := hresult
    exact ⟨⟨name, (hmem.mp hname).1, .inl hraises⟩, hchecked.blocked⟩
  | ok records =>
    obtain ⟨rfl, hcollected⟩ := hresult
    -- a file that blocks the run has the record of a row that the server refuses
    have hblocking : ∀ name, s.Blocking library name →
        ∃ event, (name, event) ∈ records ∧ event.row? name = none := by
      intro name hname
      have hin := hmem.mpr hname.pending
      rcases hname.2 with hraises | ⟨event, hvalid, hrow⟩
      · exact absurd hraises (hcollected.clean name hin)
      · exact ⟨event, (hcollected.mem name event).mpr ⟨hin, hvalid⟩, hrow⟩
    dsimp only
    split_ifs with hempty
    · refine ⟨fun name hname => ?_, fun name c hjson hc => ?_⟩
      · obtain ⟨event, hevent, -⟩ := hblocking name hname
        rw [hempty] at hevent
        cases hevent
      · have hin := hmem.mpr ⟨hjson, by rw [hc]; exact Option.some_ne_none c⟩
        have hjudge := hcollected.refused_of_not_mem hin hc fun event hevent => by
          rw [hempty] at hevent
          cases hevent
        rw [hjudge]
        exact hchecked.handled hc hin hjudge
    · have hload := outcome_load hcollected.nodup s₁
      cases hrows : records.mapM fun record => (record.2.row? record.1).map (Prod.mk record.1) with
      | none =>
        rw [hrows] at hload
        obtain ⟨⟨name, event⟩, hrecord, hrow⟩ := exists_of_mapM_eq_none hrows
        obtain ⟨hin, hvalid⟩ := (hcollected.mem name event).mp hrecord
        rw [hload]
        exact ⟨⟨name, (hmem.mp hin).1, .inr ⟨event, hvalid, Option.map_eq_none_iff.mp hrow⟩⟩,
          hchecked.blocked⟩
      | some rows =>
        rw [hrows] at hload
        obtain ⟨s₂, hload, harchived⟩ := hload
        rw [hload]
        refine ⟨fun name hname => ?_, fun name c hjson hc => ?_⟩
        · obtain ⟨event, hevent, hrow⟩ := hblocking name hname
          obtain ⟨row, -, hmap⟩ := exists_of_mapM_eq_some hrows hevent
          rw [hrow] at hmap
          cases hmap
        · have hin := hmem.mpr ⟨hjson, by rw [hc]; exact Option.some_ne_none c⟩
          have hverdict : s.verdict library name = some (judge library c) := by
            rw [verdict, hc, Option.map_some]
          cases hjudge : judge library c with
          | valid event => exact hcollected.loaded hchecked hrows harchived hin hc hjudge
          | raises => exact absurd (hjudge ▸ hverdict) (hcollected.clean name hin)
          | refused =>
            obtain ⟨hraw, hbad⟩ := hchecked.handled hc hin hjudge
            have hnot : name ∉ records.map Prod.fst := by
              intro hin
              obtain ⟨⟨name', event⟩, hrecord, rfl⟩ := List.mem_map.mp hin
              have hvalid := ((hcollected.mem name' event).mp hrecord).2
              rw [hverdict, hjudge] at hvalid
              cases hvalid
            refine ⟨by rw [harchived.raw, if_neg hnot]; exact hraw, ?_⟩
            rw [harchived.bad]
            exact hbad

end Ingesting

/-! ## Any number of rounds -/

/-- Files that arrive, and a run that is left alone. -/
structure Round where
  arrivals : List Text
  listing : Listing

open EventStore Ingesting

/-- The store after a round, where a name always stands for the same file. -/
def nextRound (library : EventLibrary) (content : Text → Bytes) (s : EventStore) (round : Round) :
    EventStore :=
  ((runIngest library round.listing.order).outcome
    (round.arrivals.foldl (arrive content) s)).2

def afterRounds (library : EventLibrary) (content : Text → Bytes) (rounds : List Round) :
    EventStore := run (nextRound library content) ∅ rounds

theorem arrives_arrivals (names : List Text) (s : EventStore) :
    s.Arrives content (names.foldl (arrive content) s) := by
  induction names generalizing s with
  | nil => exact .refl s
  | cons name names ih => exact (arrives_arrive s name).trans (ih _)

/-- A round keeps the store consistent. -/
theorem consistent_nextRound {s : EventStore} (hs : s.Consistent library content) (round : Round) :
    (nextRound library content s round).Consistent library content := by
  have harrived := (arrives_arrivals round.arrivals s).consistent hs
  exact (Program.Ensures.outcome Arrives.refl (safe_runIngest round.listing.order harrived)).1

/-- A file that arrives does not take the place of another one. -/
theorem blocking_arrivals {s : EventStore} (hs : s.Consistent library content) (names : List Text)
    {name : Text} (h : s.Blocking library name) :
    (names.foldl (arrive content) s).Blocking library name := by
  have harrives : s.Arrives content (names.foldl (arrive content) s) := arrives_arrivals names s
  obtain ⟨c, hc⟩ := Option.ne_none_iff_exists'.mp (harrives.kept name h.pending.2)
  obtain ⟨c', hc'⟩ := Option.ne_none_iff_exists'.mp h.pending.2
  have hsame : c = c' := by
    rw [(harrives.consistent hs).raw name c hc, hs.raw name c' hc']
  have hverdict : (names.foldl (arrive content) s).verdict library name =
      s.verdict library name := by
    rw [verdict, verdict, hc, hc', hsame]
  exact ⟨h.1, hverdict.symm ▸ h.2⟩

/-- Blocked rounds leave the table and the archive alone. -/
theorem blocked_rounds {s : EventStore} (hs : s.Consistent library content) {name : Text}
    (h : s.Blocking library name) (rounds : List Round) :
    (run (nextRound library content) s rounds).events = s.events ∧
      (run (nextRound library content) s rounds).processed = s.processed ∧
      (run (nextRound library content) s rounds).Blocking library name := by
  induction rounds generalizing s with
  | nil => exact ⟨rfl, rfl, h⟩
  | cons round rounds ih =>
    have harrives : s.Arrives content (round.arrivals.foldl (arrive content) s) :=
      arrives_arrivals round.arrivals s
    have harrived := blocking_arrivals hs round.arrivals h
    have hrun := outcome_runIngest library round.listing
      (round.arrivals.foldl (arrive content) s)
    cases hresult : ((runIngest library round.listing.order).outcome
      (round.arrivals.foldl (arrive content) s)).1 with
    | ok n =>
      rw [hresult] at hrun
      exact absurd harrived (hrun.1 name)
    | error e =>
      rw [hresult] at hrun
      have hblocked : Blocked library (round.arrivals.foldl (arrive content) s)
        (nextRound library content s round) := hrun.2
      obtain ⟨hevents, hprocessed, hblocking⟩ :=
        ih (consistent_nextRound hs round) (hblocked.blocking name harrived)
      refine ⟨hevents.trans ?_, hprocessed.trans ?_, hblocking⟩
      · rw [hblocked.events, harrives.events]
      · rw [hblocked.processed, harrives.processed]

end Threadline
