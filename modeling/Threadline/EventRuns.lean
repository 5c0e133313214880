import Threadline.EventIngest

/-!
# Runs of the event ingestion

Files arrive at any time, runs stop at any of their operations and start again: no
file is lost, no event is loaded twice, and what is loaded stays. Left alone, a run
loads all pending events or, where one file stands in its way, none of them.
-/

open PyText PyJson PyExcept Stepwise Runs

namespace Threadline

variable {library : EventLibrary} {content : Text → Bytes}

namespace EventStore

/-- The file is in one of the directories. -/
def Has (s : EventStore) (name : Text) : Prop :=
  s.raw.get? name ≠ none ∨ s.bad.get? name ≠ none ∨ s.processed.get? name ≠ none

/-- Every file is as it came. A file was put aside because it was refused or could not be read, or
archived because its event had been loaded, and every row is that of the event of its file. -/
structure Consistent (library : EventLibrary) (content : Text → Bytes) (s : EventStore) : Prop where
  raw : ∀ name c, s.raw.get? name = some c → c = content name
  bad : ∀ name c, s.bad.get? name = some c →
    c = content name ∧ (judge library (content name) = .refused ∨ name ∈ s.unread)
  processed : ∀ name c, s.processed.get? name = some c →
    c = content name ∧ s.events.get? name ≠ none
  events : ∀ name row, s.events.get? name = some row →
    ∃ event, judge library (content name) = .valid event ∧ event.row? name = some row

/-- What the steps of a run do. -/
structure Advances (library : EventLibrary) (content : Text → Bytes) (s s' : EventStore) : Prop where
  has : ∀ name, s.Has name → s'.Has name
  events : ∀ name row, s.events.get? name = some row → s'.events.get? name = some row
  consistent : s.Consistent library content → s'.Consistent library content

/-- What a run relies on: the other processes only put files into the raw directory. -/
structure Arrives (content : Text → Bytes) (s s' : EventStore) : Prop where
  raw : ∀ name c, s'.raw.get? name = some c → s.raw.get? name = some c ∨ c = content name
  kept : ∀ name, s.raw.get? name ≠ none → s'.raw.get? name ≠ none
  bad : s'.bad = s.bad
  processed : s'.processed = s.processed
  events : s'.events = s.events
  unread : s'.unread = s.unread

variable {s s' s'' : EventStore}

theorem consistent_empty : (∅ : EventStore).Consistent library content :=
  ⟨nofun, nofun, nofun, nofun⟩

theorem Advances.refl (s : EventStore) : s.Advances library content s :=
  ⟨fun _ => id, fun _ _ => id, id⟩

theorem Advances.trans (h : s.Advances library content s') (h' : s'.Advances library content s'') :
    s.Advances library content s'' :=
  ⟨fun name => h'.has name ∘ h.has name, fun name row => h'.events name row ∘ h.events name row,
    h'.consistent ∘ h.consistent⟩

theorem Arrives.refl (s : EventStore) : s.Arrives content s :=
  ⟨fun _ _ => .inl, fun _ => id, rfl, rfl, rfl, rfl⟩

theorem Arrives.trans (h : s.Arrives content s') (h' : s'.Arrives content s'') :
    s.Arrives content s'' where
  raw name c hc := (h'.raw name c hc).elim (h.raw name c) .inr
  kept name := h'.kept name ∘ h.kept name
  bad := h'.bad.trans h.bad
  processed := h'.processed.trans h.processed
  events := h'.events.trans h.events
  unread := h'.unread.trans h.unread

theorem Arrives.consistent (h : s.Arrives content s') (hs : s.Consistent library content) :
    s'.Consistent library content where
  raw name c hc := (h.raw name c hc).elim (hs.raw name c) id
  bad := by
    rw [h.bad, h.unread]
    exact hs.bad
  processed := by
    rw [h.processed, h.events]
    exact hs.processed
  events := by
    rw [h.events]
    exact hs.events

theorem Arrives.advances (h : s.Arrives content s') : s.Advances library content s' where
  has name hname := by
    unfold Has at hname ⊢
    rw [h.bad, h.processed]
    exact hname.imp_left (h.kept name)
  events name row hrow := by
    rw [h.events]
    exact hrow
  consistent := h.consistent

/-- A file arrives. -/
def arrive (content : Text → Bytes) (s : EventStore) (name : Text) : EventStore :=
  { s with raw := s.raw.set name (content name) }

theorem arrives_arrive (s : EventStore) (name : Text) : s.Arrives content (s.arrive content name) where
  raw other c hc := by
    rw [arrive, PyDict.get?_set] at hc
    split_ifs at hc with hother
    · exact .inr (hother ▸ (Option.some.inj hc).symm)
    · exact .inl hc
  kept other hother := by
    rw [arrive, PyDict.get?_set]
    split_ifs
    · exact Option.some_ne_none _
    · exact hother
  bad := rfl
  processed := rfl
  events := rfl
  unread := rfl

/-! ## Operations -/

/-- A file that could not be read is noted. -/
theorem advances_unread (s : EventStore) (name : Text) :
    s.Advances library content { s with unread := s.unread ++ [name] } where
  has _ := id
  events _ _ := id
  consistent hs := { hs with
    bad := fun other c hc => ⟨(hs.bad other c hc).1,
      (hs.bad other c hc).2.imp_right (List.mem_append_left _)⟩ }

theorem has_of_moved {name other : Text} {c : Bytes} (d : PyDict Text Bytes)
    (h : s.raw.get? other ≠ none) :
    (s.raw.erase name).get? other ≠ none ∨ (d.set name c).get? other ≠ none := by
  by_cases hother : name = other
  · subst hother
    right
    rw [PyDict.get?_set, if_pos rfl]
    exact Option.some_ne_none c
  · left
    rwa [PyDict.get?_erase, if_neg hother]

theorem get?_set_ne_none {α : Type} {d : PyDict Text α} {name other : Text} {v : α}
    (h : d.get? other ≠ none) : (d.set name v).get? other ≠ none := by
  rw [PyDict.get?_set]
  split_ifs
  · exact Option.some_ne_none v
  · exact h

theorem advances_moveToBad {name : Text} {c : Bytes} (hc : s.raw.get? name = some c)
    (hname : judge library (content name) = .refused ∨ name ∈ s.unread) :
    s.Advances library content
      { s with raw := s.raw.erase name, bad := s.bad.set name c } where
  has other hother := by
    rcases hother with hraw | hbad | hprocessed
    · exact (has_of_moved s.bad hraw).imp_right .inl
    · exact .inr (.inl (get?_set_ne_none hbad))
    · exact .inr (.inr hprocessed)
  events _ _ := id
  consistent hs := { hs with
    raw := fun other c' hc' => by
      rw [PyDict.get?_erase] at hc'
      split_ifs at hc'
      exact hs.raw other c' hc'
    bad := fun other c' hc' => by
      rw [PyDict.get?_set] at hc'
      split_ifs at hc' with hother
      · subst hother
        exact ⟨Option.some.inj hc' ▸ hs.raw name c hc, hname⟩
      · exact hs.bad other c' hc' }

theorem advances_moveToProcessed {name : Text} {c : Bytes} (hc : s.raw.get? name = some c)
    (hname : s.events.get? name ≠ none) :
    s.Advances library content
      { s with raw := s.raw.erase name, processed := s.processed.set name c } where
  has other hother := by
    rcases hother with hraw | hbad | hprocessed
    · exact (has_of_moved s.processed hraw).imp_right .inr
    · exact .inr (.inl hbad)
    · exact .inr (.inr (get?_set_ne_none hprocessed))
  events _ _ := id
  consistent hs := { hs with
    raw := fun other c' hc' => by
      rw [PyDict.get?_erase] at hc'
      split_ifs at hc'
      exact hs.raw other c' hc'
    processed := fun other c' hc' => by
      rw [PyDict.get?_set] at hc'
      split_ifs at hc' with hother
      · subst hother
        exact ⟨Option.some.inj hc' ▸ hs.raw name c hc, hname⟩
      · exact hs.processed other c' hc' }

/-! ## The rows -/

theorem get?_insertEvent_of_some {events : PyDict Text RawEvent} (row : Text × RawEvent) {name : Text}
    {loaded : RawEvent} (h : events.get? name = some loaded) :
    (insertEvent events row).get? name = some loaded := by
  unfold insertEvent
  cases hrow : events.get? row.1 with
  | some _ => exact h
  | none =>
    rw [PyDict.get?_set, if_neg fun heq => ?_]
    · exact h
    · rw [heq, h] at hrow
      cases hrow

/-- A row is the one that was there or the first one that is inserted. -/
theorem get?_insertEvents {rows : List (Text × RawEvent)} {events : PyDict Text RawEvent}
    {name : Text} {loaded : RawEvent}
    (h : (rows.foldl insertEvent events).get? name = some loaded) :
    events.get? name = some loaded ∨ (events.get? name = none ∧ (name, loaded) ∈ rows) := by
  induction rows generalizing events with
  | nil => exact .inl h
  | cons row rows ih =>
    rcases ih h with hinserted | ⟨hnone, hmem⟩
    · unfold insertEvent at hinserted
      cases hrow : events.get? row.1 with
      | some _ =>
        rw [hrow] at hinserted
        exact .inl hinserted
      | none =>
        rw [hrow, PyDict.get?_set] at hinserted
        split_ifs at hinserted with hname
        · obtain rfl := Option.some.inj hinserted
          subst hname
          exact .inr ⟨hrow, List.mem_cons_self⟩
        · exact .inl hinserted
    · cases hevents : events.get? name with
      | some other =>
        rw [get?_insertEvent_of_some row hevents] at hnone
        cases hnone
      | none => exact .inr ⟨rfl, List.mem_cons_of_mem _ hmem⟩

theorem get?_insertEvents_of_some {rows : List (Text × RawEvent)} {events : PyDict Text RawEvent}
    {name : Text} {loaded : RawEvent} (h : events.get? name = some loaded) :
    (rows.foldl insertEvent events).get? name = some loaded := by
  induction rows generalizing events with
  | nil => exact h
  | cons row rows ih => exact ih (get?_insertEvent_of_some row h)

theorem get?_insertEvents_ne_none {rows : List (Text × RawEvent)} {events : PyDict Text RawEvent}
    {row : Text × RawEvent} (h : row ∈ rows) :
    (rows.foldl insertEvent events).get? row.1 ≠ none := by
  induction rows generalizing events with
  | nil => cases h
  | cons first rows ih =>
    rcases List.mem_cons.mp h with rfl | hmem
    · -- the row is there or is inserted now
      have hinserted : ∃ loaded, (insertEvent events row).get? row.1 = some loaded := by
        unfold insertEvent
        cases hrow : events.get? row.1 with
        | some loaded => exact ⟨loaded, hrow⟩
        | none => exact ⟨row.2, by rw [PyDict.get?_set, if_pos rfl]⟩
      obtain ⟨loaded, hloaded⟩ := hinserted
      rw [List.foldl_cons, get?_insertEvents_of_some hloaded]
      exact Option.some_ne_none loaded
    · exact ih hmem

/-- The rows of valid files may be inserted. -/
theorem advances_commitRows {rows : List (Text × RawEvent)}
    (h : ∀ row ∈ rows, ∃ event, judge library (content row.1) = .valid event ∧
      event.row? row.1 = some row.2) :
    s.Advances library content { s with events := rows.foldl insertEvent s.events } where
  has _ := id
  events _ _ := get?_insertEvents_of_some
  consistent hs := { hs with
    processed := fun name c hc => by
      obtain ⟨hcontent, hloaded⟩ := hs.processed name c hc
      obtain ⟨row, hrow⟩ := Option.ne_none_iff_exists'.mp hloaded
      refine ⟨hcontent, ?_⟩
      rw [get?_insertEvents_of_some hrow]
      exact Option.some_ne_none row
    events := fun name row hrow =>
      (get?_insertEvents hrow).elim (hs.events name row) fun hnew => h _ hnew.2 }

end EventStore

namespace Ingesting

open EventStore

/-! ## A run among arriving files -/

section

variable {α β : Type} {s s' : EventStore} {name : Text}

/-- A program that keeps the store consistent while files arrive. -/
abbrev Safe (library : EventLibrary) (content : Text → Bytes)
    (post : Except EventError α → EventStore → Prop) (p : Ingesting α) (s : EventStore) : Prop :=
  p.Ensures (Arrives content) (Advances library content)
    (fun result s => s.Consistent library content ∧ post result s) s

theorem safe_bind {p : Ingesting α} {f : α → Ingesting β}
    {post : Except EventError β → EventStore → Prop}
    (h : Safe library content (fun result s => match result with
      | .ok a => s.Consistent library content → Safe library content post (f a) s
      | .error e => post (.error e) s) p s) :
    Safe library content post (p >>= f) s := by
  refine Program.Ensures.bind Arrives.refl (Program.Ensures.imp h fun result s hs => ?_)
  cases result with
  | ok a => exact hs.2 hs.1
  | error e => exact hs

theorem safe_done {result : Except EventError α} {post : Except EventError α → EventStore → Prop}
    (hs : s.Consistent library content) (h : ∀ s', s.Arrives content s' → post result s') :
    Safe library content post (.done result) s := fun s' hs' => ⟨hs'.consistent hs, h s' hs'⟩

/-- An operation may raise before it or after it. -/
theorem safe_perform {f : EventStore → Except EventError α × EventStore}
    {post : Except EventError α → EventStore → Prop} (hs : s.Consistent library content)
    (hraise : ∀ fault s', post (.error (.raised fault)) s')
    (h : ∀ s', s.Arrives content s' → s'.Consistent library content →
      s'.Advances library content (f s').2 ∧
        ∀ s'', (f s').2.Arrives content s'' → post (f s').1 s'') :
    Safe library content post (perform f) s := by
  intro s' hs' fault
  have hconsistent := hs'.consistent hs
  obtain ⟨hadvances, hpost⟩ := h s' hs' hconsistent
  have hnext := hadvances.consistent hconsistent
  cases fault with
  | none => exact ⟨hadvances, fun s'' hs'' => ⟨hs''.consistent hnext, hpost s'' hs''⟩⟩
  | some fault =>
    by_cases hhappened : fault.happened
    · simp only [hhappened, if_true]
      exact ⟨hadvances, fun s'' hs'' => ⟨hs''.consistent hnext, hraise fault s''⟩⟩
    · simp only [hhappened]
      exact ⟨.refl s', fun s'' hs'' => ⟨hs''.consistent hconsistent, hraise fault s''⟩⟩

theorem safe_pass {post : Except EventError Unit → EventStore → Prop}
    (hs : s.Consistent library content) (hraise : ∀ fault s', post (.error (.raised fault)) s')
    (h : ∀ s', s.Arrives content s' → post (.ok ()) s') : Safe library content post pass s :=
  safe_perform hs hraise fun s' hs' _ => ⟨.refl s', fun s'' hs'' => h s'' (hs'.trans hs'')⟩

/-! ## The files -/

/-- A file that has been read is as it came, and one that could not be read is noted. -/
theorem safe_readFile (hs : s.Consistent library content) :
    Safe library content (fun result s => match result with
      | .ok c => c = content name
      | .error e => e.isOSError → name ∈ s.unread) (readFile name) s := by
  intro s' hs' fault
  have hconsistent := hs'.consistent hs
  have hnoted : s'.Advances library content { s' with unread := s'.unread ++ [name] } :=
    advances_unread s' name
  have hunread : ∀ s'', Arrives content { s' with unread := s'.unread ++ [name] } s'' →
      s''.Consistent library content ∧ name ∈ s''.unread := by
    intro s'' hs''
    refine ⟨hs''.consistent (hnoted.consistent hconsistent), ?_⟩
    rw [hs''.unread]
    exact List.mem_append_right _ (List.mem_singleton.mpr rfl)
  have hsame : ∀ s'', s'.Arrives content s'' → s''.Consistent library content := fun s'' hs'' =>
    hs''.consistent hconsistent
  cases hc : s'.raw.get? name with
  | none =>
    simp only [hc, Option.isNone_none, true_or, if_true]
    refine ⟨hnoted, ?_⟩
    cases fault <;> exact fun s'' hs'' => ⟨(hunread s'' hs'').1, fun _ => (hunread s'' hs'').2⟩
  | some c =>
    cases fault with
    | none =>
      simp only [hc, Option.isNone_some, Option.any_none, Bool.false_eq_true, or_self, if_false]
      exact ⟨.refl s', fun s'' hs'' => ⟨hsame s'' hs'', hconsistent.raw name c hc⟩⟩
    | some fault =>
      by_cases hos : fault.osError
      · simp only [hos, Option.any_some, or_true, if_true]
        exact ⟨hnoted, fun s'' hs'' => ⟨(hunread s'' hs'').1, fun _ => (hunread s'' hs'').2⟩⟩
      · simp only [hc, hos, Option.isNone_some, Option.any_some, Bool.false_eq_true, or_self, if_false]
        exact ⟨.refl s', fun s'' hs'' => ⟨hsame s'' hs'', fun h => absurd h hos⟩⟩

/-- A file that is put aside was refused or could not be read. -/
theorem safe_moveToBad {post : Except EventError Unit → EventStore → Prop}
    (hs : s.Consistent library content)
    (hname : judge library (content name) = .refused ∨ name ∈ s.unread)
    (hpost : ∀ result s', post result s') : Safe library content post (moveToBad name) s := by
  refine safe_bind (safe_pass hs (fun _ s' => hpost _ s') fun s₁ hs₁ hconsistent => ?_)
  refine safe_perform hconsistent (fun _ s' => hpost _ s') fun s₂ hs₂ _ => ?_
  have hname₂ : judge library (content name) = .refused ∨ name ∈ s₂.unread := by
    rwa [hs₂.unread, hs₁.unread]
  cases hc : s₂.raw.get? name with
  | none => exact ⟨.refl s₂, fun s₃ _ => hpost _ s₃⟩
  | some c => exact ⟨advances_moveToBad hc hname₂, fun s₃ _ => hpost _ s₃⟩

/-- The events of these files are in the table. -/
def Loaded (names : List Text) (s : EventStore) : Prop :=
  ∀ name ∈ names, s.events.get? name ≠ none

theorem Loaded.arrives {names : List Text} (h : Loaded names s) (hs : s.Arrives content s') :
    Loaded names s' := by
  unfold Loaded
  rw [hs.events]
  exact h

/-- A file that is archived has its event in the table. -/
theorem safe_moveToProcessed {names : List Text} (hs : s.Consistent library content)
    (hloaded : Loaded names s) (hname : name ∈ names) :
    Safe library content (fun result s => result = .ok () → Loaded names s)
      (moveToProcessed name) s := by
  refine safe_bind (safe_pass hs (fun _ _ h => nomatch h) fun s₁ hs₁ hconsistent => ?_)
  have hloaded₁ := hloaded.arrives hs₁
  refine safe_perform hconsistent (fun _ _ h => nomatch h) fun s₂ hs₂ _ => ?_
  have hloaded₂ := hloaded₁.arrives hs₂
  cases hc : s₂.raw.get? name with
  | none => exact ⟨.refl s₂, fun _ _ h => nomatch h⟩
  | some c =>
    refine ⟨advances_moveToProcessed hc (hloaded₂ name hname), fun s₃ hs₃ _ => ?_⟩
    unfold Loaded
    rw [hs₃.events]
    exact hloaded₂

theorem safe_archiveFiles {names : List Text} (rest : List Text) (hrest : rest ⊆ names)
    (hs : s.Consistent library content) (hloaded : Loaded names s) :
    Safe library content (fun _ _ => True) (archiveFiles rest) s := by
  induction rest generalizing s with
  | nil => exact safe_done hs fun _ _ => trivial
  | cons name rest ih =>
    obtain ⟨hname, hrest⟩ := List.cons_subset.mp hrest
    have hlook : Safe library content (fun result s => ∀ present, result = .ok present →
        Loaded names s) (fileExists name) s :=
      safe_perform hs (fun _ _ _ h => nomatch h) fun s₁ hs₁ _ =>
        ⟨.refl s₁, fun s₂ hs₂ _ _ => (hloaded.arrives hs₁).arrives hs₂⟩
    refine safe_bind (Program.Ensures.imp hlook fun result s₁ h₁ => ⟨h₁.1, ?_⟩)
    cases result with
    | error e => trivial
    | ok present =>
      intro hs₁
      have hloaded₁ := h₁.2 present rfl
      cases present with
      | false => exact ih hrest hs₁ hloaded₁
      | true =>
        refine safe_bind (Program.Ensures.imp (safe_moveToProcessed hs₁ hloaded₁ hname)
          fun result s₂ h₂ => ⟨h₂.1, ?_⟩)
        cases result with
        | error e => trivial
        | ok _ => exact fun hs₂ => ih hrest hs₂ (h₂.2 rfl)

/-- A file whose event is passed on is valid. -/
theorem safe_checkFile (hs : s.Consistent library content) :
    Safe library content (fun result _ => ∀ event, result = .ok (some event) →
      judge library (content name) = .valid event) (checkFile library name) s := by
  have hverdict : Safe library content (fun result s => match result with
      | .ok verdict => verdict = judge library (content name) ∨
          (verdict = .refused ∧ name ∈ s.unread)
      | .error _ => True)
      (Program.tryCatch (do
          let content ← readFile name
          pure (judge library content))
        fun error => if error.isOSError then pure .refused else raise error) s := by
    apply Program.Ensures.tryCatch Arrives.refl
    apply Program.Ensures.bind Arrives.refl
    refine Program.Ensures.imp (safe_readFile hs) fun result s₁ h₁ => ?_
    obtain ⟨hs₁, hresult⟩ := h₁
    cases result with
    | ok c =>
      subst hresult
      exact fun s₂ hs₂ => ⟨hs₂.consistent hs₁, .inl rfl⟩
    | error e =>
      show Safe library content _ (if e.isOSError then _ else _) s₁
      split_ifs with hos
      · refine safe_done hs₁ fun s₂ hs₂ => .inr ⟨rfl, ?_⟩
        rw [hs₂.unread]
        exact hresult hos
      · exact safe_done hs₁ fun _ _ => trivial
  refine safe_bind (Program.Ensures.imp hverdict fun result s₁ h₁ => ⟨h₁.1, ?_⟩)
  obtain ⟨hs₁, hresult⟩ := h₁
  cases result with
  | error e => exact fun _ h => nomatch h
  | ok verdict =>
    intro _
    cases verdict with
    | valid event =>
      refine safe_done hs₁ fun _ _ event' hevent => ?_
      obtain rfl := Option.some.inj (Except.ok.inj hevent)
      exact hresult.elim Eq.symm fun h => nomatch h.1
    | refused =>
      refine safe_bind (safe_moveToBad hs₁ (hresult.imp Eq.symm And.right) fun result s₂ => ?_)
      cases result with
      | error e => exact fun _ h => nomatch h
      | ok _ => exact fun hs₂ => safe_done hs₂ fun _ _ _ h => nomatch h
    | raises => exact safe_done hs₁ fun _ _ _ h => nomatch h

/-- The records are the events of their files. -/
theorem safe_checkFiles (names : List Text) (hs : s.Consistent library content) :
    Safe library content (fun result _ => ∀ records, result = .ok records → ∀ record ∈ records,
      judge library (content record.1) = .valid record.2) (checkFiles library names) s := by
  induction names generalizing s with
  | nil =>
    refine safe_done hs fun _ _ records hrecords record hrecord => ?_
    rw [← Except.ok.inj hrecords] at hrecord
    cases hrecord
  | cons name names ih =>
    refine safe_bind (Program.Ensures.imp (safe_checkFile hs) fun result s₁ h₁ => ⟨h₁.1, ?_⟩)
    cases result with
    | error e => exact fun _ h => nomatch h
    | ok event =>
      intro hs₁
      refine safe_bind (Program.Ensures.imp (ih hs₁) fun result s₂ h₂ => ⟨h₂.1, ?_⟩)
      cases result with
      | error e => exact fun _ h => nomatch h
      | ok records =>
        intro hs₂
        have hrecords := h₂.2 records rfl
        cases event with
        | none =>
          refine safe_done hs₂ fun _ _ records' hrecords' => ?_
          rw [← Except.ok.inj hrecords']
          exact hrecords
        | some event =>
          refine safe_done hs₂ fun _ _ records' hrecords' => ?_
          rw [← Except.ok.inj hrecords']
          exact List.forall_mem_cons.mpr ⟨h₁.2 event rfl, hrecords⟩

/-! ## The transaction -/

/-- The rows that are inserted are those of the records. -/
theorem safe_insertRecords {records : List (Text × EventRecord)}
    (hs : s.Consistent library content)
    (hrecords : ∀ record ∈ records, judge library (content record.1) = .valid record.2) :
    Safe library content (fun result _ => ∀ rows, result = .ok rows →
      (∀ row ∈ rows, ∃ event, judge library (content row.1) = .valid event ∧
        event.row? row.1 = some row.2) ∧
      ∀ record ∈ records, ∃ row ∈ rows, row.1 = record.1) (insertRecords records) s := by
  refine safe_bind (safe_pass hs (fun _ _ _ h => nomatch h) fun s₁ _ hs₁ => ?_)
  refine safe_done hs₁ fun _ _ rows hrows => ?_
  rw [orRaise_eq_ok] at hrows
  constructor
  · intro row hrow
    obtain ⟨record, hrecord, hmap⟩ := (mem_of_mapM_eq_some hrows).mp hrow
    obtain ⟨value, hvalue, rfl⟩ := Option.map_eq_some_iff.mp hmap
    exact ⟨record.2, hrecords record hrecord, hvalue⟩
  · intro record hrecord
    obtain ⟨row, hrow, hmap⟩ := exists_of_mapM_eq_some hrows hrecord
    obtain ⟨value, -, rfl⟩ := Option.map_eq_some_iff.mp hmap
    exact ⟨_, hrow, rfl⟩

/-- Behind the commit the events of all records are in the table. -/
theorem safe_loadRecords {records : List (Text × EventRecord)} (hs : s.Consistent library content)
    (hrecords : ∀ record ∈ records, judge library (content record.1) = .valid record.2) :
    Safe library content (fun result s => result = .ok () → Loaded (records.map Prod.fst) s)
      (loadRecords records) s := by
  refine safe_bind (safe_pass hs (fun _ _ h => nomatch h) fun s₁ hs₁ hconsistent => ?_)
  apply Program.Ensures.tryFinally Arrives.refl
  have htransaction : Safe library content
      (fun result s => result = .ok () → Loaded (records.map Prod.fst) s)
      (do
        let rows ← insertRecords records
        commitRows rows) s₁ := by
    refine safe_bind (Program.Ensures.imp (safe_insertRecords hconsistent hrecords)
      fun result s₂ h₂ => ⟨h₂.1, ?_⟩)
    cases result with
    | error e => exact fun h => nomatch h
    | ok rows =>
      intro hs₂
      obtain ⟨hvalid, hall⟩ := h₂.2 rows rfl
      refine safe_perform hs₂ (fun _ _ h => nomatch h) fun s₃ _ _ =>
        ⟨advances_commitRows hvalid, fun s₄ hs₄ _ name hname => ?_⟩
      obtain ⟨record, hrecord, rfl⟩ := List.mem_map.mp hname
      obtain ⟨row, hrow, hname⟩ := hall record hrecord
      rw [hs₄.events, ← hname]
      exact get?_insertEvents_ne_none hrow
  refine Program.Ensures.imp htransaction fun result s₂ h₂ => ?_
  have hclose : Safe library content (fun ended s' => ended = .ok () → s₂.Arrives content s')
      pass s₂ := safe_pass h₂.1 (fun _ _ h => nomatch h) fun _ hs' _ => hs'
  refine Program.Ensures.imp hclose fun ended s₃ h₃ => ?_
  cases ended with
  | error e => exact ⟨h₃.1, fun h => nomatch h⟩
  | ok _ =>
    exact fun s₄ hs₄ => ⟨hs₄.consistent h₃.1, fun hresult =>
      (h₂.2 hresult).arrives ((h₃.2 rfl).trans hs₄)⟩

/-- Whatever a run meets, it keeps the store consistent. -/
theorem safe_runIngest (order : List Text → List Text) (hs : s.Consistent library content) :
    Safe library content (fun _ _ => True) (runIngest library order) s := by
  have hlist : Safe library content (fun _ _ => True) (listNames order) s :=
    safe_perform hs (fun _ _ => trivial) fun s₁ _ _ => ⟨.refl s₁, fun _ _ => trivial⟩
  refine safe_bind (Program.Ensures.imp hlist fun result s₁ h₁ => ⟨h₁.1, ?_⟩)
  cases result with
  | error e => trivial
  | ok names =>
    intro hs₁
    dsimp only
    split_ifs
    · exact safe_done hs₁ fun _ _ => trivial
    · refine safe_bind (Program.Ensures.imp (safe_checkFiles _ hs₁) fun result s₂ h₂ =>
        ⟨h₂.1, ?_⟩)
      cases result with
      | error e => trivial
      | ok records =>
        intro hs₂
        have hrecords := h₂.2 records rfl
        split_ifs
        · exact safe_done hs₂ fun _ _ => trivial
        · refine safe_bind (Program.Ensures.imp (safe_loadRecords hs₂ hrecords) fun result s₃ h₃ =>
            ⟨h₃.1, ?_⟩)
          cases result with
          | error e => trivial
          | ok _ =>
            intro hs₃
            refine safe_bind (Program.Ensures.imp
              (safe_archiveFiles _ (List.Subset.refl _) hs₃ (h₃.2 rfl)) fun result s₄ h₄ =>
              ⟨h₄.1, ?_⟩)
            cases result with
            | error e => trivial
            | ok _ => exact fun hs₄ => safe_done hs₄ fun _ _ => trivial

end

end Ingesting

/-! ## Any runs -/

/-- A run of the ingestion, and the store that it works on. -/
structure EventSystem where
  store : EventStore
  task : Ingesting ℕ

/-- A file arrives, a run starts in the place of the one before, or it goes on. -/
inductive EventAction
  | arrive (name : Text)
  | start (order : List Text → List Text)
  | step (fault : Option EventFault)

namespace EventSystem

open EventStore

/-- What happens, where a name always stands for the same file. -/
def step (library : EventLibrary) (content : Text → Bytes) (c : EventSystem) :
    EventAction → EventSystem
  | .arrive name => { c with store := c.store.arrive content name }
  | .start order => { c with task := Ingesting.runIngest library order }
  | .step fault =>
    let (store, task) := Program.advance (c.store, c.task) fault
    ⟨store, task⟩

def after (library : EventLibrary) (content : Text → Bytes) (actions : List EventAction) :
    EventSystem :=
  run (step library content) ⟨∅, .done (.ok 0)⟩ actions

/-- The store is consistent, and the run will keep it so. -/
def Good (library : EventLibrary) (content : Text → Bytes) (c : EventSystem) : Prop :=
  c.store.Consistent library content ∧
    Ingesting.Safe library content (fun _ _ => True) c.task c.store

theorem good_step {c : EventSystem} (h : c.Good library content) (action : EventAction) :
    c.store.Advances library content (c.step library content action).store ∧
      (c.step library content action).Good library content := by
  obtain ⟨hconsistent, htask⟩ := h
  cases action with
  | arrive name =>
    have harrives : c.store.Arrives content (c.store.arrive content name) :=
      arrives_arrive c.store name
    exact ⟨harrives.advances, harrives.consistent hconsistent,
      Program.Ensures.others Arrives.trans htask harrives⟩
  | start order => exact ⟨.refl _, hconsistent, Ingesting.safe_runIngest order hconsistent⟩
  | step fault =>
    obtain ⟨store, task⟩ := c
    cases task with
    | done result => exact ⟨.refl _, hconsistent, htask⟩
    | step effect next =>
      obtain ⟨hadvances, hnext⟩ := htask store (.refl store) fault
      exact ⟨hadvances, hadvances.consistent hconsistent, hnext⟩

theorem good_after (actions : List EventAction) :
    (after library content actions).Good library content := by
  have hstart : Good library content ⟨∅, .done (.ok 0)⟩ :=
    ⟨consistent_empty, fun _ hs' => ⟨hs'.consistent consistent_empty, trivial⟩⟩
  have hstep : ∀ (c : EventSystem) action, c.Good library content →
      (c.step library content action).Good library content := fun _ action h =>
    (good_step h action).2
  exact run_invariant hstep hstart actions

theorem advances_after (actions more : List EventAction) :
    (after library content actions).store.Advances library content
      (after library content (actions ++ more)).store := by
  have hgood : ∀ (c : EventSystem) action, c.Good library content →
      (c.step library content action).Good library content := fun _ action h =>
    (good_step h action).2
  have hstep : ∀ (c : EventSystem) action, c.Good library content →
      c.store.Advances library content (c.step library content action).store := fun _ action h =>
    (good_step h action).1
  rw [after, after, run_append]
  let R (c c' : EventSystem) : Prop := c.store.Advances library content c'.store
  have htrans : ∀ c c' c'', R c c' → R c' c'' → R c c'' := fun _ _ _ h h' =>
    EventStore.Advances.trans h h'
  exact run_rel (R := R) (fun c => .refl c.store) htrans hgood hstep (good_after actions) more

end EventSystem

open EventSystem

end Threadline
