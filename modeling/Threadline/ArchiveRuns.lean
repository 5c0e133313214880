import Threadline.ArchiveSafety

/-!
# Runs of archival

Attempts on committed batches, each of which may raise anywhere or stop after any
step. A batch can only lose its last copy to another one that has the same source
path and the same bytes, but another object.
-/

open PyText PyCalendar PyExcept Stepwise Runs

namespace Threadline

open Archiving

/-! ## Sound states -/

/-- Every object holds the bytes that its path names. -/
def Addressed (sha256 : Bytes → Text) (files : Files) : Prop :=
  ∀ label day checksum path content, archiveObject label day checksum = some path →
    files.get? path = some content → sha256 content = checksum

def ArchivableBatch.object (batch : ArchivableBatch) : Option FilePath :=
  archiveObject batch.reportType batch.reportDate batch.fileChecksum

/-- The object of a committed batch. -/
def CommittedBatch.object (batch : CommittedBatch) : FilePath :=
  ⟨.archive, [batch.reportType.memberName, batch.reportDate.isoformat, batch.fileChecksum.take 2,
    batch.fileChecksum ++ txt ".json"]⟩

theorem CommittedBatch.object_row (batch : CommittedBatch) : batch.row.object = some batch.object :=
  archiveObject_eq_some.mpr ⟨_, archiveRelativePath_eq_ok.mpr ⟨batch.reportType,
    reportTypeOf_value batch.reportType, batch.checksum_length, batch.checksum_hex, rfl⟩, rfl⟩

/-- Batches with the same bytes have the same object when they are reports of one type and day. -/
theorem CommittedBatch.object_eq_iff {batch batch' : CommittedBatch}
    (hchecksum : batch.fileChecksum = batch'.fileChecksum) : batch.object = batch'.object ↔
      batch.reportType = batch'.reportType ∧ batch.reportDate = batch'.reportDate := by
  have hname : ∀ {a b : ReportType}, a.memberName = b.memberName → a = b := by
    intro a b h
    cases a <;> cases b <;> first | rfl | exact absurd h (by decide)
  simp only [CommittedBatch.object, hchecksum, FilePath.mk.injEq, List.cons.injEq, true_and, and_true]
  exact and_congr ⟨hname, congrArg _⟩ ⟨fun h => Date.isoformat_injective h, congrArg _⟩

/-- The file that a source path leads to. -/
def SourceAt (source : Option Text) (path : FilePath) : Prop :=
  ∃ text, source = some text ∧ withinRoot .inbox text = .ok path

/-- The columns that tell where the bytes of a batch are. -/
structure SameReport (row row' : ArchivableBatch) : Prop where
  reportType : row'.reportType = row.reportType
  reportDate : row'.reportDate = row.reportDate
  fileChecksum : row'.fileChecksum = row.fileChecksum

theorem SameReport.object {row row' : ArchivableBatch} (h : SameReport row row') :
    row'.object = row.object := by
  rw [ArchivableBatch.object, ArchivableBatch.object, h.reportType, h.reportDate, h.fileChecksum]

/-- A row after some attempts: a source path is only ever added. -/
structure Continues (row row' : ArchivableBatch) : Prop extends SameReport row row' where
  source : row'.sourceRelativePath = row.sourceRelativePath ∨
    row.sourceRelativePath = none ∧ ∀ text ∈ row'.sourceRelativePath, storableText text

theorem Continues.refl (row : ArchivableBatch) : Continues row row := ⟨⟨rfl, rfl, rfl⟩, .inl rfl⟩

theorem Continues.trans {row row' row'' : ArchivableBatch} (h : Continues row row')
    (h' : Continues row' row'') : Continues row row'' := by
  refine ⟨⟨h'.reportType.trans h.reportType, h'.reportDate.trans h.reportDate,
    h'.fileChecksum.trans h.fileChecksum⟩, ?_⟩
  rcases h.source with hsame | ⟨hnone, hstorable⟩
  · rcases h'.source with hsame' | ⟨hnone', hstorable'⟩
    · exact .inl (hsame'.trans hsame)
    · exact .inr ⟨hsame.symm.trans hnone', hstorable'⟩
  · rcases h'.source with hsame' | ⟨-, hstorable'⟩
    · exact .inr ⟨hnone, hsame' ▸ hstorable⟩
    · exact .inr ⟨hnone, hstorable'⟩

/-- The states between attempts. -/
structure Sound (sha256 : Bytes → Text) (s : ArchiveState) : Prop where
  addressed : Addressed sha256 s.files
  archived : ∀ id row, s.batches.get? id = some row → row.archiveStatus = .archived →
    ∃ object, row.object = some object ∧ (s.files.get? object).isSome

/-- The bytes of a batch are at its source path or in its object. -/
def Present (sha256 : Bytes → Text) (s : ArchiveState) (id : Uuid) : Prop :=
  ∃ row path, s.batches.get? id = some row ∧
    (SourceAt row.sourceRelativePath path ∨ row.object = some path) ∧
    Holds? sha256 s.files path row.fileChecksum

/-! ## Inside an attempt -/

/-- The states of an attempt once it has been prepared. -/
structure Attempting (sha256 : Bytes → Text) (call : ArchiveCall) (row : ArchivableBatch)
    (source object : FilePath) (start s : ArchiveState) : Prop where
  addressed : Addressed sha256 s.files
  /-- Only the source can disappear, and only when its object is there. -/
  kept : ∀ path content, start.files.get? path = some content →
    s.files.get? path = some content ∨
      path = source ∧ sha256 content = row.fileChecksum ∧ (s.files.get? object).isSome
  others : ∀ id, id ≠ call.batchId → s.batches.get? id = start.batches.get? id
  own : ∃ row', s.batches.get? call.batchId = some row' ∧ SameReport row row' ∧
    row'.sourceRelativePath = row.sourceRelativePath ∧
    (row'.archiveStatus = .archived →
      row.archiveStatus = .archived ∨ (s.files.get? object).isSome)

section Attempt

variable {sha256 : Bytes → Text} {call : ArchiveCall} {row : ArchivableBatch}
  {source object destination temporary : FilePath} {start s s' : ArchiveState}

theorem Holds?.isSome {files : Files} {path : FilePath} {checksum : Text}
    (h : Holds? sha256 files path checksum) : (files.get? path).isSome := by
  obtain ⟨content, hcontent, -⟩ := h
  rw [hcontent]
  rfl

/-- What is in the archive is still there. -/
theorem Attempting.object_mono (h : Attempting sha256 call row source object start s)
    {files : Files}
    (hkept : ∀ path content, s.files.get? path = some content → path.root = .archive →
      files.get? path = some content)
    (hroot : object.root = .archive) :
    (∃ row', s.batches.get? call.batchId = some row' ∧ SameReport row row' ∧
      row'.sourceRelativePath = row.sourceRelativePath ∧
      (row'.archiveStatus = .archived →
        row.archiveStatus = .archived ∨ (files.get? object).isSome)) ∧
      ((s.files.get? object).isSome → (files.get? object).isSome) := by
  have hmono : (s.files.get? object).isSome → (files.get? object).isSome := by
    intro hsome
    obtain ⟨content, hcontent⟩ := Option.isSome_iff_exists.mp hsome
    rw [hkept object content hcontent hroot]
    rfl
  obtain ⟨row', hrow', hsame, hsource, hstatus⟩ := h.own
  exact ⟨⟨row', hrow', hsame, hsource, fun harchived => (hstatus harchived).imp id hmono⟩, hmono⟩

/-- An installation in either direction. -/
theorem Attempting.installing (h : Attempting sha256 call row source object start s)
    (hroot : object.root = .archive)
    (haddress : ∀ label day checksum, archiveObject label day checksum = some destination →
      checksum = row.fileChecksum)
    {suffix : Text} (hs' : Installing sha256 row.fileChecksum destination
      (temporaryPath destination row.fileChecksum suffix) s s') :
    Attempting sha256 call row source object start s' := by
  obtain ⟨hown, hmono⟩ := h.object_mono (fun path content hcontent _ =>
    hs'.files.existing path content hcontent) hroot
  refine ⟨fun label day checksum path content hpath hcontent => ?_,
    fun path content hcontent => ?_, fun id hid => ?_, ?_⟩
  · have htemporary : path ≠ temporaryPath destination row.fileChecksum suffix :=
      archiveObject_ne_temporary hpath
    by_cases hdestination : path = destination
    · subst hdestination
      rcases hs'.files.installed htemporary content hcontent with hbefore | hchecksum
      · exact h.addressed label day checksum path content hpath hbefore
      · exact hchecksum.trans (haddress label day checksum hpath).symm
    · rw [hs'.files.others path hdestination htemporary] at hcontent
      exact h.addressed label day checksum path content hpath hcontent
  · refine (h.kept path content hcontent).imp (hs'.files.existing path content) ?_
    exact fun ⟨hpath, hchecksum, hobject⟩ => ⟨hpath, hchecksum, hmono hobject⟩
  · rw [hs'.batches]
    exact h.others id hid
  · rw [hs'.batches]
    exact hown

/-- The removal of the source once the object is there. -/
theorem Attempting.unlink (h : Attempting sha256 call row source object start s)
    (hroot : object.root = .archive) (hinbox : source.root = .inbox)
    (hobject : (s.files.get? object).isSome) {content : Bytes}
    (hcontent : s.files.get? source = some content) (hchecksum : sha256 content = row.fileChecksum) :
    Attempting sha256 call row source object start { s with files := s.files.erase source } ∧
      ((s.files.erase source).get? object).isSome := by
  have hkept : ∀ path found, s.files.get? path = some found → path.root = .archive →
      (s.files.erase source).get? path = some found := by
    intro path found hfound harchive
    have hne : source ≠ path := by
      rintro rfl
      cases hinbox.symm.trans harchive
    rw [PyDict.get?_erase, if_neg hne, hfound]
  obtain ⟨hown, hmono⟩ := h.object_mono hkept hroot
  refine ⟨⟨fun label day checksum path found hpath hfound => ?_, fun path found hfound => ?_,
    h.others, hown⟩, hmono hobject⟩
  · rw [PyDict.get?_erase] at hfound
    split_ifs at hfound
    exact h.addressed label day checksum path found hpath hfound
  · rcases h.kept path found hfound with hsame | ⟨hpath, hfoundChecksum, -⟩
    · by_cases hpath : path = source
      · subst hpath
        obtain rfl := Option.some.inj (hcontent.symm.trans hsame)
        exact .inr ⟨rfl, hchecksum, hmono hobject⟩
      · refine .inl ?_
        rw [PyDict.get?_erase, if_neg (Ne.symm hpath), hsame]
    · exact .inr ⟨hpath, hfoundChecksum, hmono hobject⟩

/-- An update of the row that does not invent an object. -/
theorem Attempting.update (h : Attempting sha256 call row source object start s)
    {row' : ArchivableBatch} (hsame : SameReport row row')
    (hsource : row'.sourceRelativePath = row.sourceRelativePath)
    (hstatus : row'.archiveStatus = .archived →
      row.archiveStatus = .archived ∨ (s.files.get? object).isSome) :
    Attempting sha256 call row source object start
      { s with batches := s.batches.set call.batchId row' } := by
  refine ⟨h.addressed, h.kept, fun id hid => ?_, row', ?_, hsame, hsource, hstatus⟩
  · rw [PyDict.get?_set, if_neg hid.symm, h.others id hid]
  · rw [PyDict.get?_set, if_pos rfl]

section Parts

variable (hinbox : source.root = .inbox) (hobject : row.object = some object)

include hobject in
theorem object_root : object.root = .archive := by
  obtain ⟨parts, -, rfl⟩ := archiveObject_eq_some.mp hobject
  rfl

include hinbox hobject in
theorem keeps_moveSource (h : Attempting sha256 call row source object start s) :
    (moveSource sha256 call source object row.fileChecksum).Keeps
      (Attempting sha256 call row source object start)
      (fun _ s => (s.files.get? object).isSome) s := by
  have hroot := object_root hobject
  unfold moveSource removeSource
  have hinstall := @keeps_installVerifiedObject sha256 failureHook row.fileChecksum
    call.objectSuffix source object s fun _ => idle_pass
  refine Program.Keeps.bind (hinstall.mono
    (fun s' hs' => h.installing hroot (fun label day checksum hpath =>
      checksum_of_archiveObject hpath hobject) hs') fun reused s' hs' hinstalled => ?_)
  have hs' := h.installing hroot
    (fun label day checksum hpath => checksum_of_archiveObject hpath hobject) hs'
  have hpresent := (hinstalled (archiveObject_ne_temporary hobject)).isSome
  -- The hooks after the removal leave the object where it is.
  have hlast : ∀ s, Attempting sha256 call row source object start s →
      (s.files.get? object).isSome →
      (do failureHook (txt "after_source_remove")
          failureHook (txt "before_status_update")
          pure reused : Archiving Bool).Keeps (Attempting sha256 call row source object start)
        (fun _ s => (s.files.get? object).isSome) s := by
    intro s hs hpresent
    refine Program.Keeps.bind (idle_pass _ _ _ hs ?_)
    refine Program.Keeps.bind (idle_pass _ _ _ hs ?_)
    exact Program.keeps_pure hs hpresent
  refine Program.Keeps.bind (Program.Keeps.bind (keeps_fileExists hs' ?_))
  split_ifs with hsource
  · refine Program.Keeps.bind (keeps_verifyChecksum hs' fun content hcontent hchecksum => ?_)
    obtain ⟨hunlinked, hpresent⟩ := hs'.unlink hroot hinbox hpresent hcontent hchecksum
    unfold unlinkFile
    refine Program.Keeps.bind (Program.keeps_op hs' ?_ fun _ _ => ?_)
    · simpa only [hcontent] using hunlinked
    · simp only [hcontent]
      exact idle_pass _ _ _ hunlinked (hlast _ hunlinked hpresent)
  · exact Program.keeps_pure hs' (hlast _ hs' hpresent)

include hinbox hobject in
theorem keeps_restoreSource {suffix : Text}
    (h : Attempting sha256 call row source object start s) :
    (restoreSource sha256 source object row.fileChecksum suffix).Keeps
      (Attempting sha256 call row source object start) (fun _ _ => True) s := by
  have hroot := object_root hobject
  unfold restoreSource
  refine Program.Keeps.bind (keeps_fileExists h ?_)
  split_ifs
  · exact Program.keeps_pure h trivial
  · refine Program.Keeps.bind (keeps_fileExists h ?_)
    split_ifs
    · refine Program.Keeps.bind (keeps_verifyChecksum h fun _ _ _ => ?_)
      have hinstall := @keeps_installVerifiedObject sha256 (fun _ => pure ()) row.fileChecksum
        suffix object source s fun _ => idle_pure
      -- The source is in the inbox, so its path names no object.
      have haddress : ∀ label day checksum, archiveObject label day checksum = some source →
          checksum = row.fileChecksum := by
        intro label day checksum hpath
        obtain ⟨parts, -, rfl⟩ := archiveObject_eq_some.mp hpath
        cases hinbox
      refine Program.Keeps.bind (hinstall.mono (fun s' hs' => h.installing hroot haddress hs')
        fun _ s' hs' _ => ?_)
      exact Program.keeps_pure (h.installing hroot haddress hs') trivial
    · exact Program.keeps_pure h trivial

theorem keeps_attempt {inv : ArchiveState → Prop} {program : Archiving Unit}
    (h : program.Keeps inv (fun _ _ => True) s) :
    (attempt program).Keeps inv (fun _ _ => True) s := by
  refine Program.Keeps.tryCatch (Program.Keeps.bind (h.imp fun _ s hs _ => ?_)) fun error s hs => ?_
  · exact Program.keeps_pure hs trivial
  · split_ifs
    · exact Program.keeps_pure hs trivial
    · exact Program.keeps_error hs

theorem keeps_updateCommitted {update : ArchivableBatch → ArchivableBatch}
    (h : Attempting sha256 call row source object start s)
    (hupdate : ∀ row', SameReport row' (update row') ∧
      (update row').sourceRelativePath = row'.sourceRelativePath)
    (hstatus : ∀ row', (update row').archiveStatus = .archived →
      row'.archiveStatus = .archived ∨ (s.files.get? object).isSome) :
    (updateCommitted call update).Keeps (Attempting sha256 call row source object start)
      (fun _ _ => True) s := by
  obtain ⟨row', hrow', hsame, hsource, harchived⟩ := h.own
  have hupdated : Attempting sha256 call row source object start
      { s with batches := s.batches.set call.batchId (update row') } := by
    obtain ⟨hsame', hsource'⟩ := hupdate row'
    refine h.update ⟨?_, ?_, ?_⟩ (hsource'.trans hsource) fun hnew => ?_
    · exact hsame'.reportType.trans hsame.reportType
    · exact hsame'.reportDate.trans hsame.reportDate
    · exact hsame'.fileChecksum.trans hsame.fileChecksum
    · exact (hstatus row' hnew).elim harchived .inr
  unfold updateCommitted
  refine Program.Keeps.bind (Program.keeps_op h ?_ fun _ _ => ?_)
  · simp only [hrow']
    split_ifs
    · exact hupdated
    · exact h
  · simp only [hrow']
    split_ifs
    · exact idle_pass _ _ _ hupdated trivial
    · exact idle_pass _ _ _ h trivial

include hinbox hobject in
theorem keeps_failAttempt {α : Type} {returns : α → ArchiveState → Prop} {marker : Bool}
    {error : ArchiveError} (h : Attempting sha256 call row source object start s) :
    (failAttempt sha256 call source object row.fileChecksum marker error : Archiving α).Keeps
      (Attempting sha256 call row source object start) returns s := by
  unfold failAttempt
  split_ifs
  · refine Program.Keeps.bind ((keeps_attempt (keeps_restoreSource hinbox hobject h)).imp
      fun note s h _ => ?_)
    refine Program.Keeps.bind ((keeps_attempt (keeps_updateCommitted h ?_ ?_)).imp
      fun _ s h _ => Program.keeps_error h)
    · intro row'
      split_ifs <;> exact ⟨⟨rfl, rfl, rfl⟩, rfl⟩
    · intro row' hnew
      split_ifs at hnew
      exact .inl hnew
  · exact Program.keeps_error h

end Parts

end Attempt

/-! ## Whole attempts -/

/-- What an attempt can have done, wherever it stopped. -/
structure Archives (sha256 : Bytes → Text) (call : ArchiveCall) (before s : ArchiveState) : Prop
    where
  sound : Sound sha256 s
  kept : ∀ path content, before.files.get? path = some content →
    s.files.get? path = some content ∨ ∃ row object, s.batches.get? call.batchId = some row ∧
      SourceAt row.sourceRelativePath path ∧ sha256 content = row.fileChecksum ∧
      row.object = some object ∧ (s.files.get? object).isSome
  rows : ∀ id row, before.batches.get? id = some row →
    ∃ row', s.batches.get? id = some row' ∧ Continues row row'
  noRows : ∀ id, before.batches.get? id = none → s.batches.get? id = none

section Whole

variable {sha256 : Bytes → Text} {call : ArchiveCall} {row prepared : ArchivableBatch}
  {source object : FilePath} {before s : ArchiveState}

theorem Archives.refl (h : Sound sha256 s) : Archives sha256 call s s where
  sound := h
  kept _ _ hcontent := .inl hcontent
  rows _ row hrow := ⟨row, hrow, .refl row⟩
  noRows _ hnone := hnone

theorem attemptedPath_eq_ok {saved : Text} (h : attemptedPath call row = .ok saved) :
    row.sourceRelativePath = some saved ∨ row.sourceRelativePath = none := by
  unfold attemptedPath at h
  split at h
  · simp only [bind_eq_ok, require_eq_ok] at h
    obtain ⟨-, -, -, hsame, h⟩ := h
    obtain rfl := Except.ok.inj h
    exact hsame.symm
  · exact .inl (orRaise_eq_ok.mp h)

/-- What has been checked of a row that is prepared. -/
theorem preparedBatch_eq_ok (h : preparedBatch call row = .ok prepared) :
    Continues row prepared ∧ prepared.archiveStatus = row.archiveStatus ∧
      (∃ source, withinRoot .inbox (prepared.sourceRelativePath.getD []) = .ok source ∧
        SourceAt prepared.sourceRelativePath source) ∧
      ∃ object, withinRoot .archive (prepared.archivePath.getD []) = .ok object ∧
        prepared.object = some object := by
  simp only [preparedBatch, bind_eq_ok, require_eq_ok] at h
  obtain ⟨-, -, saved, hsaved, source, hsource, parts, hparts, -, -, -, hstorable, -, -, h⟩ := h
  obtain rfl := Except.ok.inj h
  refine ⟨⟨⟨rfl, rfl, rfl⟩, ?_⟩, rfl, ⟨source, hsource, saved, rfl, hsource⟩, ?_⟩
  · rcases attemptedPath_eq_ok hsaved with hsome | hnone
    · exact .inl hsome.symm
    · refine .inr ⟨hnone, fun text htext => ?_⟩
      obtain rfl := Option.some.inj htext
      exact hstorable
  · exact ⟨⟨.archive, parts⟩, withinRoot_archive hparts,
      archiveObject_eq_some.mpr ⟨parts, hparts, rfl⟩⟩

/-- The state once the row is prepared. -/
theorem attempting_prepared (h : Sound sha256 before) :
    Attempting sha256 call prepared source object before
      { before with batches := before.batches.set call.batchId prepared } where
  addressed := h.addressed
  kept _ _ hcontent := .inl hcontent
  others id hid := by rw [PyDict.get?_set, if_neg hid.symm]
  own := ⟨prepared, by rw [PyDict.get?_set, if_pos rfl], ⟨rfl, rfl, rfl⟩, rfl, fun h => .inl h⟩

/-- A prepared attempt is an attempt. -/
theorem Attempting.archives (h : Attempting sha256 call prepared source object before s)
    (hsound : Sound sha256 before) (hrow : before.batches.get? call.batchId = some row)
    (hprepared : preparedBatch call row = .ok prepared)
    (hsource : SourceAt prepared.sourceRelativePath source)
    (hobject : prepared.object = some object) : Archives sha256 call before s := by
  obtain ⟨row', hrow', hsame, hpath, hstatus⟩ := h.own
  obtain ⟨hcontinues, hstatus', -, -⟩ := preparedBatch_eq_ok hprepared
  have hinbox : source.root = .inbox := by
    obtain ⟨text, -, htext⟩ := hsource
    exact withinRoot_root htext
  -- No object is ever removed.
  have hobjects : ∀ path, path.root = .archive → (before.files.get? path).isSome →
      (s.files.get? path).isSome := by
    intro path hpath hsome
    obtain ⟨content, hcontent⟩ := Option.isSome_iff_exists.mp hsome
    rcases h.kept path content hcontent with hkept | ⟨rfl, -⟩
    · rw [hkept]
      rfl
    · cases hpath.symm.trans hinbox
  refine ⟨⟨h.addressed, fun id row'' hrow'' harchived => ?_⟩, fun path content hcontent => ?_,
    fun id row'' hrow'' => ?_, fun id hnone => ?_⟩
  · by_cases hid : id = call.batchId
    · subst hid
      obtain rfl := Option.some.inj (hrow'.symm.trans hrow'')
      refine ⟨object, hsame.object.trans hobject, ?_⟩
      rcases hstatus harchived with hbefore | hpresent
      · rw [hstatus'] at hbefore
        obtain ⟨object', hobject', hpresent⟩ := hsound.archived _ row hrow hbefore
        obtain rfl : object' = object := by
          have hrowObject := hcontinues.object.symm.trans hobject
          exact Option.some.inj (hobject'.symm.trans hrowObject)
        exact hobjects object' (object_root hobject) hpresent
      · exact hpresent
    · rw [h.others id hid] at hrow''
      obtain ⟨object', hobject', hpresent⟩ := hsound.archived id row'' hrow'' harchived
      exact ⟨object', hobject', hobjects object' (object_root hobject') hpresent⟩
  · refine (h.kept path content hcontent).imp id fun ⟨hsourcePath, hchecksum, hpresent⟩ => ?_
    subst hsourcePath
    refine ⟨row', object, hrow', ?_, ?_, hsame.object.trans hobject, hpresent⟩
    · rwa [hpath]
    · rw [hsame.fileChecksum, hchecksum]
  · by_cases hid : id = call.batchId
    · subst hid
      obtain rfl := Option.some.inj (hrow.symm.trans hrow'')
      exact ⟨row', hrow', hcontinues.trans ⟨hsame, .inl hpath⟩⟩
    · exact ⟨row'', (h.others id hid).trans hrow'', .refl row''⟩
  · by_cases hid : id = call.batchId
    · subst hid
      cases hnone.symm.trans hrow
    · exact (h.others id hid).trans hnone

/-- An attempt keeps what `Archives` says at each of its steps. -/
theorem keeps_archiveBatch (h : Sound sha256 before) :
    (archiveBatch sha256 call).Keeps (Archives sha256 call before) (fun _ _ => True) before := by
  have hbefore : Archives sha256 call before before := .refl h
  unfold archiveBatch prepareAttempt
  refine Program.Keeps.bind (idle_pass _ _ _ hbefore (Program.Keeps.bind (Program.Keeps.bind ?_)))
  cases hrow : before.batches.get? call.batchId with
  | none =>
    refine Program.keeps_op hbefore (by simpa only [hrow] using hbefore) fun _ hbatch => ?_
    rw [hrow] at hbatch
    cases hbatch
  | some row =>
    cases hprepared : preparedBatch call row with
    | error error =>
      refine Program.keeps_op hbefore (by simpa only [hrow, hprepared] using hbefore)
        fun _ hbatch => ?_
      rw [hrow] at hbatch
      simp only [hprepared] at hbatch
      cases hbatch
    | ok prepared =>
      obtain ⟨-, -, ⟨source, hsource, hsourceAt⟩, object, harchive, hobject⟩ :=
        preparedBatch_eq_ok hprepared
      have hinbox := withinRoot_root hsource
      have harchives : ∀ s, Attempting sha256 call prepared source object before s →
          Archives sha256 call before s :=
        fun _ hs => hs.archives h hrow hprepared hsourceAt hobject
      have hs : Attempting sha256 call prepared source object before
          { before with batches := before.batches.set call.batchId prepared } :=
        attempting_prepared h
      refine Program.keeps_op hbefore
        (by simpa only [hrow, hprepared] using harchives _ hs) fun batch hbatch => ?_
      rw [hrow] at hbatch ⊢
      simp only [hprepared] at hbatch ⊢
      obtain rfl := Except.ok.inj hbatch
      refine Program.Keeps.bind (idle_pass _ _ _ (harchives _ hs) ?_)
      refine Program.keeps_pure (harchives _ hs) ?_
      rw [hsource, harchive]
      refine Program.Keeps.bind (Program.keeps_pure (harchives _ hs) ?_)
      refine Program.Keeps.bind (Program.keeps_pure (harchives _ hs) ?_)
      -- From here on the row and both paths are fixed.
      suffices hrest : Program.Keeps (Attempting sha256 call prepared source object before)
          (fun _ _ => True) _ _ from hrest.mono harchives fun _ _ _ _ => trivial
      refine Program.Keeps.bind (Program.Keeps.tryCatch
        ((keeps_moveSource hinbox hobject hs).imp fun reused s hs hpresent => ?_)
        fun error s hs => keeps_failAttempt hinbox hobject hs)
      have hmark : (markArchived call).Keeps
          (Attempting sha256 call prepared source object before) (fun _ _ => True) s := by
        unfold markArchived
        exact keeps_updateCommitted hs (fun _ => ⟨⟨rfl, rfl, rfl⟩, rfl⟩) fun _ _ => .inr hpresent
      exact Program.Keeps.bind (Program.Keeps.tryCatch
        (hmark.imp fun _ s hs _ => Program.keeps_pure hs trivial)
        fun error s hs => keeps_failAttempt hinbox hobject hs)

theorem archives_attempt (h : Sound sha256 before) (faults : List (Option ArchiveFault)) :
    Archives sha256 call before (before.step sha256 (.attempt call faults)) :=
  (keeps_archiveBatch h).run (.refl h) faults

/-! ## Runs -/

/-- The committed batches, in the rows of a later state. -/
structure Tracks (batches : PyDict Uuid CommittedBatch) (s : ArchiveState) : Prop where
  rows : ∀ id batch, batches.get? id = some batch →
    ∃ row, s.batches.get? id = some row ∧ Continues batch.row row
  noRows : ∀ id, batches.get? id = none → s.batches.get? id = none

theorem Tracks.batch {batches : PyDict Uuid CommittedBatch} (h : Tracks batches s) {id : Uuid}
    (hrow : s.batches.get? id = some row) :
    ∃ batch, batches.get? id = some batch ∧ Continues batch.row row := by
  cases hbatch : batches.get? id with
  | none => cases (h.noRows id hbatch).symm.trans hrow
  | some batch =>
    obtain ⟨row', hrow', hcontinues⟩ := h.rows id batch hbatch
    obtain rfl := Option.some.inj (hrow'.symm.trans hrow)
    exact ⟨batch, rfl, hcontinues⟩

theorem Tracks.archives {batches : PyDict Uuid CommittedBatch} (h : Tracks batches before)
    (hs : Archives sha256 call before s) : Tracks batches s := by
  refine ⟨fun id batch hbatch => ?_, fun id hnone => hs.noRows id (h.noRows id hnone)⟩
  obtain ⟨row, hrow, hcontinues⟩ := h.rows id batch hbatch
  obtain ⟨row', hrow', hcontinues'⟩ := hs.rows id row hrow
  exact ⟨row', hrow', hcontinues.trans hcontinues'⟩

theorem Sound.step (h : Sound sha256 s) (event : ArchiveEvent) : Sound sha256 (s.step sha256 event) := by
  cases event with
  | attempt call faults => exact (archives_attempt h faults).sound
  | inbox parts content =>
    -- A change of the inbox leaves the archive alone.
    have hfiles : ∀ path : FilePath, path.root = .archive →
        (s.step sha256 (.inbox parts content)).files.get? path = s.files.get? path := by
      intro path hpath
      have hne : (⟨.inbox, parts⟩ : FilePath) ≠ path := by
        rintro rfl
        cases hpath
      cases content with
      | none => exact (PyDict.get?_erase _ _ _).trans (if_neg hne)
      | some content => exact (PyDict.get?_set _ _ _ _).trans (if_neg hne)
    have hbatches : (s.step sha256 (.inbox parts content)).batches = s.batches := by
      cases content <;> rfl
    refine ⟨fun label day checksum path found hpath hfound => ?_, fun id row hrow harchived => ?_⟩
    · rw [hfiles path] at hfound
      · exact h.addressed label day checksum path found hpath hfound
      · obtain ⟨parts, -, rfl⟩ := archiveObject_eq_some.mp hpath
        rfl
    · rw [hbatches] at hrow
      obtain ⟨object, hobject, hpresent⟩ := h.archived id row hrow harchived
      exact ⟨object, hobject, by rwa [hfiles object (object_root hobject)]⟩

theorem Tracks.step {batches : PyDict Uuid CommittedBatch} (h : Tracks batches s)
    (hs : Sound sha256 s) (event : ArchiveEvent) : Tracks batches (s.step sha256 event) := by
  cases event with
  | attempt call faults => exact h.archives (archives_attempt hs faults)
  | inbox parts content =>
    cases content with
    | none => exact ⟨h.rows, h.noRows⟩
    | some content => exact ⟨h.rows, h.noRows⟩

theorem initial_batches (batches : PyDict Uuid CommittedBatch) (id : Uuid) :
    (ArchiveState.initial batches).batches.get? id =
      (batches.get? id).map CommittedBatch.row :=
  PyDict.get?_mapItems _ _ _

/-- Every state reached from committed batches is sound. -/
theorem sound_after (batches : PyDict Uuid CommittedBatch) (events : List ArchiveEvent) :
    Sound sha256 (ArchiveState.after sha256 batches events) ∧
      Tracks batches (ArchiveState.after sha256 batches events) := by
  have hstep : ∀ s event, Sound sha256 s ∧ Tracks batches s →
      Sound sha256 (s.step sha256 event) ∧ Tracks batches (s.step sha256 event) :=
    fun _ event h => ⟨h.1.step event, h.2.step h.1 event⟩
  refine run_invariant hstep ⟨⟨fun _ _ _ _ _ _ hcontent => ?_, fun id row hrow harchived => ?_⟩,
    fun id batch hbatch => ?_, fun id hnone => ?_⟩ events
  · cases hcontent
  · rw [initial_batches] at hrow
    obtain ⟨batch, -, rfl⟩ := Option.map_eq_some_iff.mp hrow
    cases harchived
  · rw [initial_batches, hbatch]
    exact ⟨batch.row, rfl, .refl _⟩
  · rw [initial_batches, hnone]
    rfl

/-! ## Batches that share a source -/

/-- The source path of the batch is, or can become, this one. -/
def CommittedBatch.MayUse (batch : CommittedBatch) (path : FilePath) : Prop :=
  ∃ text, storableText text ∧ withinRoot .inbox text = .ok path ∧
    (batch.sourceRelativePath = none ∨ batch.sourceRelativePath = some text)

/-- Batches that can share a source path and have the same bytes are reports of one type and day. -/
def NoAliases (sha256 : Bytes → Text) (batches : PyDict Uuid CommittedBatch) : Prop :=
  ∀ id id' batch batch' path, batches.get? id = some batch → batches.get? id' = some batch' →
    batch.MayUse path → batch'.MayUse path → batch.fileChecksum = batch'.fileChecksum →
    (∃ content, sha256 content = batch.fileChecksum) →
    batch.reportType = batch'.reportType ∧ batch.reportDate = batch'.reportDate

theorem mayUse_of_sourceAt {batch : CommittedBatch} {path : FilePath}
    (h : Continues batch.row row) (hpath : SourceAt row.sourceRelativePath path) :
    batch.MayUse path := by
  obtain ⟨text, htext, hwithin⟩ := hpath
  rcases h.source with hsame | ⟨hnone, hstorable⟩
  · have hsource : batch.sourceRelativePath = some text := hsame.symm.trans htext
    exact ⟨text, batch.storable text hsource, hwithin, .inr hsource⟩
  · exact ⟨text, hstorable text htext, hwithin, .inl hnone⟩

/-- An attempt leaves the bytes of every batch at one of its two places. -/
theorem Present.attempt {batches : PyDict Uuid CommittedBatch} {id : Uuid}
    (h : Present sha256 before id) (hno : NoAliases sha256 batches) (htracks : Tracks batches before)
    (hs : Archives sha256 call before s) : Present sha256 s id := by
  obtain ⟨row, path, hrow, hplace, content, hcontent, hchecksum⟩ := h
  obtain ⟨row', hrow', hcontinues⟩ := hs.rows id row hrow
  have hchecksum' : sha256 content = row'.fileChecksum := by
    rw [hchecksum, hcontinues.fileChecksum]
  have hplace' : SourceAt row'.sourceRelativePath path ∨ row'.object = some path := by
    refine hplace.imp (fun hsource => ?_) fun hobject => hcontinues.object.trans hobject
    obtain ⟨text, htext, hwithin⟩ := hsource
    rcases hcontinues.source with hsame | ⟨hnone, -⟩
    · exact ⟨text, hsame.trans htext, hwithin⟩
    · cases hnone.symm.trans htext
  rcases hs.kept path content hcontent with hkept |
    ⟨mover, object, hmover, hsource, hmoved, hobject, hpresent⟩
  · exact ⟨row', path, hrow', hplace', content, hkept, hchecksum'⟩
  · -- The file was the source of the batch that was archived, which has the same bytes.
    have htracks' := htracks.archives hs
    obtain ⟨batch, hbatch, hrowBatch⟩ := htracks'.batch hrow'
    obtain ⟨batch', hbatch', hmoverBatch⟩ := htracks'.batch hmover
    have huse : batch.MayUse path := by
      rcases hplace' with hsource' | hobject'
      · exact mayUse_of_sourceAt hrowBatch hsource'
      · obtain ⟨text, -, hwithin⟩ := hsource
        cases (object_root hobject').symm.trans (withinRoot_root hwithin)
    have hsame : batch.fileChecksum = batch'.fileChecksum := by
      have hbytes : row'.fileChecksum = mover.fileChecksum := hchecksum'.symm.trans hmoved
      have hleft : row'.fileChecksum = batch.fileChecksum := hrowBatch.fileChecksum
      have hright : mover.fileChecksum = batch'.fileChecksum := hmoverBatch.fileChecksum
      rw [← hleft, ← hright, hbytes]
    have hobject' : row'.object = some object := by
      have hshared := hno id call.batchId batch batch' path hbatch hbatch' huse
        (mayUse_of_sourceAt hmoverBatch hsource) hsame
        ⟨content, hchecksum'.trans hrowBatch.fileChecksum⟩
      have hmoverObject : some batch'.object = some object := by
        rw [← batch'.object_row, ← hmoverBatch.object, hobject]
      rw [hrowBatch.object, batch.object_row, (CommittedBatch.object_eq_iff hsame).mpr hshared,
        hmoverObject]
    obtain ⟨stored, hstored⟩ := Option.isSome_iff_exists.mp hpresent
    refine ⟨row', object, hrow', .inr hobject', stored, hstored, ?_⟩
    exact hs.sound.addressed _ _ _ object stored hobject' hstored

end Whole

end Threadline
