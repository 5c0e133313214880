import Mathlib.Data.List.GetD
import Threadline.ArchiveRuns
import Threadline.RecoveryRebuild

/-!
# The last copy of a batch

When archival keeps a copy of every batch: exactly when batches that can share a
source path and have the same bytes are reports of one type and day. Otherwise
archiving one of them removes the only copy that the other one knows of.
-/

open PyText PyCalendar PyExcept Stepwise Runs

namespace Threadline

open Archiving

/-- Archival never loses the last copy of a batch, whatever raises and wherever attempts stop. -/
structure ArchivalSafe (sha256 : Bytes → Text) (batches : PyDict Uuid CommittedBatch) : Prop where
  /-- Bytes that were at one of the two places of a batch are so after any attempts. -/
  kept : ∀ events (attempts : List (ArchiveCall × List (Option ArchiveFault))) id,
    Present sha256 (ArchiveState.after sha256 batches events) id →
    Present sha256 (ArchiveState.after sha256 batches (events ++ attempts.map fun attempt =>
      .attempt attempt.1 attempt.2)) id
  addressed : ∀ events, Addressed sha256 (ArchiveState.after sha256 batches events).files
  archived : ∀ events id row, (ArchiveState.after sha256 batches events).batches.get? id = some row →
    row.archiveStatus = .archived → ∃ object, row.object = some object ∧
      Holds? sha256 (ArchiveState.after sha256 batches events).files object row.fileChecksum
  /-- A source with other bytes than those of the batch stays. -/
  unchanged : ∀ events call faults path content,
    (ArchiveState.after sha256 batches events).files.get? path = some content →
    (∀ row, (ArchiveState.after sha256 batches events).batches.get? call.batchId = some row →
      sha256 content ≠ row.fileChecksum) →
    (ArchiveState.after sha256 batches (events ++ [.attempt call faults])).files.get? path =
      some content

section

variable {sha256 : Bytes → Text} {batches : PyDict Uuid CommittedBatch}

/-! ## Without aliases -/

theorem present_attempts (hno : NoAliases sha256 batches) (events : List ArchiveEvent)
    (attempts : List (ArchiveCall × List (Option ArchiveFault))) (id : Uuid)
    (h : Present sha256 (ArchiveState.after sha256 batches events) id) :
    Present sha256 (ArchiveState.after sha256 batches (events ++ attempts.map fun attempt =>
      .attempt attempt.1 attempt.2)) id := by
  induction attempts generalizing events with
  | nil => simpa using h
  | cons attempt attempts ih =>
    obtain ⟨hsound, htracks⟩ : Sound sha256 (ArchiveState.after sha256 batches events) ∧
      Tracks batches _ := sound_after batches events
    have hnext : Present sha256 (ArchiveState.after sha256 batches
        (events ++ [.attempt attempt.1 attempt.2])) id := by
      unfold ArchiveState.after
      rw [run_concat]
      exact h.attempt hno htracks (archives_attempt hsound attempt.2)
    simpa using ih _ hnext

theorem archived_holds (events : List ArchiveEvent) {id : Uuid} {row : ArchivableBatch}
    (hrow : (ArchiveState.after sha256 batches events).batches.get? id = some row)
    (harchived : row.archiveStatus = .archived) : ∃ object, row.object = some object ∧
      Holds? sha256 (ArchiveState.after sha256 batches events).files object row.fileChecksum := by
  have hsound : Sound sha256 (ArchiveState.after sha256 batches events) :=
    (sound_after batches events).1
  obtain ⟨object, hobject, hpresent⟩ := hsound.archived id row hrow harchived
  obtain ⟨content, hcontent⟩ := Option.isSome_iff_exists.mp hpresent
  exact ⟨object, hobject, content, hcontent, hsound.addressed _ _ _ _ _ hobject hcontent⟩

theorem unchanged_attempt (events : List ArchiveEvent) {call : ArchiveCall}
    {faults : List (Option ArchiveFault)} {path : FilePath} {content : Bytes}
    (hcontent : (ArchiveState.after sha256 batches events).files.get? path = some content)
    (hother : ∀ row, (ArchiveState.after sha256 batches events).batches.get? call.batchId = some row →
      sha256 content ≠ row.fileChecksum) :
    (ArchiveState.after sha256 batches (events ++ [.attempt call faults])).files.get? path =
      some content := by
  have hsound : Sound sha256 (ArchiveState.after sha256 batches events) :=
    (sound_after batches events).1
  have harchives : Archives sha256 call _ _ := archives_attempt hsound faults
  unfold ArchiveState.after
  rw [run_concat]
  rcases harchives.kept path content hcontent with hkept | ⟨row, object, hrow, -, hchecksum, -⟩
  · exact hkept
  · -- The row of the batch still has its checksum.
    cases hbefore : (ArchiveState.after sha256 batches events).batches.get? call.batchId with
    | none => cases (harchives.noRows _ hbefore).symm.trans hrow
    | some before =>
      obtain ⟨row', hrow', hcontinues⟩ := harchives.rows _ before hbefore
      obtain rfl := Option.some.inj (hrow'.symm.trans hrow)
      exact absurd (hchecksum.trans hcontinues.fileChecksum) (hother before hbefore)

/-! ## With aliases -/

/-- An attempt on the batch with its source path. -/
def archiveCall (batchId : Uuid) (sourceRelativePath : Text) : ArchiveCall where
  batchId := batchId
  sourceRelativePath := some sourceRelativePath
  objectSuffix := []
  sourceSuffix := []
  attemptedAt := 0
  archivedAt := 0
  message _ _ := []

/-- The row of a batch that is archived for the first time. -/
def CommittedBatch.prepared (batch : CommittedBatch) (source : Text) : ArchivableBatch :=
  { batch.row with
    sourceRelativePath := some source
    archivePath := some (posix batch.object.parts)
    archiveAttemptCount := 1
    archiveLastAttemptAtUtc := some 0 }

theorem preparedBatch_row {batch : CommittedBatch} {id : Uuid} {text : Text} {path : FilePath}
    (hstorable : storableText text) (hwithin : withinRoot .inbox text = .ok path)
    (hsource : batch.sourceRelativePath = none ∨ batch.sourceRelativePath = some text) :
    preparedBatch (archiveCall id text) batch.row = .ok (batch.prepared text) := by
  have hsaved : attemptedPath (archiveCall id text) batch.row = .ok text := by
    simp only [attemptedPath, archiveCall, hwithin, bind_eq_ok, require_eq_ok]
    exact ⟨path, rfl, ⟨⟩, hsource, trivial⟩
  have hparts : archiveRelativePath batch.reportType.value batch.reportDate batch.fileChecksum =
      .ok batch.object.parts :=
    archiveRelativePath_eq_ok.mpr ⟨batch.reportType, reportTypeOf_value batch.reportType,
      batch.checksum_length, batch.checksum_hex, rfl⟩
  simp only [preparedBatch, bind_eq_ok, require_eq_ok]
  have hattempts : batch.row.archiveAttemptCount < integerMax := by
    show 0 < integerMax
    decide
  exact ⟨⟨⟩, rfl, text, hsaved, path, hwithin, _, hparts, ⟨⟩, .inl rfl, ⟨⟩, hstorable, ⟨⟩,
    hattempts, rfl⟩

/-- After two undisturbed steps a program that starts with an operation has performed it. -/
theorem run_pass_perform {α β γ : Type} (s : ArchiveState)
    (f : ArchiveState → Except ArchiveError α × ArchiveState) (k : α → Archiving β)
    (k' : β → Archiving γ) :
    (Runs.run Program.advance (s, pass >>= fun _ => perform f >>= k >>= k') [none, none]).1 =
      (f s).2 := rfl

/-- An attempt that stops once it is prepared. -/
theorem step_prepare {s : ArchiveState} {call : ArchiveCall} {row prepared : ArchivableBatch}
    (hrow : s.batches.get? call.batchId = some row)
    (hprepared : preparedBatch call row = .ok prepared) :
    s.step sha256 (.attempt call [none, none]) =
      { s with batches := s.batches.set call.batchId prepared } := by
  have hstep : s.step sha256 (.attempt call [none, none]) = _ := run_pass_perform s _ _ _
  rw [hstep]
  simp only [hrow, hprepared]

theorem copied_eq (content : Bytes) : ∃ parts, copied content = parts ++ [content] := by
  have hlast : content.extract 0 ((content.size / copyLength + 1) * copyLength) = content := by
    have hlength : content.size ≤ (content.size / copyLength + 1) * copyLength := by
      unfold copyLength
      omega
    rw [← max_eq_left hlength]
    exact ByteArray.extract_zero_max_size
  unfold copied
  rw [List.range_succ, List.map_append, List.map_singleton, hlast]
  exact ⟨_, rfl⟩

theorem outcome_writeEach (path : FilePath) (parts : List Bytes) (content : Bytes)
    (s : ArchiveState) : (writeEach path (parts ++ [content])).outcome s =
      (.ok (), { s with files := s.files.set path content }) := by
  induction parts generalizing s with
  | nil => rfl
  | cons part parts ih =>
    rw [List.cons_append, writeEach, Program.outcome_bind]
    show (writeEach path (parts ++ [content])).outcome { s with files := s.files.set path part } = _
    rw [ih, PyDict.set_set]

theorem outcome_copyFile {source temporary : FilePath} {content : Bytes} {s : ArchiveState}
    (h : s.files.get? source = some content) : (copyFile source temporary).outcome s =
      (.ok (), { s with files := s.files.set temporary content }) := by
  obtain ⟨parts, hparts⟩ := copied_eq content
  simp only [copyFile, readFile, perform, Program.outcome_bind, Program.outcome_op, h, hparts,
    outcome_writeEach]

theorem outcome_verifyChecksum {path : FilePath} {content : Bytes} {checksum : Text}
    {s : ArchiveState} (h : s.files.get? path = some content) (hchecksum : sha256 content = checksum) :
    (verifyChecksum sha256 path checksum).outcome s = (.ok (), s) := by
  simp [verifyChecksum, sha256File, perform, h, hchecksum]

@[simp] theorem outcome_pass (s : ArchiveState) : pass.outcome s = (.ok (), s) := rfl

@[simp] theorem outcome_failureHook (point : Text) (s : ArchiveState) :
    (failureHook point).outcome s = (.ok (), s) := rfl

@[simp] theorem outcome_fileExists (path : FilePath) (s : ArchiveState) :
    (fileExists path).outcome s = (.ok (s.files.get? path).isSome, s) := rfl

/-- An installation that is left alone. -/
theorem outcome_installVerifiedObject {source destination : FilePath} {content : Bytes}
    {checksum suffix : Text} {s : ArchiveState}
    (hcontent : s.files.get? source = some content) (hchecksum : sha256 content = checksum)
    (habsent : s.files.get? destination = none)
    (hfresh : s.files.get? (temporaryPath destination checksum suffix) = none)
    (hne : destination ≠ temporaryPath destination checksum suffix) :
    ∃ files, (installVerifiedObject sha256 failureHook source destination checksum suffix).outcome s =
        (.ok false, { s with files := files }) ∧
      ∀ path, files.get? path = if path = destination then some content else s.files.get? path := by
  generalize htemporary : temporaryPath destination checksum suffix = temporary at hfresh hne
  have hsource : source ≠ temporary := by
    rintro rfl
    cases hcontent.symm.trans hfresh
  refine ⟨(((((s.files.set temporary ByteArray.empty).set temporary content).erase temporary).set
    destination content)).erase temporary, ?_, fun path => ?_⟩
  · simp [installVerifiedObject, fillObject, placeObject, cleanupTemporary, createFile, replaceFile,
      perform, htemporary, hcontent, hchecksum, habsent, hfresh, hne.symm, hsource.symm,
      outcome_verifyChecksum, outcome_copyFile]
  · simp only [PyDict.get?_erase, PyDict.get?_set]
    split_ifs <;> grind

/-- An attempt that is left alone moves the source to its object. -/
theorem outcome_archiveBatch {s : ArchiveState} {call : ArchiveCall} {row prepared : ArchivableBatch}
    {source object : FilePath} {content : Bytes}
    (hrow : s.batches.get? call.batchId = some row) (hprepared : preparedBatch call row = .ok prepared)
    (hsource : withinRoot .inbox (prepared.sourceRelativePath.getD []) = .ok source)
    (harchive : withinRoot .archive (prepared.archivePath.getD []) = .ok object)
    (hobject : prepared.object = some object)
    (hcontent : s.files.get? source = some content)
    (hchecksum : sha256 content = prepared.fileChecksum) (habsent : s.files.get? object = none)
    (hfresh : s.files.get? (temporaryPath object prepared.fileChecksum call.objectSuffix) = none) :
    (∀ path, ((archiveBatch sha256 call).outcome s).2.files.get? path =
      if path = source then none else if path = object then some content else s.files.get? path) ∧
      ∀ id, id ≠ call.batchId →
        ((archiveBatch sha256 call).outcome s).2.batches.get? id = s.batches.get? id := by
  have hroots : source ≠ object := by
    rintro rfl
    cases (withinRoot_root hsource).symm.trans (withinRoot_root harchive)
  obtain ⟨files, hinstall, hfiles⟩ := @outcome_installVerifiedObject sha256 source object content
    prepared.fileChecksum call.objectSuffix
    { s with batches := s.batches.set call.batchId prepared } hcontent hchecksum habsent hfresh
    (archiveObject_ne_temporary hobject)
  have hpresent : files.get? source = some content := by
    rw [hfiles, if_neg hroots]
    exact hcontent
  have hmove : (moveSource sha256 call source object prepared.fileChecksum).outcome
      { s with batches := s.batches.set call.batchId prepared } = (.ok false,
        ⟨files.erase source, s.batches.set call.batchId prepared⟩) := by
    simp [moveSource, removeSource, unlinkFile, perform, hinstall, hpresent,
      outcome_verifyChecksum (s := ⟨files, s.batches.set call.batchId prepared⟩) hpresent hchecksum]
  have hall : ∃ batches, ((archiveBatch sha256 call).outcome s).2 = ⟨files.erase source, batches⟩ ∧
      ∀ id, id ≠ call.batchId → batches.get? id = s.batches.get? id := by
    simp only [archiveBatch, prepareAttempt, perform, Program.outcome_bind, outcome_pass,
      Program.outcome_op, hrow, hprepared, Program.outcome_pure, hsource, harchive,
      Program.outcome_done, Program.outcome_tryCatch, hmove, markArchived, updateCommitted,
      PyDict.get?_set, if_true]
    split_ifs
    · refine ⟨_, rfl, fun id hid => ?_⟩
      simp [hid.symm]
    · refine ⟨_, rfl, fun id hid => ?_⟩
      simp [hid.symm]
  obtain ⟨batches, hstate, hbatches⟩ := hall
  rw [hstate]
  refine ⟨fun path => ?_, hbatches⟩
  rw [PyDict.get?_erase, hfiles]
  by_cases hpath : path = source
  · rw [if_pos hpath.symm, if_pos hpath]
  · rw [if_neg (Ne.symm hpath), if_neg hpath]

/-- Archiving one of two batches that share their source loses the copy of the other one. -/
theorem not_archivalSafe {id id' : Uuid} {batch batch' : CommittedBatch} {path : FilePath}
    {content : Bytes} (hbatch : batches.get? id = some batch)
    (hbatch' : batches.get? id' = some batch') (huse : batch.MayUse path)
    (huse' : batch'.MayUse path) (hchecksum : sha256 content = batch.fileChecksum)
    (hchecksum' : sha256 content = batch'.fileChecksum) (hobjects : batch.object ≠ batch'.object) :
    ¬ ArchivalSafe sha256 batches := by
  obtain ⟨text, hstorable, hwithin, hsource⟩ := huse
  obtain ⟨text', hstorable', hwithin', hsource'⟩ := huse'
  have hid : id ≠ id' := by
    rintro rfl
    obtain rfl := Option.some.inj (hbatch.symm.trans hbatch')
    exact hobjects rfl
  have hpath : (⟨.inbox, path.parts⟩ : FilePath) = path := by
    rw [← withinRoot_root hwithin]
  -- The file arrives, and the other batch is only prepared.
  let events : List ArchiveEvent :=
    [.inbox path.parts (some content), .attempt (archiveCall id text) [none, none]]
  let before : ArchiveState :=
    ⟨(∅ : Files).set path content,
      (ArchiveState.initial batches).batches.set id (batch.prepared text)⟩
  have hrow : (ArchiveState.initial batches).batches.get? id = some batch.row := by
    rw [initial_batches, hbatch, Option.map_some]
  have hbefore : ArchiveState.after sha256 batches events = before := by
    have harrived : (ArchiveState.initial batches).step sha256 (.inbox path.parts (some content)) =
        ⟨(∅ : Files).set path content, (ArchiveState.initial batches).batches⟩ := by
      rw [ArchiveState.step, hpath]
      rfl
    show ((ArchiveState.initial batches).step sha256 (.inbox path.parts (some content))).step sha256
      (.attempt (archiveCall id text) [none, none]) = before
    rw [harrived]
    exact step_prepare hrow (preparedBatch_row hstorable hwithin hsource)
  have hcontent : before.files.get? path = some content := by
    rw [PyDict.get?_set, if_pos rfl]
  have hempty : ∀ other, other.root = .archive → before.files.get? other = none := by
    intro other hother
    rw [PyDict.get?_set, if_neg, PyDict.get?_empty]
    rintro rfl
    cases (withinRoot_root hwithin).symm.trans hother
  have hpresent : Present sha256 before id := by
    refine ⟨batch.prepared text, path, ?_, .inl ⟨text, rfl, hwithin⟩, content, hcontent, hchecksum⟩
    rw [PyDict.get?_set, if_pos rfl]
  have hrow' : before.batches.get? (archiveCall id' text').batchId = some batch'.row := by
    show before.batches.get? id' = some batch'.row
    rw [PyDict.get?_set, if_neg hid, initial_batches, hbatch', Option.map_some]
  have hobject' : (batch'.prepared text').object = some batch'.object := batch'.object_row
  have harchive : withinRoot .archive ((batch'.prepared text').archivePath.getD []) =
      .ok batch'.object :=
    withinRoot_archive (archiveRelativePath_eq_ok.mpr ⟨batch'.reportType,
      reportTypeOf_value batch'.reportType, batch'.checksum_length, batch'.checksum_hex, rfl⟩)
  -- Then the first batch is archived.
  obtain ⟨hfiles, hbatches⟩ := outcome_archiveBatch hrow'
    (preparedBatch_row hstorable' hwithin' hsource') hwithin' harchive hobject' hcontent hchecksum'
    (hempty _ rfl) (hempty _ rfl)
  obtain ⟨n, hrun⟩ := Program.exists_run_eq_outcome
    (archiveBatch sha256 (archiveCall id' text')) before
  intro hsafe
  have hkept := hsafe.kept events [(archiveCall id' text', List.replicate n none)] id
    (hbefore ▸ hpresent)
  unfold ArchiveState.after at hkept hbefore
  rw [List.map_singleton, run_concat, hbefore, ArchiveState.step, hrun] at hkept
  obtain ⟨row, found, hfound, hplace, stored, hstored, -⟩ := hkept
  rw [hbatches id hid, PyDict.get?_set, if_pos rfl] at hfound
  obtain rfl := Option.some.inj hfound
  rw [hfiles] at hstored
  rcases hplace with ⟨other, hother, hwithinOther⟩ | hobject
  · obtain rfl := Option.some.inj hother
    obtain rfl := Except.ok.inj (hwithin.symm.trans hwithinOther)
    rw [if_pos rfl] at hstored
    cases hstored
  · obtain rfl := Option.some.inj (batch.object_row.symm.trans hobject)
    rw [if_neg, if_neg hobjects, hempty _ rfl] at hstored
    · cases hstored
    · intro hsame
      cases (withinRoot_root hwithin).symm.trans (congrArg FilePath.root hsame.symm)

end

/-- Archival never loses the last copy of a batch exactly when batches that can share a source path
and have the same bytes are reports of one type and day. -/
theorem archival_safe_iff (sha256 : Bytes → Text) (batches : PyDict Uuid CommittedBatch) :
    ArchivalSafe sha256 batches ↔ NoAliases sha256 batches := by
  constructor
  · intro hsafe id id' batch batch' path hbatch hbatch' huse huse' hsame ⟨content, hcontent⟩
    by_contra hdiffer
    refine not_archivalSafe hbatch hbatch' huse huse' hcontent (hcontent.trans hsame) ?_ hsafe
    exact fun hobjects => hdiffer ((CommittedBatch.object_eq_iff hsame).mp hobjects)
  · intro hno
    exact {
      kept := present_attempts hno
      addressed := fun events => (sound_after batches events).1.addressed
      archived := fun events _ _ hrow harchived => archived_holds events hrow harchived
      unchanged := fun events _ _ _ _ hcontent hother => unchanged_attempt events hcontent hother
    }

namespace SharedSource

theorem hexDigest_length (n : ℕ) : (hexDigest n).length = 64 := by simp [hexDigest]

theorem hexDigest_hex (n : ℕ) : ∀ c ∈ hexDigest n, lowercaseHex c := by
  intro c hc
  obtain ⟨i, -, rfl⟩ := List.mem_map.mp hc
  have hlt : n / 16 ^ (63 - i) % 16 < (txt "0123456789abcdef").length :=
    Nat.mod_lt _ (by decide)
  rw [List.getD_eq_getElem _ _ hlt]
  exact decide_eq_true (List.getElem_mem hlt)

open PaidDay (september valid14 valid15)

/-- Two reports without payments whose files are both called `payments.json`. -/
def batch (day : Date) : CommittedBatch where
  reportType := .payments
  reportDate := day
  fileChecksum := hexDigest CancelledDay.emptyDigest
  sourceRelativePath := some (txt "payments.json")
  checksum_length := hexDigest_length _
  checksum_hex := hexDigest_hex _
  storable := by decide

def batches : PyDict Uuid CommittedBatch := PyDict.ofPairs
  [(txt "batch-1", batch (september 14 valid14)), (txt "batch-2", batch (september 15 valid15))]

theorem batch_mayUse (day : Date) : (batch day).MayUse ⟨.inbox, [txt "payments.json"]⟩ :=
  ⟨txt "payments.json", by decide, by rfl, .inr rfl⟩

/-- Archiving the second report removes the only copy of the first one. -/
theorem last_copy_lost :
    ¬ ArchivalSafe (fun _ => hexDigest CancelledDay.emptyDigest) batches := by
  have hdays : (batch (september 14 rfl)).object ≠ (batch (september 15 rfl)).object := by
    intro hobjects
    have hsame : (batch (september 14 rfl)).object = (batch (september 15 rfl)).object ↔ _ :=
      CommittedBatch.object_eq_iff rfl
    exact absurd (hsame.mp hobjects).2 (by decide)
  have hfirst : batches.get? (txt "batch-1") = some (batch (september 14 rfl)) := by rfl
  have hsecond : batches.get? (txt "batch-2") = some (batch (september 15 rfl)) := by rfl
  exact @not_archivalSafe _ _ _ _ _ _ _ (asciiBytes (txt "[]")) hfirst hsecond (batch_mayUse _)
    (batch_mayUse _) rfl rfl hdays

end SharedSource

end Threadline
