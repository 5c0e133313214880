import Threadline.DurableIngestion
import Threadline.FileStore
import Threadline.Stepwise

/-!
# Archival

The file of a committed batch moves to a content-addressed object of the archive,
by one operation on the files or the database at a time. Each of them may raise,
and the process may stop between any two.
-/

open PyText PyCalendar PyExcept Stepwise

namespace Threadline

inductive ArchiveStatus
  | pending | archived | failed
  deriving DecidableEq

/-- The columns of `ingestion_batch` that archival reads and writes. -/
structure ArchivableBatch where
  reportType : Text
  reportDate : Date
  fileChecksum : Text
  ingestionStatus : IngestionStatus
  sourceRelativePath : Option Text
  archivePath : Option Text
  archiveStatus : ArchiveStatus
  archivedAtUtc : Option Instant
  archiveAttemptCount : ℕ
  archiveLastAttemptAtUtc : Option Instant
  archiveErrorMessage : Option Text

structure ArchiveState where
  files : Files
  batches : PyDict Uuid ArchivableBatch

/-- What an operation of the system, the database or a failure hook raises. -/
inductive ArchiveFault
  | osError (text : Text)
  | exception (text : Text)
  | baseException (text : Text)
  deriving DecidableEq

inductive ArchiveError
  | evidenceMissing (path : FilePath)
  | checksumMismatch (path : FilePath) (expected observed : Text)
  | parentTraversal
  | escapesRoot
  | reportType (label : Text)
  | checksumFormat
  | batchMissing
  | notCommitted
  | sourcePathChanged
  | sourcePathUnknown
  | archivePathDiffers
  | untranslatableText
  | attemptOutOfRange
  | fileNotFound (path : FilePath)
  | fileExists (path : FilePath)
  | raised (fault : ArchiveFault)
  deriving DecidableEq

/-- `isinstance(error, Exception)`. -/
def ArchiveError.isException : ArchiveError → Bool
  | .raised (.baseException _) => false
  | _ => true

/-- `isinstance(error, OSError)`. -/
def ArchiveError.isOsError : ArchiveError → Bool
  | .fileNotFound _ => true
  | .fileExists _ => true
  | .raised (.osError _) => true
  | _ => false

/-- A call of `archive_batch` with the values it draws. -/
structure ArchiveCall where
  batchId : Uuid
  sourceRelativePath : Option Text
  /-- The random parts of the temporary names, for the object and for a restored source. -/
  objectSuffix : Text
  sourceSuffix : Text
  attemptedAt : Instant
  archivedAt : Instant
  /-- The message that is kept of an error and of one of its restoration. -/
  message : ArchiveError → Option ArchiveError → Text

/-! ## Paths -/

/-- `archive_relative_path`. -/
def archiveRelativePath (reportType : Text) (reportDate : Date) (checksum : Text) :
    Except ArchiveError (List Text) := do
  let reportType ← orRaise (reportTypeOf reportType) (ArchiveError.reportType reportType)
  require (checksum.length = 64 ∧ checksum.all lowercaseHex) ArchiveError.checksumFormat
  .ok [reportType.memberName, reportDate.isoformat, checksum.take 2, checksum ++ txt ".json"]

/-- `_within_root`. -/
def withinRoot (root : Root) (relativePath : Text) : Except ArchiveError FilePath := do
  require (relativePath.head? ≠ some slash ∧ txt ".." ∉ pathParts relativePath)
    ArchiveError.parentTraversal
  require (pathParts relativePath ≠ []) ArchiveError.escapesRoot
  .ok ⟨root, pathParts relativePath⟩

/-! ## Operations -/

abbrev Archiving := Program ArchiveState ArchiveFault ArchiveError

namespace Archiving

def perform {α : Type} (f : ArchiveState → Except ArchiveError α × ArchiveState) : Archiving α :=
  Program.op ArchiveError.raised f

def raise {α : Type} (error : ArchiveError) : Archiving α := .done (.error error)

/-- An operation that leaves the files and the rows alone: a lock, a directory, an `fsync`, the
acknowledgement of a commit. -/
def pass : Archiving Unit := perform fun s => (.ok (), s)

def failureHook (_point : Text) : Archiving Unit := pass

def fileExists (path : FilePath) : Archiving Bool :=
  perform fun s => (.ok (s.files.get? path).isSome, s)

def readFile (path : FilePath) : Archiving Bytes :=
  perform fun s => match s.files.get? path with
    | some content => (.ok content, s)
    | none => (.error (.fileNotFound path), s)

def writeFile (path : FilePath) (content : Bytes) : Archiving Unit :=
  perform fun s => (.ok (), { s with files := s.files.set path content })

/-- `tempfile.mkstemp`: create a file that did not exist. -/
def createFile (path : FilePath) : Archiving Unit :=
  perform fun s => match s.files.get? path with
    | some _ => (.error (.fileExists path), s)
    | none => (.ok (), { s with files := s.files.set path ByteArray.empty })

/-- `os.replace`. -/
def replaceFile (source destination : FilePath) : Archiving Unit :=
  perform fun s => match s.files.get? source with
    | some content => (.ok (), { s with files := (s.files.erase source).set destination content })
    | none => (.error (.fileNotFound source), s)

def unlinkFile (path : FilePath) : Archiving Unit :=
  perform fun s => match s.files.get? path with
    | some _ => (.ok (), { s with files := s.files.erase path })
    | none => (.error (.fileNotFound path), s)

/-- `try: … except Exception as error:`, with the exception that was caught. -/
def attempt (program : Archiving Unit) : Archiving (Option ArchiveError) :=
  Program.tryCatch (do program; pure none) fun error =>
    if error.isException then pure (some error) else raise error

end Archiving

open Archiving

section

variable (sha256 : Bytes → Text)

def sha256File (path : FilePath) : Archiving Text :=
  perform fun s => match s.files.get? path with
    | some content => (.ok (sha256 content), s)
    | none => (.error (.evidenceMissing path), s)

def verifyChecksum (path : FilePath) (expected : Text) : Archiving Unit := do
  let actual ← sha256File sha256 path
  if actual ≠ expected then raise (.checksumMismatch path expected actual) else pure ()

/-! ## Installing an object -/

/-- The bytes that `shutil.copyfileobj` copies at a time. -/
def copyLength : ℕ := 1024 * 1024

/-- What has been written of a file after each turn of the copying loop. -/
def copied (content : Bytes) : List Bytes :=
  (List.range (content.size / copyLength + 1)).map fun turn =>
    content.extract 0 ((turn + 1) * copyLength)

def writeEach (path : FilePath) : List Bytes → Archiving Unit
  | [] => pure ()
  | content :: rest => do
    writeFile path content
    writeEach path rest

def copyFile (source temporary : FilePath) : Archiving Unit := do
  let content ← readFile source
  writeEach temporary (copied content)

def cleanupTemporary (path : FilePath) : Archiving Unit :=
  Program.tryCatch
    (perform fun s => (.ok (), { s with files := s.files.erase path }))
    fun error => if error.isOsError then pure () else raise error

def temporaryPath (destination : FilePath) (checksum suffix : Text) : FilePath :=
  destination.withName (txt "." ++ checksum ++ txt "." ++ suffix ++ txt ".tmp")

/-- Move the verified temporary file to its place, unless there is an object by now. -/
def placeObject (temporary destination : FilePath) (checksum : Text) : Archiving Bool := do
  let present ← fileExists destination
  if present then do
    verifyChecksum sha256 destination checksum
    pure true
  else do
    replaceFile temporary destination
    pure false

/-- The part of `_install_verified_object` that has a temporary file. -/
def fillObject (hook : Text → Archiving Unit) (source temporary destination : FilePath)
    (checksum : Text) : Archiving Bool := do
  copyFile source temporary
  hook (txt "after_copy")
  pass
  hook (txt "after_temp_fsync")
  verifyChecksum sha256 temporary checksum
  hook (txt "after_temp_checksum")
  let reused ← placeObject sha256 temporary destination checksum
  pass
  hook (txt "after_rename")
  verifyChecksum sha256 destination checksum
  hook (txt "after_final_checksum")
  pure reused

/-- `_install_verified_object`. -/
def installVerifiedObject (hook : Text → Archiving Unit) (source destination : FilePath)
    (checksum suffix : Text) : Archiving Bool := do
  let present ← fileExists destination
  if present then do
    verifyChecksum sha256 destination checksum
    hook (txt "after_final_checksum")
    pure true
  else do
    verifyChecksum sha256 source checksum
    pass
    createFile (temporaryPath destination checksum suffix)
    Program.tryFinally
      (fillObject sha256 hook source (temporaryPath destination checksum suffix) destination checksum)
      (cleanupTemporary (temporaryPath destination checksum suffix))

/-- `_restore_source`. -/
def restoreSource (source destination : FilePath) (checksum suffix : Text) : Archiving Unit := do
  let sourcePresent ← fileExists source
  if sourcePresent then pure ()
  else do
    let objectPresent ← fileExists destination
    if objectPresent then do
      verifyChecksum sha256 destination checksum
      let _ ← installVerifiedObject sha256 (fun _ => pure ()) destination source checksum suffix
      pure ()
    else pure ()

/-! ## One attempt -/

/-- The source path that an attempt uses. -/
def attemptedPath (call : ArchiveCall) (batch : ArchivableBatch) : Except ArchiveError Text :=
  match call.sourceRelativePath with
  | some given => do
    let _ ← withinRoot .inbox given
    require (batch.sourceRelativePath = none ∨ batch.sourceRelativePath = some given)
      ArchiveError.sourcePathChanged
    .ok given
  | none => orRaise batch.sourceRelativePath ArchiveError.sourcePathUnknown

/-- The row that `_prepare_attempt` stores. -/
def preparedBatch (call : ArchiveCall) (batch : ArchivableBatch) :
    Except ArchiveError ArchivableBatch := do
  require (batch.ingestionStatus = .committed) ArchiveError.notCommitted
  let savedSource ← attemptedPath call batch
  let _ ← withinRoot .inbox savedSource
  let destination ← archiveRelativePath batch.reportType batch.reportDate batch.fileChecksum
  require (batch.archivePath = none ∨ batch.archivePath = some (posix destination))
    ArchiveError.archivePathDiffers
  require (storableText savedSource) ArchiveError.untranslatableText
  require (batch.archiveAttemptCount < integerMax) ArchiveError.attemptOutOfRange
  .ok { batch with
    sourceRelativePath := some savedSource
    archivePath := some (posix destination)
    archiveAttemptCount := batch.archiveAttemptCount + 1
    archiveLastAttemptAtUtc := some call.attemptedAt
    archiveErrorMessage := none }

/-- `_prepare_attempt`. -/
def prepareAttempt (call : ArchiveCall) : Archiving ArchivableBatch := do
  let batch ← perform fun s => match s.batches.get? call.batchId with
    | none => (.error .batchMissing, s)
    | some batch => match preparedBatch call batch with
      | .error error => (.error error, s)
      | .ok prepared =>
        (.ok prepared, { s with batches := s.batches.set call.batchId prepared })
  pass
  pure batch

/-- `UPDATE ingestion_batch … WHERE batch_id = … AND ingestion_status = 'COMMITTED'`. -/
def updateCommitted (call : ArchiveCall) (update : ArchivableBatch → ArchivableBatch) :
    Archiving Unit := do
  perform fun s => match s.batches.get? call.batchId with
    | some batch =>
      if batch.ingestionStatus = .committed then
        (.ok (), { s with batches := s.batches.set call.batchId (update batch) })
      else (.ok (), s)
    | none => (.ok (), s)
  pass

def markArchived (call : ArchiveCall) : Archiving Unit :=
  updateCommitted call fun batch => { batch with
    archiveStatus := .archived
    archivedAtUtc := some (batch.archivedAtUtc.getD call.archivedAt)
    archiveErrorMessage := none }

/-- `_record_failure`. -/
def recordFailure (call : ArchiveCall) (message : Text) (preserveCommittedMarker : Bool) :
    Archiving Unit :=
  updateCommitted call fun batch =>
    if preserveCommittedMarker ∧ batch.archiveStatus = .archived then batch
    else { batch with
      archiveStatus := .failed
      archivedAtUtc := none
      archiveErrorMessage := some (message.take 4000) }

/-- Remove the source once its object is installed. -/
def removeSource (source : FilePath) (checksum : Text) : Archiving Unit := do
  let present ← fileExists source
  if present then do
    verifyChecksum sha256 source checksum
    unlinkFile source
    pass
  else pure ()

/-- What is tried before the row is marked. -/
def moveSource (call : ArchiveCall) (source destination : FilePath) (checksum : Text) :
    Archiving Bool := do
  let reused ← installVerifiedObject sha256 failureHook source destination checksum
    call.objectSuffix
  removeSource sha256 source checksum
  failureHook (txt "after_source_remove")
  failureHook (txt "before_status_update")
  pure reused

/-- The handler of the exceptions of an attempt. -/
def failAttempt {α : Type} (call : ArchiveCall) (source destination : FilePath) (checksum : Text)
    (markerAttempted : Bool) (error : ArchiveError) : Archiving α :=
  if error.isException then do
    let note ← attempt (restoreSource sha256 source destination checksum call.sourceSuffix)
    let _ ← attempt (recordFailure call (call.message error note) markerAttempted)
    raise error
  else raise error

structure ArchiveOutcome where
  archivePath : FilePath
  fileChecksum : Text
  reusedExistingObject : Bool
  deriving DecidableEq

/-- `archive_batch`. One handler serves both parts, which differ in `marker_attempted`. -/
def archiveBatch (call : ArchiveCall) : Archiving ArchiveOutcome := do
  pass
  let batch ← prepareAttempt call
  let source ← Program.done (withinRoot .inbox (batch.sourceRelativePath.getD []))
  let destination ← Program.done (withinRoot .archive (batch.archivePath.getD []))
  let reused ← Program.tryCatch (moveSource sha256 call source destination batch.fileChecksum)
    (failAttempt sha256 call source destination batch.fileChecksum false)
  Program.tryCatch (markArchived call)
    (failAttempt sha256 call source destination batch.fileChecksum true)
  pure ⟨destination, batch.fileChecksum, reused⟩

/-! ## Sequences of attempts -/

/-- A committed batch that was never archived. -/
structure CommittedBatch where
  reportType : ReportType
  reportDate : Date
  fileChecksum : Text
  sourceRelativePath : Option Text
  checksum_length : fileChecksum.length = 64
  checksum_hex : ∀ c ∈ fileChecksum, lowercaseHex c
  storable : ∀ path ∈ sourceRelativePath, storableText path

def CommittedBatch.row (batch : CommittedBatch) : ArchivableBatch where
  reportType := batch.reportType.value
  reportDate := batch.reportDate
  fileChecksum := batch.fileChecksum
  ingestionStatus := .committed
  sourceRelativePath := batch.sourceRelativePath
  archivePath := none
  archiveStatus := .pending
  archivedAtUtc := none
  archiveAttemptCount := 0
  archiveLastAttemptAtUtc := none
  archiveErrorMessage := none

/-- An attempt that goes as many steps as it has faults listed, or a change of the inbox between two
attempts. -/
inductive ArchiveEvent
  | attempt (call : ArchiveCall) (faults : List (Option ArchiveFault))
  | inbox (parts : List Text) (content : Option Bytes)

namespace ArchiveState

/-- Committed batches before anything has been archived. -/
def initial (batches : PyDict Uuid CommittedBatch) : ArchiveState where
  files := ∅
  batches := batches.mapItems fun _ batch => batch.row

def step (s : ArchiveState) : ArchiveEvent → ArchiveState
  | .attempt call faults => (Runs.run Program.advance (s, archiveBatch sha256 call) faults).1
  | .inbox parts (some content) => { s with files := s.files.set ⟨.inbox, parts⟩ content }
  | .inbox parts none => { s with files := s.files.erase ⟨.inbox, parts⟩ }

/-- The state after some events. -/
def after (batches : PyDict Uuid CommittedBatch) (events : List ArchiveEvent) : ArchiveState :=
  Runs.run (step sha256) (initial batches) events

end ArchiveState

end

end Threadline
