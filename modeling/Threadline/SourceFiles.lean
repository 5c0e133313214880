import Threadline.DurableIngestion
import Threadline.FileStore
import Threadline.Stepwise

/-!
# Source files

A producer writes a data file and then its manifest, each under a temporary name
that is renamed when the file is complete. Two consumers read a delivery: the file
gate, and the verification before ingestion. All of them go one file operation at
a time.
-/

open PyText PyJson PyCalendar PyExcept Stepwise

namespace Threadline

/-! ## Names -/

inductive FileError
  | filename
  | escapesInbox
  | alreadyExists (path : FilePath)
  | notFound (path : FilePath)
  | encoding
  | manifest (problem : Text)
  | delivery (error : DeliveryError)
  | raised (text : Text)
  deriving DecidableEq

/-- The files of a delivery. -/
structure DeliveryFiles where
  name : Text
  data : FilePath
  dataPart : FilePath
  manifest : FilePath
  manifestPart : FilePath

/-- The stem of a name with the suffix `.json`. -/
def jsonStem (name : Text) : Option Text :=
  if txt ".json" <:+ name ∧ name ≠ txt ".json" then some (name.take (name.length - 5)) else none

/-- `source_file_paths`. -/
def sourceFilePaths (path : FilePath) : Except FileError DeliveryFiles := do
  let name := path.parts.getLast?.getD []
  let stem ← orRaise (jsonStem name) FileError.filename
  require (¬ txt ".manifest.json" <:+ name) FileError.filename
  let manifest := stem ++ txt ".manifest.json"
  .ok {
    name := name
    data := path
    dataPart := path.withName (name ++ txt ".part")
    manifest := path.withName manifest
    manifestPart := path.withName (manifest ++ txt ".part")
  }

/-! ## Manifests -/

structure SourceFileManifest where
  filename : Text
  sourceSystem : Text
  reportType : Text
  reportDate : Date
  entityType : Text
  schemaVersion : Text
  rowCount : ℤ
  checksumSha256 : Text

/-- `REPORT_ENTITIES`, by member names. -/
def reportEntityNamed (label : Text) : Option Text :=
  (ReportType.all.find? fun reportType => reportType.memberName = label).map fun reportType =>
    (reportEntity reportType).value

/-- A text field of a manifest that is not blank. -/
def manifestText (document : Payload) (field : Text) : Except Text Text :=
  match document.field field with
  | .str value =>
    if strip value = [] then
      .error (txt "Manifest field " ++ field ++ txt " must be a string")
    else .ok value
  | _ => .error (txt "Manifest field " ++ field ++ txt " must be a string")

def manifestRowCount (document : Payload) : Except Text ℤ :=
  match document.field (txt "row_count") with
  | .num (.int rowCount) =>
    if rowCount < 0 then .error (txt "Manifest row_count must be a nonnegative integer")
    else .ok rowCount
  | _ => .error (txt "Manifest row_count must be a nonnegative integer")

/-- `_parse_manifest`, with the message of its `ValueError`. -/
def parseManifest (platform : Platform) (content : Bytes) (expectedFilename : Text) :
    Except Text SourceFileManifest := do
  let json ← orRaise (platform.strictJson content) (txt "Invalid JSON")
  let document ← orRaise (manifestObject json) (txt "Manifest must be a JSON object")
  let filename ← manifestText document (txt "filename")
  let sourceSystem ← manifestText document (txt "source_system")
  let reportType ← manifestText document (txt "report_type")
  let reportDay ← manifestText document (txt "report_date")
  let entityType ← manifestText document (txt "entity_type")
  let schemaVersion ← manifestText document (txt "schema_version")
  let checksum ← manifestText document (txt "checksum_sha256")
  require (filename = expectedFilename) (txt "Manifest filename does not match the data file")
  require (reportEntityNamed reportType = some entityType)
    (txt "Unsupported report/entity combination")
  let rowCount ← manifestRowCount document
  require (checksum.length = 64 ∧ ∀ c ∈ checksum, lowercaseHex c)
    (txt "Manifest checksum must be lowercase SHA-256")
  let reportDate ← orRaise (platform.iso.date reportDay) (txt "Invalid isoformat string")
  require (reportDate.isoformat = reportDay) (txt "Manifest report_date must use YYYY-MM-DD")
  .ok {
    filename := filename
    sourceSystem := sourceSystem
    reportType := reportType
    reportDate := reportDate
    entityType := entityType
    schemaVersion := schemaVersion
    rowCount := rowCount
    checksumSha256 := checksum
  }

/-! ## File operations -/

section Operations

variable {φ : Type} (raise : φ → FileError)

def pathExists (path : FilePath) : Program Files φ FileError Bool :=
  Program.op raise fun files => (.ok (files.get? path).isSome, files)

/-- `path.read_bytes()`, with nothing for a `FileNotFoundError`. -/
def readBytes (path : FilePath) : Program Files φ FileError (Option Bytes) :=
  Program.op raise fun files => (.ok (files.get? path), files)

/-- Create a file that did not exist. -/
def openExclusive (path : FilePath) : Program Files φ FileError Unit :=
  Program.op raise fun files => match files.get? path with
    | some _ => (.error (.alreadyExists path), files)
    | none => (.ok (), files.set path ByteArray.empty)

def writeContent (path : FilePath) (content : Bytes) : Program Files φ FileError Unit :=
  Program.op raise fun files => (.ok (), files.set path content)

/-- `os.rename`. -/
def renameFile (source destination : FilePath) : Program Files φ FileError Unit :=
  Program.op raise fun files => match files.get? source with
    | some content => (.ok (), (files.erase source).set destination content)
    | none => (.error (.notFound source), files)

/-- An operation without effect on the files: an `fsync`, or a failure hook. -/
def visit : Program Files φ FileError Unit := Program.op raise fun files => (.ok (), files)

/-- What has been written of a file, byte by byte. -/
def prefixes (content : Bytes) : List Bytes :=
  (List.range (content.size + 1)).map fun length => content.extract 0 length

def writePrefixes (path : FilePath) : List Bytes → Program Files φ FileError Unit
  | [] => pure ()
  | content :: rest => do
    writeContent raise path content
    writePrefixes path rest

/-- Refuse to go on when one of the files exists. -/
def refuseExisting : List FilePath → Program Files φ FileError Unit
  | [] => pure ()
  | path :: rest => do
    let present ← pathExists raise path
    if present then .done (.error (.alreadyExists path)) else refuseExisting rest

/-- Whether a temporary file of the delivery exists. -/
def temporaryPresent (files : DeliveryFiles) : Program Files φ FileError Bool := do
  let present ← pathExists raise files.dataPart
  if present then pure true else pathExists raise files.manifestPart

end Operations

/-! ## The producer -/

/-- The arguments of `publish_source_file`. -/
structure PublishCall where
  path : FilePath
  records : List Payload
  sourceSystem : Text
  reportType : Text
  reportDate : Date
  entityType : Text
  schemaVersion : Text

namespace PublishCall

variable (call : PublishCall)

def rowsDocument : Json := .arr (call.records.map fun record => .obj record.items)

def manifestMembers (name checksum : Text) : List (Text × Json) :=
  [(txt "filename", .str name),
   (txt "source_system", .str call.sourceSystem),
   (txt "report_type", .str call.reportType),
   (txt "report_date", .str call.reportDate.isoformat),
   (txt "entity_type", .str call.entityType),
   (txt "schema_version", .str call.schemaVersion),
   (txt "row_count", .num (.int call.records.length)),
   (txt "checksum_sha256", .str checksum)]

end PublishCall

/-- `publish_source_file`; an operation or a hook may raise a text. -/
def publishSourceFile (platform : Platform) (call : PublishCall) :
    Program Files Text FileError FilePath := do
  let files ← .done (sourceFilePaths call.path)
  refuseExisting FileError.raised [files.data, files.dataPart, files.manifest, files.manifestPart]
  let fileBytes ← .done (orRaise (documentBytes call.rowsDocument) FileError.encoding)
  let manifestBytes ← .done (orRaise (documentBytes
    (.obj (call.manifestMembers files.name (platform.sha256 fileBytes)))) FileError.encoding)
  let _ ← .done ((parseManifest platform manifestBytes files.name).mapError FileError.manifest)
  openExclusive FileError.raised files.dataPart
  refuseExisting FileError.raised [files.data, files.manifest, files.manifestPart]
  writePrefixes FileError.raised files.dataPart (prefixes fileBytes)
  visit FileError.raised
  visit FileError.raised
  renameFile FileError.raised files.dataPart files.data
  visit FileError.raised
  visit FileError.raised
  openExclusive FileError.raised files.manifestPart
  writePrefixes FileError.raised files.manifestPart (prefixes manifestBytes)
  visit FileError.raised
  visit FileError.raised
  -- The final manifest is the completion marker.
  renameFile FileError.raised files.manifestPart files.manifest
  visit FileError.raised
  visit FileError.raised
  pure files.manifest

/-! ## The file gate -/

structure ReadySourceFile where
  dataPath : FilePath
  manifestPath : FilePath
  manifest : SourceFileManifest
  records : List Payload
  fileBytes : Bytes
  manifestBytes : Bytes

inductive FileGateResult
  | waiting (reason : Text)
  | rejected (reason : Text)
  | ready (ready : ReadySourceFile)

/-- The records of a data file, or the reason to reject it. -/
def gateRecords (platform : Platform) (manifest : SourceFileManifest) (fileBytes : Bytes) :
    Except Text (List Payload) := do
  require (platform.sha256 fileBytes = manifest.checksumSha256) (txt "CHECKSUM_MISMATCH")
  let json ← orRaise (platform.strictJson fileBytes) (txt "INVALID_DATA_JSON")
  let records ← orRaise (objectRows json) (txt "INVALID_DATA_STRUCTURE")
  require ((records.length : ℤ) = manifest.rowCount) (txt "ROW_COUNT_MISMATCH")
  .ok records

/-- The end of the gate: no temporary file has appeared in the meantime. -/
def passGate (files : DeliveryFiles) (ready : ReadySourceFile) :
    Program Files Empty FileError FileGateResult := do
  let present ← temporaryPresent Empty.elim files
  if present then pure (.waiting (txt "TEMPORARY_FILE_PRESENT")) else pure (.ready ready)

/-- The gate once both files have been read. -/
def gateContent (platform : Platform) (files : DeliveryFiles) (manifest : SourceFileManifest)
    (manifestBytes fileBytes : Bytes) : Program Files Empty FileError FileGateResult :=
  match gateRecords platform manifest fileBytes with
  | .error reason => pure (.rejected reason)
  | .ok records =>
    passGate files ⟨files.data, files.manifest, manifest, records, fileBytes, manifestBytes⟩

/-- The gate once the manifest has been read. -/
def gateManifest (platform : Platform) (files : DeliveryFiles) (manifestBytes : Bytes) :
    Program Files Empty FileError FileGateResult :=
  match parseManifest platform manifestBytes files.name with
  | .error _ => pure (.rejected (txt "INVALID_MANIFEST"))
  | .ok manifest =>
    if manifest.schemaVersion ≠ txt "1" then pure (.rejected (txt "UNSUPPORTED_SCHEMA_VERSION"))
    else do
      let content ← readBytes Empty.elim files.data
      match content with
      | none => pure (.waiting (txt "DATA_FILE_MISSING"))
      | some fileBytes => gateContent platform files manifest manifestBytes fileBytes

/-- `inspect_source_file`. -/
def inspectSourceFile (platform : Platform) (path : FilePath) :
    Program Files Empty FileError FileGateResult := do
  let files ← .done (sourceFilePaths path)
  let present ← temporaryPresent Empty.elim files
  if present then pure (.waiting (txt "TEMPORARY_FILE_PRESENT"))
  else do
    let complete ← pathExists Empty.elim files.manifest
    if complete then do
      let content ← readBytes Empty.elim files.manifest
      match content with
      | none => pure (.waiting (txt "MANIFEST_MISSING"))
      | some manifestBytes => gateManifest platform files manifestBytes
    else pure (.waiting (txt "MANIFEST_MISSING"))

/-! ## Verification before ingestion -/

/-- `path.read_bytes()`, which raises a `FileNotFoundError`. -/
def readExisting (path : FilePath) : Program Files Empty FileError Bytes := do
  let content ← readBytes Empty.elim path
  match content with
  | none => .done (.error (.notFound path))
  | some bytes => pure bytes

/-- `verify_delivery` from the files: `verifyDelivery` on what it reads, between two checks of the
temporary files. -/
def verifyDeliveryFiles (platform : Platform) (path : FilePath) :
    Program Files Empty FileError (Option VerifiedDelivery) := do
  .done (require (path.root = .inbox ∧ path.parts ≠ []) FileError.escapesInbox)
  let files ← .done (sourceFilePaths path)
  let present ← temporaryPresent Empty.elim files
  if present then pure none
  else do
    let dataComplete ← pathExists Empty.elim files.data
    if dataComplete then do
      let complete ← pathExists Empty.elim files.manifest
      if complete then do
        let dataBytes ← readExisting files.data
        let manifestBytes ← readExisting files.manifest
        let delivery ← .done ((verifyDelivery platform
          ⟨files.name, posix path.parts, dataBytes, manifestBytes⟩).mapError FileError.delivery)
        let present ← temporaryPresent Empty.elim files
        if present then pure none else pure (some delivery)
      else pure none
    else pure none

end Threadline
