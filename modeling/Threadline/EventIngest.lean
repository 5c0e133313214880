import Threadline.PublicationFiles

/-!
# Raw events

Producers put one event into one JSON file of the raw directory. A run checks the
pending files, loads the valid events in one transaction and archives their files.
It goes one operation at a time, any operation may raise, and a run may stop between
any two.
-/

open PyText PyJson PyCalendar PyExcept Stepwise

namespace Threadline

/-! ## Validation -/

/-- A naive `datetime`. -/
abbrev WallClock := Date × Fin 86400000000

/-- What validation uses of the standard library. -/
structure EventLibrary where
  json : JsonLibrary
  /-- The constants that JSON does not have. -/
  constant : Text → Number
  /-- `datetime.fromisoformat`, without the offset of an aware datetime. -/
  datetime : Text → Option WallClock

/-- What `isinstance(value, int)` accepts. -/
inductive PyInt
  | int (n : ℤ)
  | bool (b : Bool)
  deriving DecidableEq

def PyInt.value : PyInt → ℤ
  | .int n => n
  | .bool b => if b then 1 else 0

def PyInt.ofJson? : Json → Option PyInt
  | .num (.int n) => some (.int n)
  | .bool b => some (.bool b)
  | _ => none

/-- A text can be looked up in a `frozenset`, and so can every value but a list or a dictionary. -/
def hashableValue : Json → Bool
  | .arr _ | .obj _ => false
  | _ => true

structure EventRecord where
  eventType : Text
  userId : PyInt
  productId : Option PyInt
  eventTimestamp : WallClock
  deriving DecidableEq

/-- What becomes of a file: `raises` stands for an exception that the run does not catch. -/
inductive FileVerdict
  | valid (event : EventRecord)
  | refused
  | raises
  deriving DecidableEq

def expectedFields : List Text :=
  [txt "event_type", txt "user_id", txt "product_id", txt "timestamp"]

def validEventTypes : List Text := [txt "page_view", txt "add_to_cart", txt "purchase"]

/-- `value.replace('Z', '+00:00')`. -/
def normalizedTimestamp (value : Text) : Text :=
  value.flatMap fun c => if c = ofChar 'Z' then txt "+00:00" else [c]

/-- `_parse_event_timestamp`. -/
def parseEventTimestamp (library : EventLibrary) (value : Text) : Option WallClock :=
  library.datetime (normalizedTimestamp value)

/-- `data['product_id']`, which may be null. -/
def eventProductId : Json → Option (Option PyInt)
  | .null => some none
  | value => (PyInt.ofJson? value).map some

/-- `_validate_event`. A value that is not a dictionary has no keys. -/
def validateEvent (library : EventLibrary) : Json → FileVerdict
  | .obj members =>
    let data := PyDict.ofPairs members
    match expectedFields.map data.get? with
    | [some eventType, some userId, some productId, some timestamp] =>
      if !hashableValue eventType then .raises
      else match eventType with
      | .str eventType =>
        if eventType ∉ validEventTypes then .refused
        else match PyInt.ofJson? userId, eventProductId productId, timestamp with
        | some userId, some productId, .str timestamp =>
          if userId.value ≤ 0 then .refused
          else match parseEventTimestamp library timestamp with
          | some eventTimestamp => .valid ⟨eventType, userId, productId, eventTimestamp⟩
          | none => .refused
        | _, _, _ => .refused
      | _ => .refused
    | _ => .refused
  | _ => .raises

/-- `json.load` and `_validate_event`. Bytes that are not UTF-8 raise an error that is not caught. -/
def judge (library : EventLibrary) (content : Bytes) : FileVerdict :=
  match decodeUtf8 false content with
  | none => .raises
  | some text =>
    match loads (plainDecoder library.json library.constant) (translateNewlines text) with
    | none => .refused
    | some data => validateEvent library data

/-! ## The table -/

/-- A row of `raw.events`, without its ID, its file and the time when it was loaded. -/
structure RawEvent where
  eventType : Text
  userId : ℤ
  productId : Option ℤ
  eventTimestamp : WallClock
  deriving DecidableEq

/-- An `INTEGER` column takes no boolean. -/
def PyInt.column? : PyInt → Option ℤ
  | .int n => if -integerMax - 1 ≤ n ∧ n ≤ integerMax then some n else none
  | .bool _ => none

/-- The row of an event, unless the server refuses it. -/
def EventRecord.row? (event : EventRecord) (sourceFile : Text) : Option RawEvent := do
  let userId ← event.userId.column?
  let productId ← match event.productId with
    | none => some none
    | some productId => productId.column?.map some
  if storableText sourceFile ∧ sourceFile.length ≤ 255 then
    some ⟨event.eventType, userId, productId, event.eventTimestamp⟩
  else none

/-- `INSERT ... ON CONFLICT (source_file) DO NOTHING`. -/
def insertEvent (events : PyDict Text RawEvent) (row : Text × RawEvent) : PyDict Text RawEvent :=
  match events.get? row.1 with
  | some _ => events
  | none => events.set row.1 row.2

/-! ## Operations -/

/-- The three directories, the table, and the names of the files that could not be read. -/
structure EventStore where
  raw : PyDict Text Bytes
  bad : PyDict Text Bytes
  processed : PyDict Text Bytes
  events : PyDict Text RawEvent
  unread : List Text

instance : EmptyCollection EventStore := ⟨⟨∅, ∅, ∅, ∅, []⟩⟩

/-- An exception of an operation, which may have happened all the same. -/
structure EventFault where
  osError : Bool
  happened : Bool
  text : Text
  deriving DecidableEq

inductive EventError
  | notFound (name : Text)
  | uncaught
  | database
  | raised (fault : EventFault)
  deriving DecidableEq

/-- `isinstance(error, OSError)`. -/
def EventError.isOSError : EventError → Bool
  | .notFound _ => true
  | .raised fault => fault.osError
  | _ => false

abbrev Ingesting := Program EventStore EventFault EventError

namespace Ingesting

def perform {α : Type} (f : EventStore → Except EventError α × EventStore) : Ingesting α :=
  .step
    (fun fault s => match fault with
      | none => (f s).2
      | some fault => if fault.happened then (f s).2 else s)
    (fun fault s => match fault with
      | none => .done (f s).1
      | some fault => .done (.error (.raised fault)))

def raise {α : Type} (error : EventError) : Ingesting α := .done (.error error)

/-- An operation that leaves the store alone. -/
def pass : Ingesting Unit := perform fun s => (.ok (), s)

/-- `os.listdir`, in the order in which the names come. -/
def listNames (order : List Text → List Text) : Ingesting (List Text) :=
  perform fun s => (.ok (order s.raw.keys), s)

/-- Read a file. A file that the system does not let read is noted. -/
def readFile (name : Text) : Ingesting Bytes :=
  .step
    (fun fault s =>
      if (s.raw.get? name).isNone ∨ fault.any EventFault.osError then
        { s with unread := s.unread ++ [name] }
      else s)
    (fun fault s => match fault, s.raw.get? name with
      | some fault, _ => .done (.error (.raised fault))
      | none, some content => .done (.ok content)
      | none, none => .done (.error (.notFound name)))

def moveToBad (name : Text) : Ingesting Unit := do
  pass
  perform fun s => match s.raw.get? name with
    | some content =>
      (.ok (), { s with raw := s.raw.erase name, bad := s.bad.set name content })
    | none => (.error (.notFound name), s)

def moveToProcessed (name : Text) : Ingesting Unit := do
  pass
  perform fun s => match s.raw.get? name with
    | some content =>
      (.ok (), { s with raw := s.raw.erase name, processed := s.processed.set name content })
    | none => (.error (.notFound name), s)

def fileExists (name : Text) : Ingesting Bool := perform fun s => (.ok (s.raw.get? name).isSome, s)

/-- `conn.commit()`: the rows are in the table all at once. -/
def commitRows (rows : List (Text × RawEvent)) : Ingesting Unit :=
  perform fun s => (.ok (), { s with events := rows.foldl insertEvent s.events })

/-! ## `run_ingest` -/

/-- The event of a pending file, which is moved away if it has none. -/
def checkFile (library : EventLibrary) (name : Text) : Ingesting (Option EventRecord) := do
  let verdict ← Program.tryCatch (do
      let content ← readFile name
      pure (judge library content))
    fun error => if error.isOSError then pure .refused else raise error
  match verdict with
  | .valid event => pure (some event)
  | .refused =>
    moveToBad name
    pure none
  | .raises => raise .uncaught

/-- The records of the pending files, in their order. -/
def checkFiles (library : EventLibrary) : List Text → Ingesting (List (Text × EventRecord))
  | [] => pure []
  | name :: names => do
    let event ← checkFile library name
    let records ← checkFiles library names
    match event with
    | some event => pure ((name, event) :: records)
    | none => pure records

/-- `cur.executemany`, of which nothing is seen before the commit. -/
def insertRecords (records : List (Text × EventRecord)) : Ingesting (List (Text × RawEvent)) := do
  pass
  .done (orRaise (records.mapM fun record => (record.2.row? record.1).map (Prod.mk record.1))
    EventError.database)

/-- The transaction, and the connection that is closed behind it. -/
def loadRecords (records : List (Text × EventRecord)) : Ingesting Unit := do
  pass
  Program.tryFinally (do
    let rows ← insertRecords records
    commitRows rows) pass

def archiveFiles : List Text → Ingesting Unit
  | [] => pure ()
  | name :: names => do
    let present ← fileExists name
    if present then moveToProcessed name
    archiveFiles names

/-- `list_pending_json_files` and `run_ingest`. -/
def runIngest (library : EventLibrary) (order : List Text → List Text) : Ingesting ℕ := do
  let names ← listNames order
  let pending := names.filter fun name => txt ".json" <:+ name
  if pending = [] then pure 0
  else do
    let records ← checkFiles library pending
    if records = [] then pure 0
    else do
      loadRecords records
      archiveFiles (records.map Prod.fst)
      pure records.length

end Ingesting

end Threadline
