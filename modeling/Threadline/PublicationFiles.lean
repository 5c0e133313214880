import Threadline.LogicalForm
import Threadline.NamedFiles
import Threadline.Publication
import Threadline.PyJsonReader
import Threadline.StrictJson

/-!
# Published files

`AtomicFilePublicationStore` writes a result as JSON to a temporary file of the
directory, and renames that file. Its calls and its readers go one file operation
at a time; an operation may raise, and a process may stop between any two.
-/

open PyText PyJson PyCalendar PySorted PyExcept Stepwise NamedFiles

namespace Threadline

/-! ## The document -/

/-- `format(value, ".2f")`. -/
def Amount.fixedText : Amount → Text
  | .money cents => moneyText cents
  | .count n => moneyText (100 * n)

namespace Value

mutual

/-- `_json_value`, which refuses a float. -/
def publishedJson : Value → Option Json
  | .none => some .null
  | .bool b => some (.bool b)
  | .number (.int n) => some (.num (.int n))
  | .number _ => Option.none
  | .text s => some (.str s)
  | .decimal a => some (.str a.fixedText)
  | .datetime t => some (.str t.isoformatZ)
  | .date d => some (.str d.isoformat)
  | .list items => (publishedItems items).map .arr
  | .fields members => (publishedMembers members).map .obj

def publishedItems : List Value → Option (List Json)
  | [] => some []
  | v :: items => do
    let j ← publishedJson v
    let js ← publishedItems items
    pure (j :: js)

def publishedMembers : List (Text × Value) → Option (List (Text × Json))
  | [] => some []
  | (k, v) :: members => do
    let j ← publishedJson v
    let js ← publishedMembers members
    pure ((k, j) :: js)

end

end Value

/-- `result_to_dict`. -/
def resultToDict (r : ReconciliationResult) : Option Json := r.toValue.publishedJson

/-- `result_to_json`. -/
def resultToJson (pretty : Bool) (r : ReconciliationResult) : Option Text :=
  (resultToDict r).map fun document =>
    if pretty then renderIn (.indented 2) 0 (canon document) ++ txt "\n" else render (canon document)

/-! ## Calls -/

/-- What an operation, a hook or the clock raises: an `Exception`, or another base exception. -/
inductive StoreFault
  | exception (text : Text)
  | baseException (text : Text)
  deriving DecidableEq

inductive StoreError
  | validation (error : PublicationError)
  | serialization
  | encoding
  | noTemporaryName
  | notFound (name : Text)
  | decoding
  | notObject
  | clockWithoutOffset
  | raised (fault : StoreFault)
  deriving DecidableEq

/-- `isinstance(error, Exception)`. -/
def StoreError.isException : StoreError → Bool
  | .raised (.baseException _) => false
  | _ => true

/-- A call of `publish` with the values it draws. -/
structure PublishResultCall where
  candidate : ReconciliationResult
  /-- The random parts of the temporary names that are tried. -/
  tokens : List Text
  /-- What the clock returns, unless it has no offset. -/
  clock : Option UtcDateTime

structure PublicationReceipt where
  runId : Text
  destination : Text
  payloadSha256 : Text
  byteCount : ℕ
  publishedAtUtc : UtcDateTime
  deriving DecidableEq

/-- The bytes of a candidate that may be published. -/
def publishedPayload (pretty : Bool) (r : ReconciliationResult) : Except StoreError Bytes := do
  (validateForPublication r).mapError StoreError.validation
  let text ← orRaise (resultToJson pretty r) StoreError.serialization
  orRaise (encodeUtf8 text) StoreError.encoding

/-! ## Operations -/

/-- The directory of a target. Nobody writes to the files that were there before. -/
abbrev TargetDirectory (κ : Type) := Directory Text (Option κ) UInt8

abbrev Storing (κ : Type) := Program (TargetDirectory κ) StoreFault StoreError

namespace Storing

variable {κ : Type}

def perform {α : Type} (f : TargetDirectory κ → Except StoreError α × TargetDirectory κ) : Storing κ α :=
  Program.op StoreError.raised f

def raise {α : Type} (error : StoreError) : Storing κ α := .done (.error error)

/-- An operation that leaves the directory alone: `mkdir`, `flush`, `fsync`, a hook, the clock. -/
def pass : Storing κ Unit := perform fun s => (.ok (), s)

/-- The name of a temporary file. -/
def temporaryName (target token : Text) : Text := txt "." ++ target ++ txt "." ++ token ++ txt ".tmp"

/-- Create a file that did not exist. -/
def createFile (writer : κ) (name : Text) : Storing κ (Option ℕ) :=
  perform fun s => match s.entries.get? name with
    | some _ => (.ok none, s)
    | none => (.ok (some s.files.length), s.create (some writer) name)

/-- `tempfile.NamedTemporaryFile`, which tries one name after the other. -/
def createTemporary (writer : κ) (target : Text) : List Text → Storing κ (Text × ℕ)
  | [] => raise .noTemporaryName
  | token :: tokens => do
    let created ← createFile writer (temporaryName target token)
    match created with
    | some i => pure (temporaryName target token, i)
    | none => createTemporary writer target tokens

/-- `temporary_file.write`, of which any part may have reached the file. -/
def writeBytes (i : ℕ) : List UInt8 → Storing κ Unit
  | [] => pure ()
  | b :: bytes => do
    perform fun s => (.ok (), s.append i b)
    writeBytes i bytes

def closeFile (i : ℕ) : Storing κ Unit := perform fun s => (.ok (), s.close i)

def fileExists (name : Text) : Storing κ Bool :=
  perform fun s => (.ok (s.entries.get? name).isSome, s)

/-- `os.replace`. -/
def replaceFile (name target : Text) : Storing κ Unit :=
  perform fun s => match s.entries.get? name with
    | some i => (.ok (), s.rename name target i)
    | none => (.error (.notFound name), s)

def unlinkFile (name : Text) : Storing κ Unit :=
  perform fun s => match s.entries.get? name with
    | some _ => (.ok (), s.unlink name)
    | none => (.error (.notFound name), s)

/-! ## `AtomicFilePublicationStore.publish` -/

/-- The temporary file with the payload. A file that could not be written is closed and left. -/
def writeTemporary (writer : κ) (target : Text) (tokens : List Text) (payload : Bytes) :
    Storing κ (Text × ℕ) := do
  let (name, i) ← createTemporary writer target tokens
  Program.tryCatch (do writeBytes i payload.data.toList; pass; pass) fun error => do
    closeFile i
    raise error
  pure (name, i)

/-- The `except` clause: the temporary file is removed if it is still there. -/
def removeTemporary (name : Text) (error : StoreError) : Storing κ Unit :=
  if error.isException then do
    let present ← fileExists name
    if present then unlinkFile name else pure ()
    raise error
  else raise error

/-- What happens under the lock. Behind the rename there is no temporary file left to remove. -/
def install (writer : κ) (target : Text) (tokens : List Text) (payload : Bytes) :
    Storing κ Unit := do
  let (name, i) ← writeTemporary writer target tokens payload
  Program.tryCatch (do closeFile i; pass; replaceFile name target) (removeTemporary name)
  pass

/-- `publish`. -/
def publish (sha256 : Bytes → Text) (writer : κ) (target : Text) (call : PublishResultCall) :
    Storing κ PublicationReceipt := do
  let payload ← .done (publishedPayload true call.candidate)
  pass
  install writer target call.tokens payload
  pass
  let publishedAt ← .done (orRaise call.clock StoreError.clockWithoutOffset)
  pure ⟨call.candidate.runId, target, sha256 payload, payload.size, publishedAt⟩

/-! ## `read_current` -/

def openFile (name : Text) : Storing κ ℕ :=
  perform fun s => match s.entries.get? name with
    | some i => (.ok i, s)
    | none => (.error (.notFound name), s)

/-- What is read of an open file from an offset on. -/
def readAt (i offset : ℕ) (limit : Option ℕ) : Storing κ (List UInt8) :=
  perform fun s =>
    let rest := ((s.files[i]?.map File.content).getD []).drop offset
    (.ok (match limit with
      | some n => rest.take n
      | none => rest), s)

/-- A file is read in pieces, and then to its end. -/
def readPieces (i : ℕ) : ℕ → List ℕ → Storing κ (List UInt8)
  | offset, [] => readAt i offset none
  | offset, n :: sizes => do
    let piece ← readAt i offset (some n)
    let rest ← readPieces i (offset + piece.length) sizes
    pure (piece ++ rest)

end Storing

/-- The universal newlines of a text file. -/
def translateNewlines : Text → Text
  | [] => []
  | c :: rest =>
    if c.val = 13 then
      match rest with
      | [] => [10]
      | d :: rest' => if d.val = 10 then 10 :: translateNewlines rest' else 10 :: translateNewlines (d :: rest')
    else c :: translateNewlines rest

/-- The hooks of `json.load`: an object becomes a dictionary. -/
def plainDecoder (library : JsonLibrary) (constant : Text → Number) : Decoder where
  float token := some (library.float token)
  constant word := some (constant word)
  object members := some (.obj (PyDict.ofPairs members).items)

/-- What the bytes of a published file say. -/
def readDocument (decoder : Decoder) (content : List UInt8) : Except StoreError Json := do
  let text ← orRaise (decodeUtf8 false ⟨content.toArray⟩) StoreError.decoding
  let document ← orRaise (loads decoder (translateNewlines text)) StoreError.decoding
  match document with
  | .obj members => .ok (.obj members)
  | _ => .error .notObject

/-- `read_current`, where the file is read in pieces of any sizes. -/
def Storing.readCurrent {κ : Type} (decoder : Decoder) (target : Text) (sizes : List ℕ) :
    Storing κ (Option Json) := do
  let present ← fileExists target
  if present then do
    let i ← openFile target
    let content ← readPieces i 0 sizes
    let document ← .done (readDocument decoder content)
    pure (some document)
  else pure none

/-! ## Payloads are read back -/

/-- Only integers stand for numbers, and no object has a key twice. -/
def PlainDocument (j : Json) : Prop :=
  j.All (fun n => ∃ k, n = .int k) fun ms => (ms.map Prod.fst).Nodup

namespace Value

theorem publishedMembers_keys : ∀ {members : List (Text × Value)} {ms : List (Text × Json)},
    publishedMembers members = some ms → ms.map Prod.fst = members.map Prod.fst
  | [], ms, h => by
    obtain rfl := Option.some.inj h
    rfl
  | (k, v) :: members, ms, h => by
    simp only [publishedMembers, Option.bind_eq_bind, Option.bind_eq_some_iff, Option.pure_def,
      Option.some.injEq] at h
    obtain ⟨j, -, js, hjs, rfl⟩ := h
    rw [List.map_cons, List.map_cons, publishedMembers_keys hjs]

mutual

theorem Distinct.publishedJson : ∀ {v : Value} {j : Json}, v.Distinct → v.publishedJson = some j →
    PlainDocument j
  | .none, j, _, h | .bool _, j, _, h | .text _, j, _, h | .decimal _, j, _, h
  | .datetime _, j, _, h | .date _, j, _, h => by
    obtain rfl := Option.some.inj h
    trivial
  | .number (.int n), j, _, h => by
    obtain rfl := Option.some.inj h
    exact ⟨n, rfl⟩
  | .list items, j, hv, h => by
    obtain ⟨js, hjs, rfl⟩ := Option.map_eq_some_iff.mp h
    exact DistinctItems.publishedItems hv hjs
  | .fields members, j, hv, h => by
    obtain ⟨ms, hms, rfl⟩ := Option.map_eq_some_iff.mp h
    refine ⟨?_, DistinctMembers.publishedMembers hv.2 hms⟩
    show (ms.map Prod.fst).Nodup
    rw [publishedMembers_keys hms]
    exact hv.1

theorem DistinctItems.publishedItems : ∀ {items : List Value} {js : List Json},
    DistinctItems items → publishedItems items = some js →
    Json.AllItems (fun n => ∃ k, n = .int k) (fun ms => (ms.map Prod.fst).Nodup) js
  | [], js, _, h => by
    obtain rfl := Option.some.inj h
    trivial
  | v :: items, js, hv, h => by
    simp only [Value.publishedItems, Option.bind_eq_bind, Option.bind_eq_some_iff, Option.pure_def,
      Option.some.injEq] at h
    obtain ⟨j, hj, js, hjs, rfl⟩ := h
    exact ⟨Distinct.publishedJson hv.1 hj, DistinctItems.publishedItems hv.2 hjs⟩

theorem DistinctMembers.publishedMembers : ∀ {members : List (Text × Value)}
    {ms : List (Text × Json)}, DistinctMembers members → publishedMembers members = some ms →
    Json.AllMembers (fun n => ∃ k, n = .int k) (fun ms => (ms.map Prod.fst).Nodup) ms
  | [], ms, _, h => by
    obtain rfl := Option.some.inj h
    trivial
  | (k, v) :: members, ms, hv, h => by
    simp only [Value.publishedMembers, Option.bind_eq_bind, Option.bind_eq_some_iff, Option.pure_def,
      Option.some.injEq] at h
    obtain ⟨j, hj, js, hjs, rfl⟩ := h
    exact ⟨Distinct.publishedJson hv.1 hj, DistinctMembers.publishedMembers hv.2 hjs⟩

end

end Value

theorem PlainDocument.canon {j : Json} (h : PlainDocument j) : PlainDocument (canon j) := by
  refine (Json.all_canon (fun ms => ?_) j).mpr h
  exact (canonMembers_keys_perm ms).nodup_iff

theorem PlainDocument.readable {j : Json} (h : PlainDocument j) (library : JsonLibrary)
    (constant : Text → Number) : j.Readable (plainDecoder library constant) := by
  refine Json.All.and (fun n hn _ => ?_) (fun ms hms _ => ?_) h h
  · obtain ⟨k, rfl⟩ := hn
    trivial
  · show some (Json.obj (PyDict.ofPairs ms).items) = _
    rw [PyDict.items_ofPairs hms]

theorem translateNewlines_eq_self {s : Text} (h : ∀ c ∈ s, c.val ≠ 13) :
    translateNewlines s = s := by
  induction s with
  | nil => rfl
  | cons c s ih =>
    obtain ⟨hc, hs⟩ := List.forall_mem_cons.mp h
    rw [translateNewlines.eq_def]
    show (if c.val = 13 then _ else c :: translateNewlines s) = _
    rw [if_neg hc, ih hs]

/-- No carriage return stands in the text of a result. -/
theorem resultToJson_no_return {document : Json} :
    ∀ c ∈ renderIn (.indented 2) 0 document ++ txt "\n", c.val ≠ 13 := by
  rw [List.forall_mem_append]
  refine ⟨renderIn_forall (fun c hc => by omega) (fun depth => ?_) ?_ 0 document, ?_⟩
  · intro c hc
    rcases List.mem_cons.mp hc with rfl | hc
    · decide
    · rw [List.eq_of_mem_replicate hc]
      decide
  · intro c hc
    rw [List.mem_singleton.mp hc]
    decide
  · intro c hc
    rw [List.mem_singleton.mp hc]
    decide

/-- The bytes of a published candidate say what the candidate says. -/
theorem readDocument_publishedPayload {r : ReconciliationResult} {payload : Bytes}
    (h : publishedPayload true r = .ok payload) (library : JsonLibrary) (constant : Text → Number) :
    ∃ document, resultToDict r = some document ∧
      readDocument (plainDecoder library constant) payload.data.toList = .ok (canon document) := by
  simp only [publishedPayload, bind_eq_ok, orRaise_eq_ok] at h
  obtain ⟨-, -, text, htext, hpayload⟩ := h
  obtain ⟨document, hdocument, rfl⟩ := Option.map_eq_some_iff.mp htext
  refine ⟨document, hdocument, ?_⟩
  have hplain := (Value.Distinct.publishedJson r.toValue_distinct hdocument).canon
  have hload : loads (plainDecoder library constant)
      (renderIn (.indented 2) 0 (canon document) ++ txt "\n") = some (canon document) := by
    apply loads_renderIn (hplain.readable library constant)
    intro c hc
    rw [List.mem_singleton.mp hc]
    decide
  have hdecode := decodeUtf8_encodeUtf8 false hpayload
  obtain ⟨members, -, rfl⟩ := Option.map_eq_some_iff.mp hdocument
  have hobject : canon (.obj members) = .obj (sortedBy Prod.fst (canonMembers members)) := by
    rw [canon]
  simp only [readDocument, bind_eq_ok, orRaise_eq_ok, Array.toArray_toList]
  refine ⟨_, hdecode, _, (translateNewlines_eq_self resultToJson_no_return).symm ▸ hload, ?_⟩
  rw [hobject]

end Threadline
