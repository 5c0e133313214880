import Threadline.DeliveryProtocol
import Threadline.PyJsonReader

/-!
# Strict JSON

`strict_json` and `_load_json` read bytes with two hooks: no key of an object may
come twice, and no constant may stand for a number. The documents that the program
writes are read back, and a delivery that its producer has finished is accepted.
-/

open PyText PyJson PyCalendar PySorted PyExcept Stepwise Runs

namespace Threadline

/-- What the reader calls of the Python library: `float`, and the decoders of wide encodings. -/
structure JsonLibrary where
  float : Text → Number
  wide : Bytes → Option Text

/-- `_unique_object` and `reject_constant`. -/
def strictDecoder (library : JsonLibrary) : Decoder where
  float token := some (library.float token)
  constant _ := none
  object members := if (members.map Prod.fst).Nodup then some (.obj members) else none

/-- `strict_json`, and `_load_json`. -/
def strictJson (library : JsonLibrary) (bytes : Bytes) : Option Json :=
  loadsBytes library.wide (strictDecoder library) bytes

/-- The numbers of a document are the ones that their texts are read as. -/
def NumbersRead (library : JsonLibrary) (document : Json) : Prop :=
  document.All (strictDecoder library).Reads fun _ => True

section

variable {library : JsonLibrary}

theorem strictDecoder_object {members : List (Text × Json)} {j : Json}
    (h : (strictDecoder library).object members = some j) :
    j = .obj members ∧ (members.map Prod.fst).Nodup := by
  have h : (if (members.map Prod.fst).Nodup then some (Json.obj members) else none) = some j := h
  split_ifs at h with hnodup
  exact ⟨(Option.some.inj h).symm, hnodup⟩

/-- A document without a repeated key, whose numbers are read, is readable. -/
theorem readable_strictDecoder {document : Json} (hnumbers : NumbersRead library document)
    (hdistinct : document.Distinct) : document.Readable (strictDecoder library) :=
  Json.All.and (fun _ hn _ => hn) (fun _ _ hms => if_pos hms) hnumbers hdistinct

theorem distinct_canon (document : Json) : (canon document).Distinct ↔ document.Distinct := by
  apply Json.all_canon
  intro ms
  exact (canonMembers_keys_perm ms).nodup_iff

theorem numbersRead_canon (document : Json) :
    NumbersRead library (canon document) ↔ NumbersRead library document :=
  Json.all_canon (fun _ => Iff.rfl) document

theorem strictJson_distinct {bytes : Bytes} {document : Json}
    (h : strictJson library bytes = some document) : document.Distinct :=
  loadsBytes_all (fun _ _ => strictDecoder_object) h

/-- The bytes of a document are read back as that document, up to the order of its members. -/
theorem strictJson_documentBytes {document : Json} (hnumbers : NumbersRead library document)
    (hdistinct : document.Distinct) {bytes : Bytes} (h : documentBytes document = some bytes) :
    strictJson library bytes = some (canon document) := by
  obtain ⟨text, htext, hbytes⟩ := Option.bind_eq_some_iff.mp h
  unfold dumps at htext
  split_ifs at htext
  obtain rfl := Option.some.inj htext
  rw [← renderIn_compact 0] at hbytes
  exact loadsBytes_renderIn library.wide (readable_strictDecoder
    ((numbersRead_canon document).mpr hnumbers) ((distinct_canon document).mpr hdistinct)) hbytes

end

/-- The strict reader never returns an object with a repeated key. A document whose numbers are read
comes back from its bytes if and only if it has none. -/
theorem strict_json_exact (library : JsonLibrary) :
    (∀ bytes document, strictJson library bytes = some document → document.Distinct) ∧
      ∀ document bytes, documentBytes document = some bytes → NumbersRead library document →
        (strictJson library bytes = some (canon document) ↔ document.Distinct) := by
  refine ⟨fun _ _ => strictJson_distinct, fun document bytes hbytes hnumbers => ⟨fun h => ?_, ?_⟩⟩
  · exact (distinct_canon document).mp (strictJson_distinct h)
  · exact fun hdistinct => strictJson_documentBytes hnumbers hdistinct hbytes

/-! ## A finished delivery -/

theorem roundTrips_strictJson {platform : Platform} {library : JsonLibrary}
    (hplatform : platform.strictJson = strictJson library) {document : Json}
    (hnumbers : NumbersRead library document) (hdistinct : document.Distinct) :
    RoundTrips platform document := by
  intro bytes hbytes
  rw [hplatform]
  exact strictJson_documentBytes hnumbers hdistinct hbytes

/-- The files of a call are decoded by the strict reader. -/
theorem decodes_strictJson {platform : Platform} {library : JsonLibrary}
    (hplatform : platform.strictJson = strictJson library) {call : PublishCall} (name : Text)
    (hnumbers : NumbersRead library call.rowsDocument) (hdistinct : call.rowsDocument.Distinct) :
    Decodes platform call name where
  rows := roundTrips_strictJson hplatform hnumbers hdistinct
  manifest fileBytes _ := by
    refine roundTrips_strictJson hplatform ?_ ?_
    · simp [NumbersRead, PublishCall.manifestDocument, PublishCall.manifestMembers, Json.All,
        Json.AllMembers, Decoder.Reads]
    · refine ⟨?_, ?_⟩
      · show ((call.manifestMembers name _).map Prod.fst).Nodup
        rw [call.manifestMembers_keys]
        exact PublishCall.manifestKeys_nodup
      · simp [PublishCall.manifestMembers, Json.All, Json.AllMembers]

section

variable {platform : Platform} {call : PublishCall} {files : DeliveryFiles} {s s' : Files}

/-- The files that are refused did not exist when the program went on. -/
theorem outcome_refuseExisting {paths : List FilePath} {s₁ : Files}
    (h : (refuseExisting FileError.raised paths).outcome s = (.ok (), s₁)) :
    ∀ path ∈ paths, s.get? path = none := by
  induction paths with
  | nil => simp
  | cons path paths ih =>
    rw [refuseExisting, Program.outcome_bind, pathExists, Program.outcome_op] at h
    dsimp only at h
    split_ifs at h with hpresent
    · cases h
    · rw [List.forall_mem_cons]
      exact ⟨by simpa using hpresent, ih h⟩

/-- A producer that has returned has published its call. -/
theorem published_of_outcome {path : FilePath}
    (h : (publishSourceFile platform call).outcome s = (.ok path, s')) :
    ∃ files, sourceFilePaths call.path = .ok files ∧ Published platform call files s' := by
  obtain ⟨files, s₁, hpaths, hrest⟩ := Program.exists_of_outcome_bind h
  obtain ⟨hfiles, rfl⟩ := Prod.mk.inj hpaths
  refine ⟨files, hfiles, ?_⟩
  obtain ⟨_, _, hrefuse, -⟩ := Program.exists_of_outcome_bind hrest
  have hfresh : s.get? files.manifest = none :=
    outcome_refuseExisting hrefuse files.manifest (by simp)
  have hacts : (publishSourceFile platform call).Acts (Progresses platform call files)
      (fun _ s' => Published platform call files s') s := acts_publishSourceFile hfiles hfresh
  have hreturned := Program.Ensures.outcome (fun _ => rfl) hacts
  rw [h] at hreturned
  exact hreturned path rfl

theorem outcome_refuseExisting_ok {paths : List FilePath}
    (h : ∀ path ∈ paths, s.get? path = none) :
    (refuseExisting FileError.raised paths).outcome s = (.ok (), s) := by
  induction paths with
  | nil => rfl
  | cons path paths ih =>
    obtain ⟨hpath, hpaths⟩ := List.forall_mem_cons.mp h
    rw [refuseExisting, Program.outcome_bind, pathExists, Program.outcome_op]
    simpa [hpath] using ih hpaths

theorem outcome_openExclusive {path : FilePath} (h : s.get? path = none) :
    (openExclusive FileError.raised path).outcome s = (.ok (), s.set path ByteArray.empty) := by
  rw [openExclusive, Program.outcome_op, h]

theorem outcome_renameFile {source destination : FilePath} {content : Bytes}
    (h : s.get? source = some content) : (renameFile FileError.raised source destination).outcome s =
      (.ok (), (s.erase source).set destination content) := by
  rw [renameFile, Program.outcome_op, h]

theorem outcome_writePrefixes (path : FilePath) (content : Bytes) (s : Files) :
    (writePrefixes FileError.raised path (prefixes content)).outcome s =
      (.ok (), s.set path content) := by
  have hwrite : ∀ (contents : List Bytes) (s : Files),
      (writePrefixes FileError.raised path (contents ++ [content])).outcome s =
        (.ok (), s.set path content) := by
    intro contents
    induction contents with
    | nil => exact fun _ => rfl
    | cons first contents ih =>
      intro s
      rw [List.cons_append, writePrefixes, Program.outcome_bind, writeContent, Program.outcome_op]
      show (writePrefixes FileError.raised path (contents ++ [content])).outcome (s.set path first) = _
      rw [ih, PyDict.set_set]
  obtain ⟨contents, hcontents⟩ := prefixes_eq content
  rw [hcontents]
  exact hwrite contents s

/-- A producer that is left alone returns, where its files do not exist and are valid. -/
theorem outcome_publishSourceFile (hfiles : sourceFilePaths call.path = .ok files)
    (hfresh : ∀ path ∈ [files.data, files.dataPart, files.manifest, files.manifestPart],
      s.get? path = none) {fileBytes manifestBytes : Bytes}
    (h : Publishes platform call files fileBytes manifestBytes) :
    ∃ s', (publishSourceFile platform call).outcome s = (.ok files.manifest, s') := by
  obtain ⟨-, hnodup⟩ := sourceFilePaths_eq_ok hfiles
  simp only [DeliveryFiles.paths, List.nodup_cons, List.mem_cons, List.not_mem_nil, or_false, not_or,
    List.nodup_nil, and_true, not_false_eq_true] at hnodup
  obtain ⟨⟨hdp, hdm, hdmp⟩, ⟨hpm, hpmp⟩, hmmp⟩ := hnodup
  obtain ⟨manifest, hmanifest⟩ := h.valid
  have hrefuse := outcome_refuseExisting_ok hfresh
  obtain ⟨hdata, hpart, hnone, hmanifestPart⟩ : s.get? files.data = none ∧
      s.get? files.dataPart = none ∧ s.get? files.manifest = none ∧
      s.get? files.manifestPart = none := by simpa using hfresh
  have hagain : (refuseExisting FileError.raised
      [files.data, files.manifest, files.manifestPart]).outcome
        (s.set files.dataPart ByteArray.empty) = (.ok (), s.set files.dataPart ByteArray.empty) := by
    apply outcome_refuseExisting_ok
    simp [hdata, hnone, hmanifestPart, Ne.symm hdp, hpm, hpmp]
  have hrename : ((s.set files.dataPart ByteArray.empty).set files.dataPart fileBytes).get?
      files.dataPart = some fileBytes := by
    rw [PyDict.get?_set, if_pos rfl]
  simp only [publishSourceFile, hfiles, Program.outcome_bind, Program.outcome_done, hrefuse, h.rows,
    orRaise, h.manifest, hmanifest, Except.mapError, outcome_openExclusive hpart, hagain,
    outcome_writePrefixes, visit, Program.outcome_op, outcome_renameFile hrename]
  generalize hs₁ : ((s.set files.dataPart ByteArray.empty).set files.dataPart fileBytes).erase
    files.dataPart = s₁
  have hopen : (s₁.set files.data fileBytes).get? files.manifestPart = none := by
    rw [← hs₁]
    simp [hmanifestPart, hdmp]
  rw [outcome_openExclusive hopen]
  dsimp only
  generalize (s₁.set files.data fileBytes).set files.manifestPart ByteArray.empty = s₂
  have hlast : (s₂.set files.manifestPart manifestBytes).get? files.manifestPart =
      some manifestBytes := by
    rw [PyDict.get?_set, if_pos rfl]
  rw [outcome_renameFile hlast]
  exact ⟨_, rfl⟩

theorem outcome_temporaryPresent (hpart : s.get? files.dataPart = none)
    (hmanifestPart : s.get? files.manifestPart = none) :
    (temporaryPresent (φ := Empty) Empty.elim files).outcome s = (.ok false, s) := by
  simp [temporaryPresent, pathExists, hpart, hmanifestPart]

/-- The gate passes a published delivery of the supported version. -/
theorem outcome_inspectSourceFile (hfiles : sourceFilePaths call.path = .ok files)
    (hdecodes : Decodes platform call files.name) (h : Published platform call files s) :
    ∃ ready, SameRows ready.records call.records ∧
      (inspectSourceFile platform call.path).outcome s =
        (.ok (if call.schemaVersion = txt "1" then .ready ready
          else .rejected (txt "UNSUPPORTED_SCHEMA_VERSION")), s) := by
  obtain ⟨fileBytes, manifestBytes, hpublishes, hdata, hmanifest, hpart, hmanifestPart⟩ := h
  obtain ⟨manifest, hparse, hversion, hcount, hchecksum, -⟩ := hpublishes.parse hdecodes
  refine ⟨⟨files.data, files.manifest, manifest, call.rowsRead, fileBytes, manifestBytes⟩,
    call.sameRows_rowsRead, ?_⟩
  have htemporary := outcome_temporaryPresent hpart hmanifestPart
  have hrecords := hpublishes.gateRecords hdecodes hcount hchecksum
  have hgate : (gateManifest platform files manifestBytes).outcome s =
      (.ok (if call.schemaVersion = txt "1" then .ready ⟨files.data, files.manifest, manifest,
        call.rowsRead, fileBytes, manifestBytes⟩
          else .rejected (txt "UNSUPPORTED_SCHEMA_VERSION")), s) := by
    rw [gateManifest, hparse]
    dsimp only
    rw [hversion]
    by_cases hone : call.schemaVersion = txt "1"
    · rw [if_neg (not_not_intro hone), if_pos hone]
      simp only [readBytes, Program.outcome_bind, Program.outcome_op, hdata, gateContent, hrecords,
        passGate, htemporary, Bool.false_eq_true, if_false, Program.outcome_pure]
    · rw [if_pos hone, if_neg hone, Program.outcome_pure]
  simp only [inspectSourceFile, hfiles, Program.outcome_bind, Program.outcome_done, htemporary,
    pathExists, readBytes, Program.outcome_op, hmanifest, Option.isSome_some, if_true,
    Bool.false_eq_true, if_false, hgate]

/-- The source of the delivery, where the call names the source of its report. -/
def NamesSource (call : PublishCall) : Prop :=
  ∀ reportType, reportTypeOf call.reportType = some reportType →
    sourceSystemOf call.sourceSystem = some (reportSource reportType)

theorem outcome_verifyDeliveryFiles (hfiles : sourceFilePaths call.path = .ok files)
    (hinbox : call.path.root = .inbox) {fileBytes manifestBytes : Bytes}
    (hdata : s.get? files.data = some fileBytes) (hmanifest : s.get? files.manifest = some manifestBytes)
    (hpart : s.get? files.dataPart = none) (hmanifestPart : s.get? files.manifestPart = none) :
    (verifyDeliveryFiles platform call.path).outcome s =
      (((verifyDelivery platform ⟨files.name, posix call.path.parts, fileBytes, manifestBytes⟩).mapError
        FileError.delivery).map some, s) := by
  have htemporary := outcome_temporaryPresent hpart hmanifestPart
  have hinside : require (call.path.root = .inbox ∧ call.path.parts ≠ []) FileError.escapesInbox =
      .ok () := require_eq_ok.mpr ⟨hinbox, parts_ne_nil_of_sourceFilePaths hfiles⟩
  simp only [verifyDeliveryFiles, hinside, hfiles, Program.outcome_bind, Program.outcome_done,
    htemporary, pathExists, readExisting, readBytes, Program.outcome_op, hdata, hmanifest,
    Option.isSome_some, if_true, Bool.false_eq_true, if_false, Program.outcome_pure]
  cases verifyDelivery platform ⟨files.name, posix call.path.parts, fileBytes, manifestBytes⟩ with
  | ok delivery =>
    simp only [Except.mapError, Except.map, htemporary, Bool.false_eq_true, if_false,
      Program.outcome_pure]
  | error error => rfl

/-- A published delivery is verified only for the supported version and the source of its report. -/
theorem verified_only (hdecodes : Decodes platform call files.name) {fileBytes manifestBytes : Bytes}
    (hpublishes : Publishes platform call files fileBytes manifestBytes) {relativePath : Text}
    {delivery : VerifiedDelivery} (h : verifyDelivery platform
      ⟨files.name, relativePath, fileBytes, manifestBytes⟩ = .ok delivery) :
    call.schemaVersion = txt "1" ∧ NamesSource call := by
  have hfield : ∀ field label,
      (field, Json.str label) ∈ call.manifestMembers files.name (platform.sha256 fileBytes) →
      (decoded (call.manifestMembers files.name (platform.sha256 fileBytes))).field field =
        .str label := fun _ _ hmem => PublishCall.field_manifest hmem
  have hversion := hfield (txt "schema_version") call.schemaVersion
    (by simp [PublishCall.manifestMembers])
  have hreport := hfield (txt "report_type") call.reportType (by simp [PublishCall.manifestMembers])
  have hsource := hfield (txt "source_system") call.sourceSystem
    (by simp [PublishCall.manifestMembers])
  simp only [verifyDelivery, bind_eq_ok, orRaise_eq_ok, require_eq_ok] at h
  obtain ⟨_, -, json, hjson, manifest, hmanifest, -, -, -, -, -, hone, _, -, -, -, -, -, reportType,
    htype, _, -, sourceSystem, hsystem, h⟩ := h
  rw [hpublishes.strictJson_manifest hdecodes] at hjson
  obtain rfl := Option.some.inj hjson
  obtain rfl : decoded (call.manifestMembers files.name (platform.sha256 fileBytes)) = manifest :=
    Option.some.inj hmanifest
  rw [hversion] at hone
  rw [hreport] at htype
  rw [hsource] at hsystem
  split_ifs at h with hentity hequal
  refine ⟨Json.str.inj hone, fun reportType' htype' => ?_⟩
  obtain rfl : reportType = reportType' := Option.some.inj (htype.symm.trans htype')
  exact hequal ▸ hsystem

end

/-- A delivery whose producer has returned is complete: the gate passes its rows or refuses its
version, and the verification accepts it exactly when the version is the supported one and the call
names the source of its report. -/
theorem finished_delivery_accepted (platform : Platform) (library : JsonLibrary)
    (hplatform : platform.strictJson = strictJson library) (call : PublishCall) (s s' : Files)
    (path : FilePath) (hpublish : (publishSourceFile platform call).outcome s = (.ok path, s'))
    (hinbox : call.path.root = .inbox) (hnumbers : NumbersRead library call.rowsDocument)
    (hdistinct : call.rowsDocument.Distinct) :
    (∃ ready, SameRows ready.records call.records ∧
      (inspectSourceFile platform call.path).outcome s' =
        (.ok (if call.schemaVersion = txt "1" then .ready ready
          else .rejected (txt "UNSUPPORTED_SCHEMA_VERSION")), s')) ∧
    ((∃ delivery, SameRows delivery.records call.records ∧
      (verifyDeliveryFiles platform call.path).outcome s' = (.ok (some delivery), s')) ↔
        call.schemaVersion = txt "1" ∧ NamesSource call) := by
  obtain ⟨files, hfiles, hpublished⟩ := published_of_outcome hpublish
  have hdecodes := decodes_strictJson hplatform files.name hnumbers hdistinct
  refine ⟨outcome_inspectSourceFile hfiles hdecodes hpublished, ?_⟩
  obtain ⟨fileBytes, manifestBytes, hpublishes, hdata, hmanifest, hpart, hmanifestPart⟩ := hpublished
  rw [outcome_verifyDeliveryFiles hfiles hinbox hdata hmanifest hpart hmanifestPart]
  constructor
  · rintro ⟨delivery, -, hverified⟩
    cases hdelivery : verifyDelivery platform
        ⟨files.name, posix call.path.parts, fileBytes, manifestBytes⟩ with
    | ok _ => exact verified_only hdecodes hpublishes hdelivery
    | error _ =>
      rw [hdelivery] at hverified
      cases hverified
  · rintro ⟨hversion, hsource⟩
    obtain ⟨delivery, hdelivery, hrecords⟩ :=
      hpublishes.verifies hdecodes hversion hsource (posix call.path.parts)
    refine ⟨delivery, hrecords ▸ call.sameRows_rowsRead, ?_⟩
    rw [hdelivery]
    rfl

theorem manifestText_of_field {document : Payload} {field value : Text}
    (h : document.field field = .str value) (hvalue : strip value ≠ []) :
    manifestText document field = .ok value := by
  rw [manifestText, h]
  exact if_neg hvalue

namespace PublishedDay

/-- No text of the day has a fraction, and all of it is UTF-8. -/
def library : JsonLibrary where
  float _ := .infinity false
  wide _ := none

def readingPlatform : Platform := { platform with strictJson := strictJson library }

theorem rowsDocument_eq :
    call.rowsDocument = .arr [.obj [(txt "order_id", .str (txt "ORD-1"))]] := rfl

theorem numbers_read : NumbersRead library call.rowsDocument := by
  rw [rowsDocument_eq]
  simp [NumbersRead, Json.All, Json.AllItems, Json.AllMembers]

theorem rows_distinct : call.rowsDocument.Distinct := by
  rw [rowsDocument_eq]
  simp [Json.All, Json.AllItems, Json.AllMembers]

/-- The manifest of the day is valid. -/
theorem parses {manifestBytes : Bytes} (h : readingPlatform.strictJson manifestBytes =
      some (canon (call.manifestDocument files.name digest))) :
    ∃ manifest, parseManifest readingPlatform manifestBytes files.name = .ok manifest := by
  have hfield : ∀ field label, (field, Json.str label) ∈ call.manifestMembers files.name digest →
      strip label ≠ [] →
      manifestText (decoded (call.manifestMembers files.name digest)) field = .ok label :=
    fun _ _ hmem => manifestText_of_field (PublishCall.field_manifest hmem)
  have hcount : manifestRowCount (decoded (call.manifestMembers files.name digest)) = .ok 1 := by
    have hone : (decoded (call.manifestMembers files.name digest)).field (txt "row_count") =
        canon (.num (.int 1)) :=
      PublishCall.field_manifest (by simp [PublishCall.manifestMembers, call])
    rw [manifestRowCount, hone]
    rfl
  have hhex : ∀ c ∈ digest, lowercaseHex c :=
    List.all_eq_true.mp (show digest.all lowercaseHex = true by decide +kernel)
  simp only [parseManifest, bind_eq_ok, orRaise_eq_ok, require_eq_ok]
  refine ⟨_, _, h, decoded (call.manifestMembers files.name digest), rfl, _,
    hfield _ files.name (by simp [PublishCall.manifestMembers]) (by decide), _,
    hfield _ call.sourceSystem (by simp [PublishCall.manifestMembers]) (by decide), _,
    hfield _ call.reportType (by simp [PublishCall.manifestMembers]) (by decide), _,
    hfield _ call.reportDate.isoformat (by simp [PublishCall.manifestMembers]) (by decide), _,
    hfield _ call.entityType (by simp [PublishCall.manifestMembers]) (by decide), _,
    hfield _ call.schemaVersion (by simp [PublishCall.manifestMembers]) (by decide), _,
    hfield _ digest (by simp [PublishCall.manifestMembers]) (by decide), (), rfl, (), rfl, _, hcount,
    (), ⟨rfl, hhex⟩, call.reportDate, rfl, (), rfl, rfl⟩

theorem finished : ∃ s', (publishSourceFile readingPlatform call).outcome ∅ =
    (.ok files.manifest, s') := by
  have hdecodes : Decodes readingPlatform call files.name :=
    decodes_strictJson rfl files.name numbers_read rows_distinct
  obtain ⟨fileBytes, hrows⟩ : ∃ b, documentBytes call.rowsDocument = some b :=
    Option.isSome_iff_exists.mp (by decide +kernel)
  obtain ⟨manifestBytes, hmanifest⟩ :
      ∃ b, documentBytes (call.manifestDocument files.name digest) = some b :=
    Option.isSome_iff_exists.mp (by decide +kernel)
  have hparse := parses (hdecodes.manifest fileBytes hrows manifestBytes hmanifest)
  have hpublishes : Publishes readingPlatform call files fileBytes manifestBytes :=
    ⟨hrows, hmanifest, hparse⟩
  have hfiles : sourceFilePaths call.path = .ok files := rfl
  exact outcome_publishSourceFile hfiles (fun _ _ => rfl) hpublishes

theorem orders_accepted : ∃ s', (publishSourceFile readingPlatform call).outcome ∅ =
      (.ok files.manifest, s') ∧
    (∃ ready, SameRows ready.records call.records ∧
      (inspectSourceFile readingPlatform call.path).outcome s' =
        (.ok (if call.schemaVersion = txt "1" then .ready ready
          else .rejected (txt "UNSUPPORTED_SCHEMA_VERSION")), s')) ∧
    ((∃ delivery, SameRows delivery.records call.records ∧
      (verifyDeliveryFiles readingPlatform call.path).outcome s' = (.ok (some delivery), s')) ↔
        call.schemaVersion = txt "1" ∧ NamesSource call) := by
  obtain ⟨s', hfinished⟩ := finished
  exact ⟨s', hfinished, finished_delivery_accepted readingPlatform library rfl call ∅ s'
    files.manifest hfinished rfl numbers_read rows_distinct⟩

end PublishedDay

end Threadline
