import Mathlib.Data.List.Infix
import Threadline.SourceFiles

/-!
# The publication protocol

Both consumers wait until the manifest has its final name. From then on they read
the published rows, however their file operations fall between those of the
producer, and wherever the producer stops.
-/

open PyText PyJson PyCalendar PySorted PyExcept Stepwise Runs

namespace Threadline

/-! ## Four different files -/

theorem jsonStem_eq_some {name stem : Text} (h : jsonStem name = some stem) :
    name = stem ++ txt ".json" := by
  unfold jsonStem at h
  split_ifs at h with hname
  obtain ⟨⟨rest, rfl⟩, -⟩ := hname
  obtain rfl := Option.some.inj h
  have hlength : (txt ".json").length = 5 := rfl
  rw [List.length_append, hlength, Nat.add_sub_cancel, List.take_left]

def DeliveryFiles.paths (files : DeliveryFiles) : List FilePath :=
  [files.data, files.dataPart, files.manifest, files.manifestPart]

theorem sourceFilePaths_eq_ok {path : FilePath} {files : DeliveryFiles}
    (h : sourceFilePaths path = .ok files) :
    files.data = path ∧ files.paths.Nodup := by
  simp only [sourceFilePaths, bind_eq_ok, orRaise_eq_ok, require_eq_ok] at h
  obtain ⟨stem, hstem, -, -, h⟩ := h
  have hname := jsonStem_eq_some hstem
  obtain rfl := Except.ok.inj h
  refine ⟨rfl, ?_⟩
  -- The four names have four lengths.
  have hlast : (path.parts.getLast?.getD []).length = stem.length + 5 := by
    rw [hname, List.length_append]
    rfl
  refine List.Nodup.of_map (fun path : FilePath => (path.parts.getLast?.getD []).length) ?_
  have hpart : (txt ".part").length = 5 := rfl
  have hmanifest : (txt ".manifest.json").length = 14 := rfl
  simp [DeliveryFiles.paths, FilePath.withName, hlast, hpart, hmanifest]

theorem parts_ne_nil_of_sourceFilePaths {path : FilePath} {files : DeliveryFiles}
    (h : sourceFilePaths path = .ok files) : path.parts ≠ [] := by
  simp only [sourceFilePaths, bind_eq_ok, orRaise_eq_ok] at h
  obtain ⟨stem, hstem, -⟩ := h
  intro hparts
  rw [hparts] at hstem
  have hname : 0 = (stem ++ txt ".json").length := congrArg List.length (jsonStem_eq_some hstem)
  have hlength : (txt ".json").length = 5 := rfl
  rw [List.length_append, hlength] at hname
  omega

/-! ## The published bytes -/

/-- The two files that a call publishes. -/
structure Publishes (platform : Platform) (call : PublishCall) (files : DeliveryFiles)
    (fileBytes manifestBytes : Bytes) : Prop where
  rows : documentBytes call.rowsDocument = some fileBytes
  manifest : documentBytes (.obj (call.manifestMembers files.name (platform.sha256 fileBytes))) =
    some manifestBytes
  valid : ∃ manifest, parseManifest platform manifestBytes files.name = .ok manifest

/-- The delivery is complete in the inbox. -/
def Published (platform : Platform) (call : PublishCall) (files : DeliveryFiles) (s : Files) :
    Prop :=
  ∃ fileBytes manifestBytes, Publishes platform call files fileBytes manifestBytes ∧
    s.get? files.data = some fileBytes ∧ s.get? files.manifest = some manifestBytes ∧
    s.get? files.dataPart = none ∧ s.get? files.manifestPart = none

/-- What the producer can do to the inbox: the manifest comes last, and then nothing changes. -/
structure Progresses (platform : Platform) (call : PublishCall) (files : DeliveryFiles)
    (s s' : Files) : Prop where
  unpublished : s.get? files.manifest = none →
    s'.get? files.manifest = none ∨ Published platform call files s'
  published : Published platform call files s → Published platform call files s'

section

variable {platform : Platform} {call : PublishCall} {files : DeliveryFiles} {s s' : Files}

theorem Progresses.refl (s : Files) : Progresses platform call files s s := ⟨.inl, id⟩

theorem Progresses.trans {s'' : Files} (h : Progresses platform call files s s')
    (h' : Progresses platform call files s' s'') : Progresses platform call files s s'' := by
  refine ⟨fun hnone => ?_, fun hs => h'.published (h.published hs)⟩
  rcases h.unpublished hnone with hnone' | hs'
  · exact h'.unpublished hnone'
  · exact .inr (h'.published hs')

theorem Published.manifest_ne_none (h : Published platform call files s) :
    s.get? files.manifest ≠ none := by
  obtain ⟨_, _, -, -, hmanifest, -, -⟩ := h
  rw [hmanifest]
  exact Option.some_ne_none _

/-- Steps before the manifest has its name. -/
theorem progresses_of_none (h : s.get? files.manifest = none) (h' : s'.get? files.manifest = none) :
    Progresses platform call files s s' :=
  ⟨fun _ => .inl h', fun hs => absurd h hs.manifest_ne_none⟩

/-! ## The producer -/

theorem acts_refuseExisting {paths : List FilePath} {returns : Unit → Files → Prop}
    (h : (∀ path ∈ paths, s.get? path = none) → returns () s) :
    (refuseExisting FileError.raised paths).Acts (Progresses platform call files) returns s := by
  induction paths with
  | nil => exact Program.acts_pure (h (by simp))
  | cons path paths ih =>
    unfold refuseExisting pathExists
    refine Program.Acts.bind (Program.acts_op (.refl s) (.refl s) fun present hpresent => ?_)
    obtain rfl := Except.ok.inj hpresent
    split_ifs with hsome
    · apply Program.acts_done
      intro _ h
      cases h
    · have hnone : s.get? path = none := by simpa using hsome
      exact ih fun hrest => h (List.forall_mem_cons.mpr ⟨hnone, hrest⟩)

theorem acts_visit {returns : Unit → Files → Prop} (h : returns () s) :
    (visit FileError.raised).Acts (Progresses platform call files) returns s :=
  Program.acts_op (.refl s) (.refl s) fun _ _ => h

theorem acts_openExclusive {path : FilePath} {returns : Unit → Files → Prop}
    (hpath : path ≠ files.manifest) (hnone : s.get? files.manifest = none)
    (h : returns () (s.set path ByteArray.empty)) :
    (openExclusive FileError.raised path).Acts (Progresses platform call files) returns s := by
  unfold openExclusive
  cases hpresent : s.get? path with
  | some content =>
    refine Program.acts_op (.refl s) (by simpa only [hpresent] using .refl s) fun _ hopened => ?_
    rw [hpresent] at hopened
    cases hopened
  | none =>
    have hopened : (s.set path ByteArray.empty).get? files.manifest = none := by
      rw [PyDict.get?_set, if_neg hpath, hnone]
    refine Program.acts_op (.refl s)
      (by simpa only [hpresent] using progresses_of_none hnone hopened) fun _ _ => ?_
    simpa only [hpresent] using h

theorem acts_renameFile {source destination : FilePath} {content : Bytes}
    {returns : Unit → Files → Prop} (hcontent : s.get? source = some content)
    (hprogress : Progresses platform call files s ((s.erase source).set destination content))
    (h : returns () ((s.erase source).set destination content)) :
    (renameFile FileError.raised source destination).Acts (Progresses platform call files)
      returns s := by
  unfold renameFile
  refine Program.acts_op (.refl s) (by simpa only [hcontent] using hprogress) fun _ _ => ?_
  simpa only [hcontent] using h

theorem acts_writePrefixes {path : FilePath} {contents : List Bytes} {content : Bytes}
    {returns : Unit → Files → Prop} (hpath : path ≠ files.manifest)
    (hnone : s.get? files.manifest = none) (h : returns () (s.set path content)) :
    (writePrefixes FileError.raised path (contents ++ [content])).Acts
      (Progresses platform call files) returns s := by
  have hwrite : ∀ (s : Files) (found : Bytes), s.get? files.manifest = none →
      (s.set path found).get? files.manifest = none := by
    intro s found hnone
    rw [PyDict.get?_set, if_neg hpath, hnone]
  induction contents generalizing s with
  | nil =>
    unfold writePrefixes writeContent
    refine Program.Acts.bind (Program.acts_op (.refl s)
      (progresses_of_none hnone (hwrite s content hnone)) fun _ _ => ?_)
    exact Program.acts_pure h
  | cons first contents ih =>
    rw [List.cons_append, writePrefixes, writeContent]
    refine Program.Acts.bind (Program.acts_op (.refl s)
      (progresses_of_none hnone (hwrite s first hnone)) fun _ _ => ?_)
    refine ih (hwrite s first hnone) ?_
    rwa [PyDict.set_set]

theorem prefixes_eq (content : Bytes) : ∃ contents, prefixes content = contents ++ [content] := by
  unfold prefixes
  rw [List.range_succ, List.map_append, List.map_singleton, ByteArray.extract_zero_size]
  exact ⟨_, rfl⟩

/-- The producer only ever makes progress. -/
theorem acts_publishSourceFile (hfiles : sourceFilePaths call.path = .ok files)
    (hfresh : s.get? files.manifest = none) :
    (publishSourceFile platform call).Acts (Progresses platform call files)
      (fun _ s' => Published platform call files s') s := by
  obtain ⟨-, hnodup⟩ := sourceFilePaths_eq_ok hfiles
  simp only [DeliveryFiles.paths, List.nodup_cons, List.mem_cons, List.not_mem_nil, or_false, not_or,
    List.nodup_nil, and_true, not_false_eq_true] at hnodup
  obtain ⟨⟨hdp, hdm, hdmp⟩, ⟨hpm, hpmp⟩, hmmp⟩ := hnodup
  unfold publishSourceFile
  rw [hfiles]
  refine Program.Acts.bind (Program.acts_pure ?_)
  refine Program.Acts.bind (acts_refuseExisting fun habsent => ?_)
  simp only [List.forall_mem_cons, List.not_mem_nil, false_implies, implies_true, and_true] at habsent
  obtain ⟨hdata, hdataPart, -, hmanifestPart⟩ := habsent
  refine Program.Acts.bind (Program.acts_done fun fileBytes hfileBytes => ?_)
  refine Program.Acts.bind (Program.acts_done fun manifestBytes hmanifestBytes => ?_)
  refine Program.Acts.bind (Program.acts_done fun manifest hmanifest => ?_)
  have hpublishes : Publishes platform call files fileBytes manifestBytes :=
    ⟨orRaise_eq_ok.mp hfileBytes, orRaise_eq_ok.mp hmanifestBytes, manifest,
      mapError_eq_ok.mp hmanifest⟩
  obtain ⟨contents, hcontents⟩ := prefixes_eq fileBytes
  obtain ⟨contents', hcontents'⟩ := prefixes_eq manifestBytes
  rw [hcontents, hcontents']
  -- Up to the renaming of the manifest, no step touches its final name.
  refine Program.Acts.bind (acts_openExclusive hpm hfresh ?_)
  refine Program.Acts.bind (acts_refuseExisting fun _ => ?_)
  have hopened : (s.set files.dataPart ByteArray.empty).get? files.manifest = none := by
    rw [PyDict.get?_set, if_neg hpm, hfresh]
  refine Program.Acts.bind (acts_writePrefixes hpm hopened ?_)
  rw [PyDict.set_set]
  refine Program.Acts.bind (acts_visit (Program.Acts.bind (acts_visit ?_)))
  have hwritten : (s.set files.dataPart fileBytes).get? files.dataPart = some fileBytes := by
    rw [PyDict.get?_set, if_pos rfl]
  have hrenamed : ∀ path, (((s.set files.dataPart fileBytes).erase files.dataPart).set files.data
      fileBytes).get? path = if path = files.data then some fileBytes else
        if path = files.dataPart then none else s.get? path := by
    intro path
    rw [PyDict.get?_set, PyDict.get?_erase, PyDict.get?_set]
    split_ifs <;> grind
  have hnone : (((s.set files.dataPart fileBytes).erase files.dataPart).set files.data
      fileBytes).get? files.manifest = none := by
    rw [hrenamed, if_neg (Ne.symm hdm), if_neg (Ne.symm hpm), hfresh]
  refine Program.Acts.bind (acts_renameFile hwritten (progresses_of_none ?_ hnone) ?_)
  · rw [PyDict.get?_set, if_neg hpm, hfresh]
  refine Program.Acts.bind (acts_visit (Program.Acts.bind (acts_visit ?_)))
  generalize ((s.set files.dataPart fileBytes).erase files.dataPart).set files.data fileBytes = s'
    at hrenamed hnone ⊢
  refine Program.Acts.bind (acts_openExclusive (Ne.symm hmmp) hnone ?_)
  have hopened' : (s'.set files.manifestPart ByteArray.empty).get? files.manifest = none := by
    rw [PyDict.get?_set, if_neg (Ne.symm hmmp), hnone]
  refine Program.Acts.bind (acts_writePrefixes (Ne.symm hmmp) hopened' ?_)
  rw [PyDict.set_set]
  refine Program.Acts.bind (acts_visit (Program.Acts.bind (acts_visit ?_)))
  have hwritten' : (s'.set files.manifestPart manifestBytes).get? files.manifestPart =
      some manifestBytes := by
    rw [PyDict.get?_set, if_pos rfl]
  have hpublished : Published platform call files
      (((s'.set files.manifestPart manifestBytes).erase files.manifestPart).set files.manifest
        manifestBytes) := by
    refine ⟨fileBytes, manifestBytes, hpublishes, ?_, ?_, ?_, ?_⟩
    · rw [PyDict.get?_set, if_neg (Ne.symm hdm), PyDict.get?_erase, if_neg (Ne.symm hdmp),
        PyDict.get?_set, if_neg (Ne.symm hdmp), hrenamed, if_pos rfl]
    · rw [PyDict.get?_set, if_pos rfl]
    · rw [PyDict.get?_set, if_neg (Ne.symm hpm), PyDict.get?_erase, if_neg (Ne.symm hpmp),
        PyDict.get?_set, if_neg (Ne.symm hpmp), hrenamed, if_neg (Ne.symm hdp), if_pos rfl]
    · rw [PyDict.get?_set, if_neg hmmp, PyDict.get?_erase, if_pos rfl]
  refine Program.Acts.bind (acts_renameFile hwritten' ⟨fun _ => .inr hpublished,
    fun _ => hpublished⟩ ?_)
  refine Program.Acts.bind (acts_visit (Program.Acts.bind (acts_visit ?_)))
  exact Program.acts_pure hpublished

end

/-! ## What a reader decodes -/

/-- The bytes of a document are read back as that document, up to the order of its members. -/
def RoundTrips (platform : Platform) (document : Json) : Prop :=
  ∀ bytes, documentBytes document = some bytes → platform.strictJson bytes = some (canon document)

/-- The dictionary that is read back from an object. -/
def decoded (members : List (Text × Json)) : Payload :=
  PyDict.ofPairs (sortedBy Prod.fst (canonMembers members))

def rowDocument (row : Payload) : Json := .obj row.items

/-- The same rows, up to the order of members. -/
def SameRows (rows rows' : List Payload) : Prop :=
  rows.map (fun row => canon (rowDocument row)) = rows'.map (fun row => canon (rowDocument row))

theorem canonMembers_keys_perm (members : List (Text × Json)) :
    ((sortedBy Prod.fst (canonMembers members)).map Prod.fst).Perm (members.map Prod.fst) := by
  have hkeys : (canonMembers members).map Prod.fst = members.map Prod.fst := by
    rw [canonMembers_eq_map, List.map_map]
    rfl
  rw [← hkeys]
  exact (sortedBy_perm _ _).map _

theorem canon_decoded (row : Payload) :
    canon (rowDocument (decoded row.items)) = canon (rowDocument row) := by
  have hnodup := (canonMembers_keys_perm row.items).nodup_iff.mpr row.keys_nodup
  have hitems : (decoded row.items).items = sortedBy Prod.fst (canonMembers row.items) :=
    PyDict.items_ofPairs hnodup
  have hcanon : canon (.obj row.items) = .obj (sortedBy Prod.fst (canonMembers row.items)) := by
    rw [canon]
  rw [rowDocument, rowDocument, hitems, ← hcanon, canon_canon]

theorem get?_decoded {members : List (Text × Json)} (hnodup : (members.map Prod.fst).Nodup)
    {key : Text} {value : Json} (h : (key, value) ∈ members) :
    (decoded members).get? key = some (canon value) := by
  refine (PyDict.get?_ofPairs_iff ((canonMembers_keys_perm members).nodup_iff.mpr hnodup)).mpr ?_
  rw [mem_sortedBy, canonMembers_eq_map]
  exact List.mem_map.mpr ⟨_, h, rfl⟩

theorem mem_keys_decoded {members : List (Text × Json)} (hnodup : (members.map Prod.fst).Nodup)
    {key : Text} : key ∈ (decoded members).keys ↔ key ∈ members.map Prod.fst := by
  have hkeys := canonMembers_keys_perm members
  rw [decoded, PyDict.keys, PyDict.items_ofPairs (hkeys.nodup_iff.mpr hnodup)]
  exact hkeys.mem_iff

namespace PublishCall

variable (call : PublishCall) (name checksum : Text)

def manifestDocument : Json := .obj (call.manifestMembers name checksum)

/-- The rows as they are read back. -/
def rowsRead : List Payload := call.records.map fun record => decoded record.items

theorem sameRows_rowsRead : SameRows call.rowsRead call.records := by
  unfold SameRows rowsRead
  rw [List.map_map]
  exact List.map_congr_left fun row _ => canon_decoded row

theorem objectRows_rowsDocument : objectRows (canon call.rowsDocument) = some call.rowsRead := by
  have hcanon : canon call.rowsDocument = .arr (call.records.map fun record =>
      .obj (sortedBy Prod.fst (canonMembers record.items))) := by
    rw [rowsDocument, canon, canonItems_eq_map, List.map_map]
    refine congrArg Json.arr (List.map_congr_left fun record _ => ?_)
    rw [Function.comp_apply, canon]
  rw [hcanon]
  show List.mapM _ _ = _
  rw [rowsRead, List.mapM_map]
  exact List.mapM_pure

theorem manifestMembers_keys : (call.manifestMembers name checksum).map Prod.fst = manifestKeys :=
  rfl

theorem manifestKeys_nodup : manifestKeys.Nodup := by decide +kernel

variable {call name checksum}

/-- A field of the manifest that is read back. -/
theorem field_manifest {field : Text} {value : Json}
    (h : (field, value) ∈ call.manifestMembers name checksum) :
    (decoded (call.manifestMembers name checksum)).field field = canon value := by
  have hget := get?_decoded (call.manifestMembers_keys name checksum ▸ manifestKeys_nodup) h
  rw [Payload.field, PyDict.getD, hget, Option.getD_some]

end PublishCall

/-! ## What the consumers read -/

theorem manifestText_eq_ok {document : Payload} {field value : Text}
    (h : manifestText document field = .ok value) : document.field field = .str value := by
  unfold manifestText at h
  split at h
  · next found hfound =>
    split_ifs at h
    rw [hfound, Except.ok.inj h]
  · cases h

theorem manifestRowCount_eq_ok {document : Payload} {rowCount : ℤ}
    (h : manifestRowCount document = .ok rowCount) :
    document.field (txt "row_count") = .num (.int rowCount) := by
  unfold manifestRowCount at h
  split at h
  · next found hfound =>
    split_ifs at h
    rw [hfound, Except.ok.inj h]
  · cases h

/-- The fields of a manifest that has been parsed. -/
structure Parses (platform : Platform) (document : Payload) (manifest : SourceFileManifest) :
    Prop where
  schemaVersion : document.field (txt "schema_version") = .str manifest.schemaVersion
  rowCount : document.field (txt "row_count") = .num (.int manifest.rowCount)
  checksum : document.field (txt "checksum_sha256") = .str manifest.checksumSha256
  reportType : document.field (txt "report_type") = .str manifest.reportType
  entityType : document.field (txt "entity_type") = .str manifest.entityType
  entity : reportEntityNamed manifest.reportType = some manifest.entityType
  reportDate : document.field (txt "report_date") = .str manifest.reportDate.isoformat
  date : platform.iso.date manifest.reportDate.isoformat = some manifest.reportDate

theorem parseManifest_eq_ok {platform : Platform} {content : Bytes} {name : Text}
    {manifest : SourceFileManifest} (h : parseManifest platform content name = .ok manifest) :
    ∃ members, platform.strictJson content = some (.obj members) ∧
      Parses platform (PyDict.ofPairs members) manifest := by
  simp only [parseManifest, bind_eq_ok, orRaise_eq_ok, require_eq_ok] at h
  obtain ⟨json, hjson, document, hdocument, filename, -, sourceSystem, -, reportType, htype,
    reportDay, hday, entityType, hentity, schemaVersion, hversion, checksum, hchecksum, -, -, -,
    hreport, rowCount, hcount, -, -, reportDate, hdate, -, hiso, h⟩ := h
  obtain rfl := Except.ok.inj h
  cases json with
  | obj members =>
    obtain rfl := Option.some.inj hdocument
    refine ⟨members, hjson, ?_⟩
    exact {
      schemaVersion := manifestText_eq_ok hversion
      rowCount := manifestRowCount_eq_ok hcount
      checksum := manifestText_eq_ok hchecksum
      reportType := manifestText_eq_ok htype
      entityType := manifestText_eq_ok hentity
      entity := hreport
      reportDate := by
        show _ = Json.str reportDate.isoformat
        rw [manifestText_eq_ok hday, hiso]
      date := by
        show platform.iso.date reportDate.isoformat = _
        rw [hiso, hdate]
    }
  | _ => cases hdocument

/-- The two files of a call are read back as they were meant. -/
structure Decodes (platform : Platform) (call : PublishCall) (name : Text) : Prop where
  rows : RoundTrips platform call.rowsDocument
  manifest : ∀ fileBytes, documentBytes call.rowsDocument = some fileBytes →
    RoundTrips platform (call.manifestDocument name (platform.sha256 fileBytes))

section

variable {platform : Platform} {call : PublishCall} {files : DeliveryFiles}
  {fileBytes manifestBytes : Bytes}

theorem Publishes.strictJson_rows (h : Publishes platform call files fileBytes manifestBytes)
    (hdecodes : Decodes platform call files.name) :
    platform.strictJson fileBytes = some (canon call.rowsDocument) :=
  hdecodes.rows fileBytes h.rows

theorem Publishes.strictJson_manifest (h : Publishes platform call files fileBytes manifestBytes)
    (hdecodes : Decodes platform call files.name) :
    platform.strictJson manifestBytes = some (.obj (sortedBy Prod.fst
      (canonMembers (call.manifestMembers files.name (platform.sha256 fileBytes))))) := by
  rw [hdecodes.manifest fileBytes h.rows manifestBytes h.manifest, PublishCall.manifestDocument,
    canon]

/-- The manifest says what the call says. -/
theorem Publishes.parse (h : Publishes platform call files fileBytes manifestBytes)
    (hdecodes : Decodes platform call files.name) : ∃ manifest,
    parseManifest platform manifestBytes files.name = .ok manifest ∧
      manifest.schemaVersion = call.schemaVersion ∧ manifest.rowCount = call.records.length ∧
      manifest.checksumSha256 = platform.sha256 fileBytes ∧
      reportEntityNamed call.reportType = some call.entityType ∧
      manifest.reportDate.isoformat = call.reportDate.isoformat ∧
      platform.iso.date call.reportDate.isoformat = some manifest.reportDate := by
  obtain ⟨manifest, hmanifest⟩ := h.valid
  obtain ⟨members, hmembers, hparses⟩ := parseManifest_eq_ok hmanifest
  rw [h.strictJson_manifest hdecodes] at hmembers
  obtain rfl := Json.obj.inj (Option.some.inj hmembers)
  have hparses : Parses platform (decoded
    (call.manifestMembers files.name (platform.sha256 fileBytes))) manifest := hparses
  have hfield : ∀ field value,
      (field, value) ∈ call.manifestMembers files.name (platform.sha256 fileBytes) →
      (decoded (call.manifestMembers files.name (platform.sha256 fileBytes))).field field =
        canon value := fun _ _ hmem => PublishCall.field_manifest hmem
  have hversion := hparses.schemaVersion.symm.trans
    (hfield _ (.str call.schemaVersion) (by simp [PublishCall.manifestMembers]))
  have hcount := hparses.rowCount.symm.trans
    (hfield _ (.num (.int call.records.length)) (by simp [PublishCall.manifestMembers]))
  have hchecksum := hparses.checksum.symm.trans
    (hfield _ (.str (platform.sha256 fileBytes)) (by simp [PublishCall.manifestMembers]))
  have htype := hparses.reportType.symm.trans
    (hfield _ (.str call.reportType) (by simp [PublishCall.manifestMembers]))
  have hentity := hparses.entityType.symm.trans
    (hfield _ (.str call.entityType) (by simp [PublishCall.manifestMembers]))
  have hdate := hparses.reportDate.symm.trans
    (hfield _ (.str call.reportDate.isoformat) (by simp [PublishCall.manifestMembers]))
  have hiso : manifest.reportDate.isoformat = call.reportDate.isoformat := Json.str.inj hdate
  refine ⟨manifest, hmanifest, Json.str.inj hversion, Number.int.inj (Json.num.inj hcount),
    Json.str.inj hchecksum, ?_, hiso, ?_⟩
  · rw [← Json.str.inj htype, ← Json.str.inj hentity]
    exact hparses.entity
  · rw [← hiso]
    exact hparses.date

theorem length_rowsRead (call : PublishCall) : call.rowsRead.length = call.records.length :=
  List.length_map _

theorem Publishes.gateRecords (h : Publishes platform call files fileBytes manifestBytes)
    (hdecodes : Decodes platform call files.name) {manifest : SourceFileManifest}
    (hcount : manifest.rowCount = call.records.length)
    (hchecksum : manifest.checksumSha256 = platform.sha256 fileBytes) :
    gateRecords platform manifest fileBytes = .ok call.rowsRead := by
  simp only [Threadline.gateRecords, bind_eq_ok, orRaise_eq_ok, require_eq_ok]
  refine ⟨(), hchecksum.symm, _, h.strictJson_rows hdecodes, _, call.objectRows_rowsDocument, (),
    ?_, rfl⟩
  rw [length_rowsRead, hcount]

theorem reportTypeOf_of_entityNamed {label entity : Text}
    (h : reportEntityNamed label = some entity) : ∃ reportType,
      reportTypeOf label = some reportType ∧
      entityTypeOf entity = some (reportEntity reportType) := by
  obtain ⟨reportType, hfind, rfl⟩ := Option.map_eq_some_iff.mp h
  refine ⟨reportType, ?_, entityTypeOf_eq_some.mpr rfl⟩
  rw [reportTypeOf, enumMember, hfind, Option.some_or]

/-- The delivery that is accepted holds the rows of the call. -/
theorem Publishes.verifies (h : Publishes platform call files fileBytes manifestBytes)
    (hdecodes : Decodes platform call files.name) (hversion : call.schemaVersion = txt "1")
    (hsource : ∀ reportType, reportTypeOf call.reportType = some reportType →
      sourceSystemOf call.sourceSystem = some (reportSource reportType)) (relativePath : Text) :
    ∃ delivery, verifyDelivery platform ⟨files.name, relativePath, fileBytes, manifestBytes⟩ =
      .ok delivery ∧ delivery.records = call.rowsRead := by
  obtain ⟨manifest, -, -, -, -, hentity, hiso, hdate⟩ := h.parse hdecodes
  obtain ⟨reportType, htype, hentityType⟩ := reportTypeOf_of_entityNamed hentity
  have hfield : ∀ field value,
      (field, value) ∈ call.manifestMembers files.name (platform.sha256 fileBytes) →
      (decoded (call.manifestMembers files.name (platform.sha256 fileBytes))).field field =
        canon value := fun _ _ hmem => PublishCall.field_manifest hmem
  have hkeys : sortedSet (decoded (call.manifestMembers files.name
      (platform.sha256 fileBytes))).keys = sortedSet manifestKeys := by
    refine sortedSet_eq_of_mem fun key => ?_
    rw [mem_keys_decoded (call.manifestMembers_keys .. ▸ PublishCall.manifestKeys_nodup),
      call.manifestMembers_keys]
  have hmember : ∀ {α : Type} {of : Text → Option α} (field label : Text),
      (field, Json.str label) ∈ call.manifestMembers files.name (platform.sha256 fileBytes) →
      memberOf of ((decoded (call.manifestMembers files.name (platform.sha256 fileBytes))).field
        field) = of label := by
    intro α of field label hmem
    rw [hfield _ _ hmem]
    rfl
  refine ⟨⟨⟨files.name, relativePath, fileBytes, manifestBytes⟩, reportSource reportType, reportType,
    manifest.reportDate, reportEntity reportType, call.rowsRead, rfl, rfl⟩, ?_, rfl⟩
  simp only [verifyDelivery, bind_eq_ok, orRaise_eq_ok, require_eq_ok]
  refine ⟨_, h.strictJson_rows hdecodes, _, h.strictJson_manifest hdecodes, _, rfl, (), hkeys, (),
    hfield _ (.str files.name) (by simp [PublishCall.manifestMembers]), (), ?_, _,
    call.objectRows_rowsDocument, (), ?_, (),
    hfield _ (.str (platform.sha256 fileBytes)) (by simp [PublishCall.manifestMembers]),
    reportType, ?_, reportEntity reportType, ?_, reportSource reportType, ?_, ?_⟩
  · rw [← hversion]
    exact hfield _ (.str call.schemaVersion) (by simp [PublishCall.manifestMembers])
  · rw [length_rowsRead]
    exact hfield _ (.num (.int call.records.length)) (by simp [PublishCall.manifestMembers])
  · rw [← htype]
    exact hmember _ call.reportType (by simp [PublishCall.manifestMembers])
  · rw [← hentityType]
    exact hmember _ call.entityType (by simp [PublishCall.manifestMembers])
  · rw [← hsource reportType htype]
    exact hmember _ call.sourceSystem (by simp [PublishCall.manifestMembers])
  · rw [dif_pos rfl, dif_pos rfl]
    simp only [bind_eq_ok, orRaise_eq_ok, require_eq_ok]
    refine ⟨manifest.reportDate, ?_, (), ?_, rfl⟩
    · rw [← hdate]
      exact hmember _ call.reportDate.isoformat (by simp [PublishCall.manifestMembers])
    · rw [hiso]
      exact hfield _ (.str call.reportDate.isoformat) (by simp [PublishCall.manifestMembers])

end

/-! ## The consumers -/

section

variable {platform : Platform} {call : PublishCall} {files : DeliveryFiles} {s s' : Files}

/-- A manifest that was not there is published. -/
theorem Progresses.published_of_ne_none (h : Progresses platform call files s s')
    (hnone : s.get? files.manifest = none) (hpresent : s'.get? files.manifest ≠ none) :
    Published platform call files s' :=
  (h.unpublished hnone).resolve_left hpresent

theorem Published.content (h : Published platform call files s)
    (h' : Published platform call files s') :
    s'.get? files.data = s.get? files.data ∧ s'.get? files.manifest = s.get? files.manifest := by
  obtain ⟨fileBytes, manifestBytes, hpublishes, hdata, hmanifest, -, -⟩ := h
  obtain ⟨fileBytes', manifestBytes', hpublishes', hdata', hmanifest', -, -⟩ := h'
  obtain rfl : fileBytes = fileBytes' :=
    Option.some.inj (hpublishes.rows.symm.trans hpublishes'.rows)
  obtain rfl : manifestBytes = manifestBytes' :=
    Option.some.inj (hpublishes.manifest.symm.trans hpublishes'.manifest)
  rw [hdata, hdata', hmanifest, hmanifest']
  exact ⟨rfl, rfl⟩

variable {β : Type} {post : Except FileError β → Files → Prop}

theorem ensures_pathExists {path : FilePath} {post : Except FileError Bool → Files → Prop}
    (h : ∀ b s', Progresses platform call files s s' → post (.ok b) s') :
    (pathExists Empty.elim path).Ensures (Progresses platform call files) (fun s s' => s' = s)
      post s := by
  refine Program.ensures_op fun s' hs' => ⟨⟨rfl, fun e => e.elim⟩, rfl, fun s'' hs'' => ?_⟩
  exact h _ s'' (hs'.trans hs'')

theorem ensures_temporaryPresent {g : Bool → Program Files Empty FileError β}
    (h : ∀ b s', Progresses platform call files s s' →
      (g b).Ensures (Progresses platform call files) (fun s s' => s' = s) post s') :
    (temporaryPresent Empty.elim files >>= g).Ensures (Progresses platform call files)
      (fun s s' => s' = s) post s := by
  refine Program.Ensures.bind Progresses.refl ?_
  unfold temporaryPresent pathExists
  refine Program.ensures_observe (fun _ => rfl) fun s' hs' => ?_
  split_ifs
  · exact fun s'' hs'' => h true s'' (hs'.trans hs'')
  · exact ensures_pathExists fun b s'' hs'' => h b s'' (hs'.trans hs'')

theorem ensures_pure {a : β} (h : ∀ s', Progresses platform call files s s' → post (.ok a) s') :
    (pure a : Program Files Empty FileError β).Ensures (Progresses platform call files)
      (fun s s' => s' = s) post s := h

/-- What the gate may answer. -/
def GateSafe (platform : Platform) (call : PublishCall) (files : DeliveryFiles)
    (result : Except FileError FileGateResult) (s : Files) : Prop :=
  match result with
  | .ok (.waiting _) => True
  | .ok (.ready ready) => Published platform call files s ∧ SameRows ready.records call.records
  | .ok (.rejected _) => False
  | .error _ => False

theorem ensures_passGate {ready : ReadySourceFile} (hs : Published platform call files s)
    (hready : SameRows ready.records call.records) :
    (passGate files ready).Ensures (Progresses platform call files) (fun s s' => s' = s)
      (GateSafe platform call files) s := by
  refine ensures_temporaryPresent fun b s' hs' => ?_
  cases b with
  | true => exact ensures_pure fun _ _ => trivial
  | false => exact ensures_pure fun s'' hs'' => ⟨hs''.published (hs'.published hs), hready⟩

theorem ensures_gateManifest (hdecodes : Decodes platform call files.name)
    (hversion : call.schemaVersion = txt "1") (hs : Published platform call files s)
    {manifestBytes : Bytes} (hmanifest : s.get? files.manifest = some manifestBytes) :
    (gateManifest platform files manifestBytes).Ensures (Progresses platform call files)
      (fun s s' => s' = s) (GateSafe platform call files) s := by
  obtain ⟨fileBytes, manifestBytes', hpublishes, hdata, hmanifest', -, -⟩ := id hs
  obtain rfl : manifestBytes' = manifestBytes := Option.some.inj (hmanifest'.symm.trans hmanifest)
  obtain ⟨manifest, hparse, hschema, hcount, hchecksum, -⟩ := hpublishes.parse hdecodes
  unfold gateManifest
  rw [hparse]
  dsimp only
  rw [if_neg (not_not_intro (hschema.trans hversion))]
  refine Program.ensures_observe (fun _ => rfl) fun s' hs' => ?_
  have hs'' := hs'.published hs
  rw [(hs.content hs'').1, hdata]
  show (gateContent platform files manifest manifestBytes' fileBytes).Ensures _ _ _ _
  unfold gateContent
  rw [hpublishes.gateRecords hdecodes hcount hchecksum]
  exact ensures_passGate hs'' call.sameRows_rowsRead

/-- The gate waits, or it passes the published rows. -/
theorem ensures_inspectSourceFile (hfiles : sourceFilePaths call.path = .ok files)
    (hdecodes : Decodes platform call files.name) (hversion : call.schemaVersion = txt "1")
    (hfresh : s.get? files.manifest = none) :
    (inspectSourceFile platform call.path).Ensures (Progresses platform call files)
      (fun s s' => s' = s) (GateSafe platform call files) s := by
  unfold inspectSourceFile
  rw [hfiles]
  refine Program.Ensures.bind Progresses.refl fun s hs => ?_
  refine ensures_temporaryPresent fun b s₁ hs₁ => ?_
  cases b with
  | true => exact ensures_pure fun _ _ => trivial
  | false =>
    refine Program.ensures_observe (fun _ => rfl) fun s₂ hs₂ => ?_
    split_ifs with hcomplete
    · have hpublished : Published platform call files s₂ :=
        (hs.trans (hs₁.trans hs₂)).published_of_ne_none hfresh (by
          rwa [← Option.isSome_iff_ne_none])
      refine Program.ensures_observe (fun _ => rfl) fun s₃ hs₃ => ?_
      obtain ⟨_, manifestBytes, -, -, hmanifest, -, -⟩ := hs₃.published hpublished
      rw [hmanifest]
      exact ensures_gateManifest hdecodes hversion (hs₃.published hpublished) hmanifest
    · exact ensures_pure fun _ _ => trivial

/-- What the verification may answer. -/
def VerificationSafe (platform : Platform) (call : PublishCall) (files : DeliveryFiles)
    (result : Except FileError (Option VerifiedDelivery)) (s : Files) : Prop :=
  match result with
  | .ok none => True
  | .ok (some delivery) =>
    Published platform call files s ∧ SameRows delivery.records call.records
  | .error _ => False

theorem ensures_readExisting {path : FilePath} {content : Bytes}
    {g : Bytes → Program Files Empty FileError β}
    (hcontent : ∀ s', Progresses platform call files s s' → s'.get? path = some content)
    (h : ∀ s', Progresses platform call files s s' →
      (g content).Ensures (Progresses platform call files) (fun s s' => s' = s) post s') :
    (readExisting path >>= g).Ensures (Progresses platform call files) (fun s s' => s' = s)
      post s := by
  refine Program.Ensures.bind Progresses.refl ?_
  unfold readExisting
  refine Program.ensures_observe (fun _ => rfl) fun s' hs' => ?_
  rw [hcontent s' hs']
  exact fun s'' hs'' => h s'' (hs'.trans hs'')

/-- The verification finds an unfinished delivery, or it returns the published rows. -/
theorem ensures_verifyDeliveryFiles (hfiles : sourceFilePaths call.path = .ok files)
    (hinbox : call.path.root = .inbox) (hdecodes : Decodes platform call files.name)
    (hversion : call.schemaVersion = txt "1")
    (hsource : ∀ reportType, reportTypeOf call.reportType = some reportType →
      sourceSystemOf call.sourceSystem = some (reportSource reportType))
    (hfresh : s.get? files.manifest = none) :
    (verifyDeliveryFiles platform call.path).Ensures (Progresses platform call files)
      (fun s s' => s' = s) (VerificationSafe platform call files) s := by
  unfold verifyDeliveryFiles
  rw [hfiles, require, if_pos ⟨hinbox, parts_ne_nil_of_sourceFilePaths hfiles⟩]
  refine Program.Ensures.bind Progresses.refl fun s hs => ?_
  refine Program.Ensures.bind Progresses.refl fun s' hs' => ?_
  have hs := hs.trans hs'
  refine ensures_temporaryPresent fun b s₁ hs₁ => ?_
  cases b with
  | true => exact ensures_pure fun _ _ => trivial
  | false =>
    refine Program.ensures_observe (fun _ => rfl) fun s₂ hs₂ => ?_
    split_ifs with hdata
    swap
    · exact ensures_pure fun _ _ => trivial
    refine Program.ensures_observe (fun _ => rfl) fun s₃ hs₃ => ?_
    split_ifs with hcomplete
    swap
    · exact ensures_pure fun _ _ => trivial
    -- From here on the delivery is published.
    have hpublished : Published platform call files s₃ :=
      (hs.trans (hs₁.trans (hs₂.trans hs₃))).published_of_ne_none hfresh (by
        rwa [← Option.isSome_iff_ne_none])
    obtain ⟨fileBytes, manifestBytes, hpublishes, hfile, hmanifest, -, -⟩ := id hpublished
    have hreadData : ∀ s', Progresses platform call files s₃ s' →
        s'.get? files.data = some fileBytes := by
      intro s' hs'
      rw [(hpublished.content (hs'.published hpublished)).1, hfile]
    refine ensures_readExisting hreadData fun s₄ hs₄ => ?_
    have hreadManifest : ∀ s', Progresses platform call files s₄ s' →
        s'.get? files.manifest = some manifestBytes := by
      intro s' hs'
      rw [(hpublished.content ((hs₄.trans hs').published hpublished)).2, hmanifest]
    refine ensures_readExisting hreadManifest fun s₅ hs₅ => ?_
    obtain ⟨delivery, hdelivery, hrecords⟩ :=
      hpublishes.verifies hdecodes hversion hsource (posix call.path.parts)
    rw [hdelivery]
    refine Program.Ensures.bind Progresses.refl fun s₆ hs₆ => ?_
    refine ensures_temporaryPresent fun b s₇ hs₇ => ?_
    cases b with
    | true => exact ensures_pure fun _ _ => trivial
    | false =>
      refine ensures_pure fun s₈ hs₈ => ⟨?_, hrecords ▸ call.sameRows_rowsRead⟩
      exact ((hs₄.trans (hs₅.trans (hs₆.trans (hs₇.trans hs₈)))).published hpublished)

end

/-! ## The protocol -/

section

variable {platform : Platform} {call : PublishCall} {files : DeliveryFiles} {s : Files}
  {α : Type} {consumer : Program Files Empty FileError α}
  {post : Except FileError α → Files → Prop}

/-- A consumer that relies on progress only is right however it meets the producer. -/
theorem ensures_of_producer (hfiles : sourceFilePaths call.path = .ok files)
    (hfresh : s.get? files.manifest = none)
    (hconsumer : consumer.Ensures (Progresses platform call files) (fun s s' => s' = s) post s)
    (schedule : List (Option Text ⊕ Option Empty)) {result : Except FileError α}
    (hresult : (run Pair.step ⟨s, publishSourceFile platform call, consumer⟩ schedule).right =
      .done result) :
    post result (run Pair.step ⟨s, publishSourceFile platform call, consumer⟩ schedule).state := by
  have hensures := (Pair.ensures ⟨s, publishSourceFile platform call, consumer⟩
    (fun _ => rfl) (fun h h' => h.trans h') Progresses.refl (fun h h' => h.trans h')
    (fun _ _ h => h) (fun _ _ h => h.symm)
    (acts_publishSourceFile hfiles hfresh) hconsumer schedule).2
  rw [hresult] at hensures
  exact hensures _ (.refl _)

end

/-- However the file operations of a producer and of a consumer are interleaved, and wherever they
stop, the consumer waits or it has the rows of a delivery that is completely published. -/
theorem publication_protocol (platform : Platform) (call : PublishCall) (files : DeliveryFiles)
    (s : Files) (hfiles : sourceFilePaths call.path = .ok files)
    (hinbox : call.path.root = .inbox) (hfresh : s.get? files.manifest = none)
    (hdecodes : Decodes platform call files.name) (hversion : call.schemaVersion = txt "1")
    (hsource : ∀ reportType, reportTypeOf call.reportType = some reportType →
      sourceSystemOf call.sourceSystem = some (reportSource reportType))
    (schedule : List (Option Text ⊕ Option Empty)) :
    (let c := run Pair.step
        ⟨s, publishSourceFile platform call, inspectSourceFile platform call.path⟩ schedule
      ∀ result, c.right = .done result → GateSafe platform call files result c.state) ∧
    (let c := run Pair.step
        ⟨s, publishSourceFile platform call, verifyDeliveryFiles platform call.path⟩ schedule
      ∀ result, c.right = .done result → VerificationSafe platform call files result c.state) := by
  constructor
  · exact fun _ hresult => ensures_of_producer hfiles hfresh
      (ensures_inspectSourceFile hfiles hdecodes hversion hfresh) schedule hresult
  · exact fun _ hresult => ensures_of_producer hfiles hfresh
      (ensures_verifyDeliveryFiles hfiles hinbox hdecodes hversion hsource hfresh) schedule hresult

namespace PublishedDay

open PaidDay (september valid14)

def call : PublishCall where
  path := ⟨.inbox, [txt "orders.json"]⟩
  records := [PyDict.ofPairs [(txt "order_id", .str (txt "ORD-1"))]]
  sourceSystem := txt "THREADLINE_SHOP"
  reportType := txt "ORDERS"
  reportDate := september 14 valid14
  entityType := txt "ORDER"
  schemaVersion := txt "1"

/-- The digest of the data file. -/
def digest : Text := hexDigest 0x2ff5b63328fcf08d68da5aaf6e9fe21a9da6c738140daf7e7f5dcbc48d439317

/-- What is needed to read the two files, of which only the data file holds an array. -/
def platform : Platform where
  sha256 _ := digest
  iso := {
    date := fun s => if s = txt "2026-09-14" then some (september 14 valid14) else none
    datetime := fun _ => none
  }
  strictJson bytes :=
    if startsWith bytes (txt "[") then some (canon call.rowsDocument)
    else some (canon (call.manifestDocument (txt "orders.json") digest))
  berlinToUtc day _ := ⟨day, 0⟩

theorem decodes : Decodes platform call (txt "orders.json") := by
  have hrows : ∀ bytes ∈ documentBytes call.rowsDocument, startsWith bytes (txt "[") := by
    decide +kernel
  have hmanifest : ∀ bytes ∈ documentBytes (call.manifestDocument (txt "orders.json") digest),
      startsWith bytes (txt "[") = false := by
    decide +kernel
  constructor
  · intro bytes hbytes
    show (if _ then _ else _) = _
    rw [if_pos (hrows bytes hbytes)]
  · intro fileBytes _ bytes hbytes
    show (if _ then _ else _) = _
    rw [if_neg (Bool.eq_false_iff.mp (hmanifest bytes hbytes))]
    rfl

def files : DeliveryFiles where
  name := txt "orders.json"
  data := call.path
  dataPart := ⟨.inbox, [txt "orders.json.part"]⟩
  manifest := ⟨.inbox, [txt "orders.manifest.json"]⟩
  manifestPart := ⟨.inbox, [txt "orders.manifest.json.part"]⟩

theorem source (reportType : ReportType) (h : reportTypeOf call.reportType = some reportType) :
    sourceSystemOf call.sourceSystem = some (reportSource reportType) := by
  obtain rfl : ReportType.orders = reportType := Option.some.inj h
  rfl

/-- The producer has claimed the name when the consumers look. -/
def schedule : List (Option Text ⊕ Option Empty) :=
  [.inl none, .inl none, .inl none, .inl none, .inl none, .inr none, .inl none, .inr none]

theorem orders_protocol :
    (let c := run Pair.step
        ⟨∅, publishSourceFile platform call, inspectSourceFile platform call.path⟩ schedule
      ∀ result, c.right = .done result → GateSafe platform call files result c.state) ∧
    (let c := run Pair.step
        ⟨∅, publishSourceFile platform call, verifyDeliveryFiles platform call.path⟩ schedule
      ∀ result, c.right = .done result → VerificationSafe platform call files result c.state) :=
  publication_protocol platform call files ∅ rfl rfl rfl decodes rfl source schedule

end PublishedDay

end Threadline
