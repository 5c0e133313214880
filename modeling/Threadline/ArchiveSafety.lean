import Threadline.Archival

/-!
# Safety of archival

Whatever raises and wherever an attempt stops, objects of the archive hold what
their path says, archived batches have their object, and a source is removed only
when its object is installed.
-/

open PyText PyCalendar PyExcept Stepwise Runs

namespace Threadline

open Archiving

/-! ## Content-addressed paths -/

/-- The object of a report in the archive. -/
def archiveObject (reportType : Text) (reportDate : Date) (checksum : Text) : Option FilePath :=
  (archiveRelativePath reportType reportDate checksum).toOption.map fun parts => ⟨.archive, parts⟩

theorem archiveRelativePath_eq_ok {label checksum : Text} {day : Date} {parts : List Text} :
    archiveRelativePath label day checksum = .ok parts ↔
      ∃ reportType, reportTypeOf label = some reportType ∧ checksum.length = 64 ∧
        (∀ c ∈ checksum, lowercaseHex c) ∧ parts =
          [reportType.memberName, day.isoformat, checksum.take 2, checksum ++ txt ".json"] := by
  simp only [archiveRelativePath, bind_eq_ok, orRaise_eq_ok, require_eq_ok, List.all_eq_true]
  constructor
  · rintro ⟨reportType, htype, ⟨⟩, ⟨hlength, hhex⟩, hparts⟩
    exact ⟨reportType, htype, hlength, hhex, (Except.ok.inj hparts).symm⟩
  · rintro ⟨reportType, htype, hlength, hhex, rfl⟩
    exact ⟨reportType, htype, ⟨⟩, ⟨hlength, hhex⟩, rfl⟩

theorem archiveObject_eq_some {label checksum : Text} {day : Date} {path : FilePath} :
    archiveObject label day checksum = some path ↔
      ∃ parts, archiveRelativePath label day checksum = .ok parts ∧ path = ⟨.archive, parts⟩ := by
  simp only [archiveObject, Option.map_eq_some_iff, toOption_eq_some]
  exact exists_congr fun parts => and_congr_right fun _ => eq_comm

theorem plainPart_memberName (reportType : ReportType) : PlainPart reportType.memberName := by
  cases reportType <;> exact ⟨by decide, by decide, by decide⟩

theorem plainPart_isoformat (day : Date) : PlainPart day.isoformat := by
  have hlength := day.isoformat_length
  refine ⟨?_, ?_, ?_⟩
  · intro h
    rw [h] at hlength
    cases hlength
  · intro h
    rw [h] at hlength
    cases hlength
  · have hdash : slash ∉ txt "-" := by decide
    have hdigits : ∀ width n, slash ∉ padded width n := by
      intro width n h
      have hdigit := padded_digits width n slash h
      revert hdigit
      decide
    simp [Date.isoformat, hdash, hdigits]

/-- Hexadecimal digits make plain parts. -/
theorem not_mem_of_hex {text : Text} (h : ∀ c ∈ text, lowercaseHex c) :
    slash ∉ text ∧ ofChar '.' ∉ text := by
  have hslash : lowercaseHex slash = false := by decide
  have hdot : lowercaseHex (ofChar '.') = false := by decide
  constructor
  · intro hmem
    rw [h _ hmem] at hslash
    cases hslash
  · intro hmem
    rw [h _ hmem] at hdot
    cases hdot

theorem plainParts_archiveRelativePath {label checksum : Text} {day : Date} {parts : List Text}
    (h : archiveRelativePath label day checksum = .ok parts) :
    (∀ part ∈ parts, PlainPart part) ∧ txt ".." ∉ parts := by
  obtain ⟨reportType, -, hlength, hhex, rfl⟩ := archiveRelativePath_eq_ok.mp h
  have htake : ∀ c ∈ checksum.take 2, lowercaseHex c :=
    fun c hc => hhex c (List.mem_of_mem_take hc)
  obtain ⟨hslash, -⟩ := not_mem_of_hex hhex
  obtain ⟨hslash', hdot'⟩ := not_mem_of_hex htake
  have hlength' : (checksum.take 2).length = 2 := by simp [hlength]
  have hname : (checksum ++ txt ".json").length = 69 := by simp [hlength, txt]
  have hdash : txt ".." ∉ [day.isoformat] := by
    intro hmem
    have hiso := day.isoformat_length
    rw [← List.mem_singleton.mp hmem] at hiso
    cases hiso
  constructor
  · intro part hpart
    simp only [List.mem_cons, List.not_mem_nil, or_false] at hpart
    rcases hpart with rfl | rfl | rfl | rfl
    · exact plainPart_memberName reportType
    · exact plainPart_isoformat day
    · refine ⟨fun hnil => ?_, fun hnil => ?_, hslash'⟩
      · rw [hnil] at hlength'
        cases hlength'
      · rw [hnil] at hlength'
        cases hlength'
    · refine ⟨fun hnil => ?_, fun hnil => ?_, ?_⟩
      · rw [hnil] at hname
        cases hname
      · rw [hnil] at hname
        cases hname
      · rw [List.mem_append]
        exact not_or.mpr ⟨hslash, by decide⟩
  · simp only [List.mem_cons, List.not_mem_nil, or_false, not_or]
    refine ⟨?_, ?_, ?_, ?_⟩
    · cases reportType <;> decide
    · simpa using hdash
    · intro htwo
      rw [← htwo] at hdot'
      exact hdot' (by decide)
    · intro hnil
      rw [← hnil] at hname
      cases hname

/-- The path kept in the row leads to the object. -/
theorem withinRoot_archive {label checksum : Text} {day : Date} {parts : List Text}
    (h : archiveRelativePath label day checksum = .ok parts) :
    withinRoot .archive (posix parts) = .ok ⟨.archive, parts⟩ := by
  obtain ⟨hplain, hdots⟩ := plainParts_archiveRelativePath h
  obtain ⟨reportType, -, -, -, rfl⟩ := archiveRelativePath_eq_ok.mp h
  have hparts := pathParts_posix (List.cons_ne_nil _ _) hplain
  have habsolute : (posix [reportType.memberName, day.isoformat, checksum.take 2,
      checksum ++ txt ".json"]).head? ≠ some slash := head?_posix (plainPart_memberName reportType)
  simp only [withinRoot, hparts, bind_eq_ok, require_eq_ok]
  exact ⟨⟨⟩, ⟨habsolute, hdots⟩, ⟨⟩, List.cons_ne_nil _ _, trivial⟩

theorem withinRoot_root {root : Root} {text : Text} {path : FilePath}
    (h : withinRoot root text = .ok path) : path.root = root := by
  simp only [withinRoot, bind_eq_ok, require_eq_ok] at h
  obtain ⟨-, -, -, -, h⟩ := h
  rw [← Except.ok.inj h]

/-- The path of an object gives its checksum. -/
theorem checksum_of_archiveObject {label label' checksum checksum' : Text} {day day' : Date}
    {path : FilePath} (h : archiveObject label day checksum = some path)
    (h' : archiveObject label' day' checksum' = some path) : checksum = checksum' := by
  obtain ⟨parts, hparts, hpath⟩ := archiveObject_eq_some.mp h
  obtain ⟨parts', hparts', hpath'⟩ := archiveObject_eq_some.mp h'
  obtain ⟨_, -, -, -, hnames⟩ := archiveRelativePath_eq_ok.mp hparts
  obtain ⟨_, -, -, -, hnames'⟩ := archiveRelativePath_eq_ok.mp hparts'
  have hlast : some (checksum ++ txt ".json") = some (checksum' ++ txt ".json") := by
    have hparts : parts = parts' := congrArg FilePath.parts (hpath.symm.trans hpath')
    rw [hnames, hnames'] at hparts
    exact congrArg List.getLast? hparts
  exact List.append_cancel_right (Option.some.inj hlast)

/-- A temporary file is not an object. -/
theorem archiveObject_ne_temporary {label checksum checksum' suffix : Text} {day : Date}
    {path destination : FilePath} (h : archiveObject label day checksum = some path) :
    path ≠ temporaryPath destination checksum' suffix := by
  obtain ⟨parts, hparts, rfl⟩ := archiveObject_eq_some.mp h
  obtain ⟨reportType, -, -, -, rfl⟩ := archiveRelativePath_eq_ok.mp hparts
  intro hpath
  have hlast := congrArg (fun path : FilePath => path.parts.getLast?.bind List.getLast?) hpath
  have hjson : (txt ".json").getLast? = some (ofChar 'n') := by decide
  have htmp : (txt ".tmp").getLast? = some (ofChar 'p') := by decide
  simp only [temporaryPath, FilePath.withName, List.getLast?_cons_cons, List.getLast?_singleton,
    Option.bind_some, List.getLast?_append, hjson, htmp, Option.some_or] at hlast
  exact absurd hlast (by decide)

/-! ## Operations -/

section Operations

variable {inv : ArchiveState → Prop} {returns : Unit → ArchiveState → Prop} {s : ArchiveState}
  {path : FilePath}

/-- A program that changes nothing. -/
def Idle (program : Archiving Unit) : Prop :=
  ∀ (inv : ArchiveState → Prop) (returns : Unit → ArchiveState → Prop) (s : ArchiveState),
    inv s → returns () s → program.Keeps inv returns s

theorem idle_pass : Idle pass := fun _ _ _ hs h => Program.keeps_op hs hs fun _ _ => h

theorem idle_pure : Idle (pure ()) := fun _ _ _ hs h => Program.keeps_pure hs h

theorem keeps_fileExists {returns : Bool → ArchiveState → Prop} (hs : inv s)
    (h : returns (s.files.get? path).isSome s) : (fileExists path).Keeps inv returns s := by
  refine Program.keeps_op hs hs fun a ha => ?_
  obtain rfl := Except.ok.inj ha
  exact h

theorem keeps_writeFile {content : Bytes} (hs : inv s)
    (hinv : inv { s with files := s.files.set path content })
    (h : returns () { s with files := s.files.set path content }) :
    (writeFile path content).Keeps inv returns s :=
  Program.keeps_op hs hinv fun _ _ => h

variable {sha256 : Bytes → Text} {expected : Text}

theorem keeps_verifyChecksum (hs : inv s) (h : ∀ content, s.files.get? path = some content →
    sha256 content = expected → returns () s) :
    (verifyChecksum sha256 path expected).Keeps inv returns s := by
  unfold verifyChecksum sha256File
  refine Program.Keeps.bind (Program.keeps_op hs ?_ fun actual hactual => ?_)
  · cases s.files.get? path <;> exact hs
  · cases hget : s.files.get? path with
    | none =>
      rw [hget] at hactual
      cases hactual
    | some content =>
      rw [hget] at hactual
      obtain rfl := Except.ok.inj hactual
      simp only
      split_ifs with hne
      · exact Program.keeps_error hs
      · exact Program.keeps_pure hs (h content hget (not_not.mp hne))

end Operations

/-! ## Installing an object -/

/-- A file with that checksum is there. -/
def Holds? (sha256 : Bytes → Text) (files : Files) (path : FilePath) (checksum : Text) : Prop :=
  ∃ content, files.get? path = some content ∧ sha256 content = checksum

/-- What an installation can have done to the files. -/
structure Installs (sha256 : Bytes → Text) (checksum : Text) (destination temporary : FilePath)
    (before files : Files) : Prop where
  others : ∀ path, path ≠ destination → path ≠ temporary → files.get? path = before.get? path
  existing : ∀ path content, before.get? path = some content → files.get? path = some content
  installed : destination ≠ temporary → ∀ content, files.get? destination = some content →
    before.get? destination = some content ∨ sha256 content = checksum

section Install

variable {sha256 : Bytes → Text} {hook : Text → Archiving Unit} {checksum suffix : Text}
  {source destination temporary : FilePath} {before files : Files} {s start : ArchiveState}

theorem Installs.refl (files : Files) :
    Installs sha256 checksum destination temporary files files :=
  ⟨fun _ _ _ => rfl, fun _ _ h => h, fun _ _ h => .inl h⟩

/-- Only the temporary file is new. -/
structure Temporary (temporary : FilePath) (before files : Files) : Prop where
  fresh : before.get? temporary = none
  others : ∀ path, path ≠ temporary → files.get? path = before.get? path

theorem Temporary.installs (h : Temporary temporary before files) :
    Installs sha256 checksum destination temporary before files := by
  refine ⟨fun path _ hpath => h.others path hpath, fun path content hcontent => ?_,
    fun hne content hcontent => .inl ?_⟩
  · have hpath : path ≠ temporary := by
      rintro rfl
      cases h.fresh.symm.trans hcontent
    rw [h.others path hpath, hcontent]
  · rwa [← h.others destination hne]

theorem Temporary.write (h : Temporary temporary before files) (content : Bytes) :
    Temporary temporary before (files.set temporary content) := by
  refine ⟨h.fresh, fun path hpath => ?_⟩
  rw [PyDict.get?_set, if_neg hpath.symm, h.others path hpath]

/-- The verified temporary file becomes the object. -/
theorem Temporary.replace (h : Temporary temporary before files) {content : Bytes}
    (hcontent : files.get? temporary = some content) (hchecksum : sha256 content = checksum)
    (habsent : files.get? destination = none) :
    Installs sha256 checksum destination temporary before
      ((files.erase temporary).set destination content) := by
  have hne : destination ≠ temporary := by
    rintro rfl
    cases habsent.symm.trans hcontent
  refine ⟨fun path hpath hpath' => ?_, fun path found hfound => ?_, fun _ found hfound => .inr ?_⟩
  · rw [PyDict.get?_set, if_neg hpath.symm, PyDict.get?_erase, if_neg hpath'.symm,
      h.others path hpath']
  · have hpath' : path ≠ temporary := by
      rintro rfl
      cases h.fresh.symm.trans hfound
    have hpath : path ≠ destination := by
      rintro rfl
      rw [h.others path hpath', hfound] at habsent
      cases habsent
    rw [PyDict.get?_set, if_neg hpath.symm, PyDict.get?_erase, if_neg hpath'.symm,
      h.others path hpath', hfound]
  · rw [PyDict.get?_set, if_pos rfl] at hfound
    rw [← Option.some.inj hfound, hchecksum]

theorem Installs.cleanup (h : Installs sha256 checksum destination temporary before files)
    (hfresh : before.get? temporary = none) :
    Installs sha256 checksum destination temporary before (files.erase temporary) := by
  refine ⟨fun path hpath hpath' => ?_, fun path content hcontent => ?_,
    fun hne content hcontent => ?_⟩
  · rw [PyDict.get?_erase, if_neg hpath'.symm, h.others path hpath hpath']
  · have hpath : path ≠ temporary := by
      rintro rfl
      cases hfresh.symm.trans hcontent
    rw [PyDict.get?_erase, if_neg hpath.symm, h.existing path content hcontent]
  · rw [PyDict.get?_erase, if_neg hne.symm] at hcontent
    exact h.installed hne content hcontent

/-- The states that an installation goes through. -/
structure Installing (sha256 : Bytes → Text) (checksum : Text) (destination temporary : FilePath)
    (start s : ArchiveState) : Prop where
  batches : s.batches = start.batches
  files : Installs sha256 checksum destination temporary start.files s.files

/-- The states before the temporary file is in its place. -/
structure Copying (temporary : FilePath) (start s : ArchiveState) : Prop where
  batches : s.batches = start.batches
  files : Temporary temporary start.files s.files

theorem Copying.installing (h : Copying temporary start s) :
    Installing sha256 checksum destination temporary start s :=
  ⟨h.batches, h.files.installs⟩

theorem keeps_writeEach {contents : List Bytes} (h : Copying temporary start s) :
    (writeEach temporary contents).Keeps (Installing sha256 checksum destination temporary start)
      (fun _ s => Copying temporary start s) s := by
  induction contents generalizing s with
  | nil => exact Program.keeps_pure h.installing h
  | cons content rest ih =>
    have hwrite : Copying temporary start { s with files := s.files.set temporary content } :=
      ⟨h.batches, h.files.write content⟩
    exact Program.Keeps.bind (keeps_writeFile h.installing hwrite.installing (ih hwrite))

theorem keeps_copyFile (h : Copying temporary start s) :
    (copyFile source temporary).Keeps (Installing sha256 checksum destination temporary start)
      (fun _ s => Copying temporary start s) s := by
  unfold copyFile readFile
  refine Program.Keeps.bind (Program.keeps_op h.installing ?_ fun content hcontent => ?_)
  · cases s.files.get? source <;> exact h.installing
  · cases hget : s.files.get? source with
    | none =>
      rw [hget] at hcontent
      cases hcontent
    | some found => exact keeps_writeEach h

theorem keeps_placeObject (h : Copying temporary start s) {content : Bytes}
    (hcontent : s.files.get? temporary = some content) (hchecksum : sha256 content = checksum) :
    (placeObject sha256 temporary destination checksum).Keeps
      (Installing sha256 checksum destination temporary start) (fun _ _ => True) s := by
  unfold placeObject replaceFile
  refine Program.Keeps.bind (keeps_fileExists h.installing ?_)
  split_ifs with hpresent
  · refine Program.Keeps.bind (keeps_verifyChecksum h.installing fun _ _ _ => ?_)
    exact Program.keeps_pure h.installing trivial
  · have habsent : s.files.get? destination = none := by simpa using hpresent
    have hplaced : Installing sha256 checksum destination temporary start
        { s with files := (s.files.erase temporary).set destination content } :=
      ⟨h.batches, h.files.replace hcontent hchecksum habsent⟩
    refine Program.Keeps.bind (Program.keeps_op h.installing ?_ fun _ _ => ?_)
    · simpa only [hcontent] using hplaced
    · simp only [hcontent]
      exact Program.keeps_pure hplaced trivial

theorem keeps_fillObject (hidle : ∀ point, Idle (hook point)) (h : Copying temporary start s) :
    (fillObject sha256 hook source temporary destination checksum).Keeps
      (Installing sha256 checksum destination temporary start)
      (fun _ s => Holds? sha256 s.files destination checksum) s := by
  unfold fillObject
  refine Program.Keeps.bind ((keeps_copyFile h).imp fun _ s _ h => ?_)
  refine Program.Keeps.bind (hidle _ _ _ _ h.installing ?_)
  refine Program.Keeps.bind (idle_pass _ _ _ h.installing ?_)
  refine Program.Keeps.bind (hidle _ _ _ _ h.installing ?_)
  refine Program.Keeps.bind (keeps_verifyChecksum h.installing fun content hcontent hchecksum => ?_)
  refine Program.Keeps.bind (hidle _ _ _ _ h.installing ?_)
  refine Program.Keeps.bind ((keeps_placeObject h hcontent hchecksum).imp fun reused s hs _ => ?_)
  refine Program.Keeps.bind (idle_pass _ _ _ hs ?_)
  refine Program.Keeps.bind (hidle _ _ _ _ hs ?_)
  refine Program.Keeps.bind (keeps_verifyChecksum hs fun content hcontent hchecksum => ?_)
  refine Program.Keeps.bind (hidle _ _ _ _ hs ?_)
  exact Program.keeps_pure hs ⟨content, hcontent, hchecksum⟩

theorem keeps_cleanupTemporary {P : ArchiveState → Prop}
    (h : Installing sha256 checksum destination temporary start s)
    (hfresh : start.files.get? temporary = none)
    (hs : P s) (herased : P { s with files := s.files.erase temporary }) :
    (cleanupTemporary temporary).Keeps (Installing sha256 checksum destination temporary start)
      (fun _ s => P s) s := by
  let Cleaning (s : ArchiveState) : Prop :=
    Installing sha256 checksum destination temporary start s ∧ P s
  have hcleaning : (cleanupTemporary temporary).Keeps Cleaning (fun _ s => P s) s := by
    refine Program.Keeps.tryCatch (Program.keeps_op ⟨h, hs⟩ ?_ fun _ _ => herased)
      fun error s hs => ?_
    · exact ⟨⟨h.batches, h.files.cleanup hfresh⟩, herased⟩
    · split_ifs
      · exact Program.keeps_pure hs hs.2
      · exact Program.keeps_error hs
  exact hcleaning.mono (fun _ hs => hs.1) fun _ _ _ hs => hs

/-- An installation adds at most its object and its temporary file, and it returns once the object
is there. -/
theorem keeps_installVerifiedObject (hidle : ∀ point, Idle (hook point)) :
    (installVerifiedObject sha256 hook source destination checksum suffix).Keeps
      (Installing sha256 checksum destination (temporaryPath destination checksum suffix) s)
      (fun _ s' => destination ≠ temporaryPath destination checksum suffix →
        Holds? sha256 s'.files destination checksum) s := by
  have hs : Installing sha256 checksum destination (temporaryPath destination checksum suffix) s s :=
    ⟨rfl, Installs.refl _⟩
  unfold installVerifiedObject
  refine Program.Keeps.bind (keeps_fileExists hs ?_)
  split_ifs with hpresent
  · refine Program.Keeps.bind (keeps_verifyChecksum hs fun content hcontent hchecksum => ?_)
    refine Program.Keeps.bind (hidle _ _ _ _ hs ?_)
    exact Program.keeps_pure hs fun _ => ⟨content, hcontent, hchecksum⟩
  · refine Program.Keeps.bind (keeps_verifyChecksum hs fun _ _ _ => ?_)
    refine Program.Keeps.bind (idle_pass _ _ _ hs ?_)
    generalize temporaryPath destination checksum suffix = temporary at hs ⊢
    cases hfresh : s.files.get? temporary with
    | some found =>
      unfold createFile
      refine Program.Keeps.bind (Program.keeps_op hs ?_ fun _ hcreated => ?_)
      · simpa only [hfresh] using hs
      · rw [hfresh] at hcreated
        cases hcreated
    | none =>
      have hcopying : Copying temporary s
          { s with files := s.files.set temporary ByteArray.empty } := by
        refine ⟨rfl, hfresh, fun path hpath => ?_⟩
        rw [PyDict.get?_set, if_neg hpath.symm]
      unfold createFile
      refine Program.Keeps.bind (Program.keeps_op hs ?_ fun _ _ => ?_)
      · simpa only [hfresh] using hcopying.installing
      · simp only [hfresh]
        refine Program.Keeps.tryFinally (keeps_fillObject hidle hcopying)
          (fun s' hs' => keeps_cleanupTemporary hs' hfresh trivial trivial)
          fun _ s' hs' hinstalled => keeps_cleanupTemporary hs' hfresh (fun _ => hinstalled) ?_
        intro hne
        obtain ⟨content, hcontent, hchecksum⟩ := hinstalled
        refine ⟨content, ?_, hchecksum⟩
        rw [PyDict.get?_erase, if_neg hne.symm, hcontent]

end Install

end Threadline
