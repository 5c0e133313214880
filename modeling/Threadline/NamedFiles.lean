import Threadline.PyDict
import Mathlib.Data.List.Infix

/-!
# Files and their names

A name of a directory stands for a file, which its writer fills until it closes
it, and which keeps its content when the name is given to another file. Writers
that put only closed files under one name never show a part of a file there.
-/

namespace NamedFiles

/-- A file with what has been written to it. -/
structure File (ι β : Type) where
  writer : ι
  content : List β
  closed : Bool

/-- A directory, the files behind its names, and the renames that it has seen. -/
structure Directory (ν ι β : Type) where
  entries : PyDict ν ℕ
  files : List (File ι β)
  history : List (ν × ℕ)

namespace Directory

variable {ν ι β : Type} [DecidableEq ν]

section Operations

variable (s : Directory ν ι β)

/-- The content under a name. -/
def content? (name : ν) : Option (List β) := do
  let i ← s.entries.get? name
  let file ← s.files[i]?
  pure file.content

/-- A new file under a name, which its writer has open. -/
def create (writer : ι) (name : ν) : Directory ν ι β :=
  { s with
    entries := s.entries.set name s.files.length
    files := s.files ++ [⟨writer, [], false⟩] }

def append (i : ℕ) (b : β) : Directory ν ι β :=
  { s with files := s.files.modify i fun file => { file with content := file.content ++ [b] } }

def close (i : ℕ) : Directory ν ι β :=
  { s with files := s.files.modify i fun file => { file with closed := true } }

/-- A file gets another name, which may have stood for another file. -/
def rename (name target : ν) (i : ℕ) : Directory ν ι β :=
  { s with
    entries := (s.entries.erase name).set target i
    history := s.history ++ [(target, i)] }

def unlink (name : ν) : Directory ν ι β := { s with entries := s.entries.erase name }

end Operations

/-! ## Files under one name -/

variable (target : ν) (accepted : List β → Prop)

/-- Whatever has stood under the name is a closed file that is accepted, and the name stands for the
last of them. -/
structure Sound (s : Directory ν ι β) : Prop where
  valid : ∀ name i, s.entries.get? name = some i → i < s.files.length
  current : ∀ i, s.entries.get? target = some i →
    ∃ file, s.files[i]? = some file ∧ file.closed ∧ accepted file.content
  history : ∀ entry ∈ s.history, entry.1 = target ∧
    ∃ file, s.files[entry.2]? = some file ∧ file.closed ∧ accepted file.content
  last : ∀ entry ∈ s.history.getLast?, s.entries.get? target = some entry.2

/-- What the steps of a writer do: they leave the closed files, and the files of other writers, as
they are and where they are, and the name only ever stands for accepted files. -/
structure Guarantees (writer : ι) (s s' : Directory ν ι β) : Prop where
  file : ∀ (i : ℕ) (file : File ι β), s.files[i]? = some file → file.writer ≠ writer ∨ file.closed →
    s'.files[i]? = some file
  name : ∀ name ≠ target, ∀ (i : ℕ) (file : File ι β), s.entries.get? name = some i → s.files[i]? = some file →
    file.writer ≠ writer → s'.entries.get? name = some i
  published : s.entries.get? target ≠ none → s'.entries.get? target ≠ none
  history : s.history <+: s'.history
  single : s'.history.length ≤ s.history.length + 1
  unchanged : s'.history = s.history → s'.entries.get? target = s.entries.get? target
  sound : s.Sound target accepted → s'.Sound target accepted

/-- What a writer relies on: the others leave the closed files, and its own files, as they are and
where they are. -/
structure Relies (writer : ι) (s s' : Directory ν ι β) : Prop where
  file : ∀ (i : ℕ) (file : File ι β), s.files[i]? = some file → file.writer = writer ∨ file.closed →
    s'.files[i]? = some file
  name : ∀ name ≠ target, ∀ (i : ℕ) (file : File ι β), s.entries.get? name = some i → s.files[i]? = some file →
    file.writer = writer → s'.entries.get? name = some i
  published : s.entries.get? target ≠ none → s'.entries.get? target ≠ none
  history : s.history <+: s'.history
  unchanged : s'.history = s.history → s'.entries.get? target = s.entries.get? target
  sound : s.Sound target accepted → s'.Sound target accepted

variable {target accepted} {writer : ι} {s s' s'' : Directory ν ι β}

theorem Relies.refl (s : Directory ν ι β) : Relies target accepted writer s s :=
  ⟨fun _ _ h _ => h, fun _ _ _ _ h _ _ => h, id, List.prefix_refl _, fun _ => rfl, id⟩

theorem Relies.trans (h : Relies target accepted writer s s')
    (h' : Relies target accepted writer s' s'') : Relies target accepted writer s s'' where
  file i file hfile hkept := h'.file i file (h.file i file hfile hkept) hkept
  name name hne i file hname hfile hwriter :=
    h'.name name hne i file (h.name name hne i file hname hfile hwriter)
      (h.file i file hfile (.inl hwriter)) hwriter
  published := h'.published ∘ h.published
  history := h.history.trans h'.history
  unchanged hsame := by
    -- a history that has not grown in the end has not grown in between
    have hmiddle : s'.history = s.history :=
      (h.history.eq_of_length_le (hsame ▸ h'.history.length_le)).symm
    rw [h'.unchanged (hsame.trans hmiddle.symm), h.unchanged hmiddle]
  sound := h'.sound ∘ h.sound

/-- A writer may rely on what the other ones guarantee. -/
theorem Guarantees.relies {other : ι} (hne : other ≠ writer)
    (h : Guarantees target accepted other s s') : Relies target accepted writer s s' := by
  have hother : ∀ file : File ι β, file.writer = writer → file.writer ≠ other := by
    rintro file rfl
    exact hne.symm
  exact {
    file := fun i file hfile hkept => h.file i file hfile (hkept.imp_left (hother file))
    name := fun name htarget i file hname hfile hwriter =>
      h.name name htarget i file hname hfile (hother file hwriter)
    published := h.published
    history := h.history
    unchanged := h.unchanged
    sound := h.sound }

theorem Guarantees.refl (s : Directory ν ι β) : Guarantees target accepted writer s s :=
  ⟨fun _ _ h _ => h, fun _ _ _ _ h _ _ => h, id, List.prefix_refl _, Nat.le_succ _, fun _ => rfl,
    id⟩

/-! ## The steps of a writer -/

/-- Steps that keep the files and what stands under the name. -/
theorem Sound.of_files (h : s.Sound target accepted)
    (hfiles : ∀ (i : ℕ) (file : File ι β), s.files[i]? = some file → file.closed →
      s'.files[i]? = some file)
    (hvalid : ∀ name i, s'.entries.get? name = some i → i < s'.files.length)
    (htarget : s'.entries.get? target = s.entries.get? target) (hhistory : s'.history = s.history) :
    s'.Sound target accepted where
  valid := hvalid
  current i hi := by
    rw [htarget] at hi
    obtain ⟨file, hfile, hclosed, haccepted⟩ := h.current i hi
    exact ⟨file, hfiles i file hfile hclosed, hclosed, haccepted⟩
  history entry hentry := by
    rw [hhistory] at hentry
    obtain ⟨htarget', file, hfile, hclosed, haccepted⟩ := h.history entry hentry
    exact ⟨htarget', file, hfiles _ file hfile hclosed, hclosed, haccepted⟩
  last entry hentry := by
    rw [hhistory] at hentry
    rw [htarget]
    exact h.last entry hentry

theorem create_guarantees {name : ν} (hname : name ≠ target) (hfresh : s.entries.get? name = none) :
    Guarantees target accepted writer s (s.create writer name) := by
  have hfiles : ∀ (i : ℕ) (file : File ι β), s.files[i]? = some file →
      (s.create writer name).files[i]? = some file := by
    intro i file hfile
    obtain ⟨hi, -⟩ := List.getElem?_eq_some_iff.mp hfile
    rw [create, List.getElem?_append_left hi, hfile]
  have hentries : ∀ other ≠ name, (s.create writer name).entries.get? other =
      s.entries.get? other := by
    intro other hother
    rw [create, PyDict.get?_set, if_neg hother.symm]
  refine ⟨fun i file hfile _ => hfiles i file hfile, fun other _ i file hother _ _ => ?_, ?_,
    List.prefix_refl _, Nat.le_succ _, fun _ => hentries target hname.symm, fun hsound =>
      hsound.of_files (fun i file hfile _ => hfiles i file hfile) ?_ (hentries target hname.symm) rfl⟩
  · rw [hentries other fun heq => by rw [heq, hfresh] at hother; cases hother]
    exact hother
  · rw [hentries target hname.symm]
    exact id
  · intro other i hother
    show i < (s.files ++ _).length
    rw [List.length_append]
    by_cases hother' : other = name
    · subst hother'
      rw [create, PyDict.get?_set, if_pos rfl] at hother
      obtain rfl := Option.some.inj hother
      simp
    · rw [hentries other hother'] at hother
      have hvalid := hsound.valid other i hother
      omega

/-- A change of an open file of the writer. -/
theorem modify_guarantees {i : ℕ} {file : File ι β} (hfile : s.files[i]? = some file)
    (hwriter : file.writer = writer) (hopen : file.closed = false)
    (f : File ι β → File ι β) :
    Guarantees target accepted writer s { s with files := s.files.modify i f } := by
  have hfiles : ∀ (j : ℕ) (other : File ι β), s.files[j]? = some other →
      other.writer ≠ writer ∨ other.closed → (s.files.modify i f)[j]? = some other := by
    intro j other hother hkept
    by_cases hj : i = j
    · subst hj
      obtain rfl := Option.some.inj (hfile.symm.trans hother)
      rcases hkept with hne | hclosed
      · exact absurd hwriter hne
      · rw [hopen] at hclosed
        cases hclosed
    · rw [List.getElem?_modify, hother]
      exact congrArg some (if_neg hj)
  refine ⟨hfiles, fun _ _ _ _ hname _ _ => hname, id, List.prefix_refl _, Nat.le_succ _,
    fun _ => rfl, fun hsound => hsound.of_files (fun j other hother hclosed => hfiles j other hother (.inr hclosed)) (fun name j hname => ?_) rfl rfl⟩
  rw [List.length_modify]
  exact hsound.valid name j hname

theorem append_guarantees {i : ℕ} {file : File ι β} (hfile : s.files[i]? = some file)
    (hwriter : file.writer = writer) (hopen : file.closed = false) (b : β) :
    Guarantees target accepted writer s (s.append i b) := modify_guarantees hfile hwriter hopen _

theorem close_guarantees {i : ℕ} {file : File ι β} (hfile : s.files[i]? = some file)
    (hwriter : file.writer = writer) (hopen : file.closed = false) :
    Guarantees target accepted writer s (s.close i) := modify_guarantees hfile hwriter hopen _

/-- A name of a file of the writer is removed. -/
theorem unlink_guarantees {name : ν} (hname : name ≠ target) {i : ℕ} {file : File ι β}
    (hentry : s.entries.get? name = some i) (hfile : s.files[i]? = some file)
    (hwriter : file.writer = writer) : Guarantees target accepted writer s (s.unlink name) := by
  have htarget : (s.unlink name).entries.get? target = s.entries.get? target := by
    rw [unlink, PyDict.get?_erase, if_neg hname]
  refine ⟨fun _ _ h _ => h, fun other _ j file' hother hfile' hne => ?_, ?_, List.prefix_refl _,
    Nat.le_succ _, fun _ => htarget,
    fun hsound => hsound.of_files (fun _ _ h _ => h) (fun other j hother => ?_) htarget rfl⟩
  · have hdifferent : name ≠ other := by
      rintro rfl
      obtain rfl := Option.some.inj (hentry.symm.trans hother)
      obtain rfl := Option.some.inj (hfile.symm.trans hfile')
      exact hne hwriter
    rw [unlink, PyDict.get?_erase, if_neg hdifferent, hother]
  · rw [htarget]
    exact id
  · rw [unlink, PyDict.get?_erase] at hother
    split_ifs at hother
    exact hsound.valid other j hother

/-- A closed file of the writer that is accepted is put under the name. -/
theorem rename_guarantees {name : ν} (hname : name ≠ target) {i : ℕ} {file : File ι β}
    (hentry : s.entries.get? name = some i) (hfile : s.files[i]? = some file)
    (hwriter : file.writer = writer) (hclosed : file.closed) (haccepted : accepted file.content) :
    Guarantees target accepted writer s (s.rename name target i) := by
  have htarget : (s.rename name target i).entries.get? target = some i := by
    rw [rename, PyDict.get?_set, if_pos rfl]
  have hrest : ∀ other ≠ target, other ≠ name →
      (s.rename name target i).entries.get? other = s.entries.get? other := by
    intro other hother hother'
    rw [rename, PyDict.get?_set, if_neg hother.symm, PyDict.get?_erase, if_neg hother'.symm]
  refine ⟨fun _ _ h _ => h, fun other hother j file' hfound hfile' hne => ?_, ?_,
    List.prefix_append _ _, ?_, fun hsame => ?_, fun hsound => ⟨fun other j hother => ?_,
      fun j hj => ?_, fun entry hentry' => ?_, fun entry hentry' => ?_⟩⟩
  · have hdifferent : other ≠ name := by
      rintro rfl
      obtain rfl := Option.some.inj (hentry.symm.trans hfound)
      obtain rfl := Option.some.inj (hfile.symm.trans hfile')
      exact hne hwriter
    rw [hrest other hother hdifferent, hfound]
  · rw [htarget]
    exact fun _ => Option.some_ne_none i
  · show (s.history ++ [_]).length ≤ _
    rw [List.length_append, List.length_singleton]
  · exact absurd (List.append_right_eq_self.mp hsame) (List.cons_ne_nil _ _)
  · rw [rename, PyDict.get?_set, PyDict.get?_erase] at hother
    split_ifs at hother
    · obtain rfl := Option.some.inj hother
      exact hsound.valid name i hentry
    · exact hsound.valid other j hother
  · rw [htarget] at hj
    obtain rfl := Option.some.inj hj
    exact ⟨file, hfile, hclosed, haccepted⟩
  · rcases List.mem_append.mp hentry' with hold | hnew
    · exact hsound.history entry hold
    · rw [List.mem_singleton.mp hnew]
      exact ⟨rfl, file, hfile, hclosed, haccepted⟩
  · have hlast : entry = (target, i) := by
      simpa [rename] using hentry'.symm
    rw [hlast, htarget]

end Directory

end NamedFiles
