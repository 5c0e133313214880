import Threadline.PyDict
import Threadline.PyText

/-!
# Files and paths

The regular files below the two configured roots, which do not overlap. A path
is the list of its components below a root.
-/

open PyText

namespace Threadline

inductive Root
  | inbox | archive
  deriving DecidableEq

structure FilePath where
  root : Root
  parts : List Text
  deriving DecidableEq

/-- The contents of the files. -/
abbrev Files := PyDict FilePath Bytes

/-- `path.with_name(name)`. -/
def FilePath.withName (path : FilePath) (name : Text) : FilePath :=
  { path with parts := path.parts.dropLast ++ [name] }

/-- `[0-9a-f]`. -/
def lowercaseHex (c : CodePoint) : Bool := c ∈ txt "0123456789abcdef"

def slash : CodePoint := ofChar '/'

/-- `PurePosixPath(text).parts` of a relative path. -/
def pathParts (text : Text) : List Text :=
  (text.splitOn slash).filter fun part => part ≠ [] ∧ part ≠ txt "."

/-- `PurePosixPath(*parts).as_posix()`. -/
def posix (parts : List Text) : Text := [slash].intercalate parts

/-- A component that stands for itself. -/
structure PlainPart (part : Text) : Prop where
  nonempty : part ≠ []
  noDot : part ≠ txt "."
  noSlash : slash ∉ part

theorem pathParts_posix {parts : List Text} (hne : parts ≠ []) (h : ∀ part ∈ parts, PlainPart part) :
    pathParts (posix parts) = parts := by
  unfold pathParts posix
  rw [List.splitOn_intercalate slash (fun part hpart => (h part hpart).noSlash) hne]
  refine List.filter_eq_self.mpr fun part hpart => ?_
  exact decide_eq_true ⟨(h part hpart).nonempty, (h part hpart).noDot⟩

/-- An absolute path begins with a slash. -/
theorem head?_posix {part : Text} {parts : List Text} (h : PlainPart part) :
    (posix (part :: parts)).head? ≠ some slash := by
  obtain ⟨c, rest, rfl⟩ := List.exists_cons_of_ne_nil h.nonempty
  have hc : c ≠ slash := fun hc => h.noSlash (hc ▸ List.mem_cons_self)
  cases parts with
  | nil => simpa [posix, List.intercalate] using hc
  | cons next parts => simpa [posix, List.intercalate, List.intersperse] using hc

end Threadline
