import Mathlib.Algebra.Group.Nat.Defs
import Mathlib.Algebra.GroupWithZero.Nat
import Mathlib.Data.List.Lex
import Mathlib.Order.Fin.Basic
import Mathlib.Tactic.Common

/-!
# Python text

A `str` is a sequence of code points, lone surrogates included, ordered
lexicographically by code point. Only a text without surrogates has UTF-8
bytes.
-/

namespace PyText

abbrev CodePoint := Fin 0x110000

abbrev Text := List CodePoint

abbrev Bytes := ByteArray

instance codePoints_neZero : NeZero 0x110000 := ⟨by decide⟩

instance : LawfulBEq CodePoint := inferInstance

instance : LawfulBEq Text := inferInstance

instance : DecidableEq Bytes := ByteArray.instDecidableEq

def ofChar (c : Char) : CodePoint :=
  ⟨c.toNat, by
    have h : c.val.toNat.isValidChar := c.valid
    change c.val.toNat < _
    unfold Nat.isValidChar at h
    omega⟩

/-- A source literal. -/
def txt (s : String) : Text := s.toList.map ofChar

theorem ofChar_injective : Function.Injective ofChar := by
  intro a b h
  have hv : a.toNat = b.toNat := congrArg (fun c : CodePoint => c.val) h
  exact Char.toNat_inj.mp hv

/-- The scalar value at a code point; a surrogate has none. -/
def toChar? (c : CodePoint) : Option Char :=
  if h : c.val.isValidChar then some (Char.ofNatAux c.val h) else none

theorem toChar?_eq_some {c : CodePoint} {a : Char} (h : toChar? c = some a) : ofChar a = c := by
  unfold toChar? at h
  by_cases hv : c.val.isValidChar
  · rw [dif_pos hv] at h
    obtain rfl := Option.some.inj h
    rfl
  · rw [dif_neg hv] at h
    cases h

/-- `str.encode("utf-8")`, failing on a surrogate. -/
def encodeUtf8 (s : Text) : Option Bytes := (s.mapM toChar?).map fun cs => (String.ofList cs).toUTF8

theorem map_ofChar_of_mapM {s : Text} {cs : List Char} (h : s.mapM toChar? = some cs) :
    cs.map ofChar = s := by
  induction s generalizing cs with
  | nil =>
    obtain rfl : cs = [] := by simpa using h.symm
    rfl
  | cons c s ih =>
    simp only [List.mapM_cons, Option.bind_eq_bind, Option.bind_eq_some_iff, Option.pure_def,
      Option.some.injEq] at h
    obtain ⟨a, ha, cs', hcs, rfl⟩ := h
    rw [List.map_cons, ih hcs, toChar?_eq_some ha]

theorem encodeUtf8_injective {s t : Text} {b : Bytes} (hs : encodeUtf8 s = some b)
    (ht : encodeUtf8 t = some b) : s = t := by
  simp only [encodeUtf8, Option.map_eq_some_iff] at hs ht
  obtain ⟨cs, hcs, rfl⟩ := hs
  obtain ⟨ds, hds, he⟩ := ht
  have hcd : ds = cs := String.ofList_injective (String.toByteArray_inj.mp he)
  rw [← map_ofChar_of_mapM hcs, ← map_ofChar_of_mapM hds, hcd]

/-! ## White space -/

/-- `str.isspace` on one character. -/
def isSpace (c : CodePoint) : Bool :=
  (9 ≤ c.val && c.val ≤ 13) || (28 ≤ c.val && c.val ≤ 32) || c.val == 0x85 || c.val == 0xA0 ||
    c.val == 0x1680 || (0x2000 ≤ c.val && c.val ≤ 0x200A) || c.val == 0x2028 || c.val == 0x2029 ||
    c.val == 0x202F || c.val == 0x205F || c.val == 0x3000

/-- `str.strip()`. -/
def strip (s : Text) : Text := ((s.dropWhile isSpace).reverse.dropWhile isSpace).reverse

/-! ## Numbers -/

/-- `str(n)` for a non-negative integer. -/
def natText (n : ℕ) : Text := (Nat.toDigits 10 n).map ofChar

theorem natText_injective : Function.Injective natText := by
  intro a b h
  have hd : Nat.toDigits 10 a = Nat.toDigits 10 b := (List.map_injective_iff.mpr ofChar_injective) h
  rw [← Nat.ofDigitChars_toDigits (b := 10) (n := a) (by decide) (by decide), hd,
    Nat.ofDigitChars_toDigits (by decide) (by decide)]

def isDigit (c : CodePoint) : Bool := 48 ≤ c.val && c.val ≤ 57

theorem natText_digits (n : ℕ) : ∀ c ∈ natText n, isDigit c := by
  intro c hc
  obtain ⟨d, hd, rfl⟩ := List.mem_map.mp hc
  have h := Nat.isDigit_of_mem_toDigits (by decide) (by decide) hd
  simp only [Char.isDigit, ge_iff_le, Bool.and_eq_true, decide_eq_true_eq] at h
  have hd : 48 ≤ (ofChar d).val ∧ (ofChar d).val ≤ 57 :=
    ⟨UInt32.le_iff_toNat_le.mp h.1, UInt32.le_iff_toNat_le.mp h.2⟩
  simpa [isDigit] using hd

theorem natText_ne_nil (n : ℕ) : natText n ≠ [] := by simp [natText]

def minus : CodePoint := ofChar '-'

/-- `str(n)` for an integer. -/
def intText : ℤ → Text
  | .ofNat n => natText n
  | .negSucc n => minus :: natText (n + 1)

theorem natText_ne_minus (n m : ℕ) : natText n ≠ minus :: natText m := by
  intro h
  have hd := natText_digits n minus (by rw [h]; exact List.mem_cons_self)
  exact absurd hd (by decide)

theorem intText_injective : Function.Injective intText := by
  intro a b h
  cases a with
  | ofNat a =>
    cases b with
    | ofNat b => exact congrArg Int.ofNat (natText_injective h)
    | negSucc b => exact absurd h (natText_ne_minus _ _)
  | negSucc a =>
    cases b with
    | ofNat b => exact absurd h.symm (natText_ne_minus _ _)
    | negSucc b =>
      have hab := natText_injective (List.cons.inj h).2
      exact congrArg Int.negSucc (Nat.succ.inj hab)

def digit (n : ℕ) : CodePoint := ⟨48 + n % 10, by omega⟩

/-- The last `width` decimal digits of `n`, zero padded. -/
def padded : ℕ → ℕ → Text
  | 0, _ => []
  | width + 1, n => padded width (n / 10) ++ [digit n]

@[simp] theorem padded_length (width n : ℕ) : (padded width n).length = width := by
  induction width generalizing n with
  | zero => rfl
  | succ width ih => simp [padded, ih]

theorem padded_injective {width a b : ℕ} (ha : a < 10 ^ width) (hb : b < 10 ^ width)
    (h : padded width a = padded width b) : a = b := by
  induction width generalizing a b with
  | zero => omega
  | succ width ih =>
    have hs := List.append_inj' h rfl
    have hq : a / 10 = b / 10 := ih (by omega) (by omega) hs.1
    have hr : digit a = digit b := (List.cons.inj hs.2).1
    have hv := congrArg Fin.val hr
    simp only [digit] at hv
    omega

theorem padded_digits (width n : ℕ) : ∀ c ∈ padded width n, isDigit c := by
  induction width generalizing n with
  | zero => simp [padded]
  | succ width ih =>
    intro c hc
    rcases List.mem_append.mp hc with hc | hc
    · exact ih _ c hc
    · obtain rfl := List.mem_singleton.mp hc
      have hd : 48 ≤ (digit n).val ∧ (digit n).val ≤ 57 := by
        simp only [digit]
        omega
      simpa [isDigit] using hd

/-- Two texts that are cut at the first occurrence of one character agree on both sides. -/
theorem append_sep_inj {sep : CodePoint} {a a' b b' : Text} (ha : sep ∉ a) (ha' : sep ∉ a')
    (h : a ++ sep :: b = a' ++ sep :: b') : a = a' ∧ b = b' := by
  induction a generalizing a' with
  | nil =>
    cases a' with
    | nil => exact ⟨rfl, (List.cons.inj h).2⟩
    | cons c a' =>
      have hc : sep = c := (List.cons.inj h).1
      exact absurd (hc ▸ List.mem_cons_self) ha'
  | cons c a ih =>
    cases a' with
    | nil =>
      have hc : c = sep := (List.cons.inj h).1
      exact absurd (hc ▸ List.mem_cons_self) ha
    | cons c' a' =>
      obtain ⟨rfl, ht⟩ := List.cons.inj h
      obtain ⟨rfl, hb⟩ := ih (fun hm => ha (List.mem_cons_of_mem _ hm))
        (fun hm => ha' (List.mem_cons_of_mem _ hm)) ht
      exact ⟨rfl, hb⟩

end PyText
