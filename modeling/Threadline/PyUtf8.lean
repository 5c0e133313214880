import Threadline.PyText
import Mathlib.Tactic.Common

/-!
# Decoding UTF-8

`bytes.decode("utf-8")`, which may let the bytes of a lone surrogate pass. What
`str.encode("utf-8")` gives is decoded to the text that it was given for.
-/

namespace PyText

/-- The six bits of a continuation byte. -/
def continuation? (b : UInt8) : Option ℕ :=
  if 0x80 ≤ b.toNat ∧ b.toNat < 0xC0 then some (b.toNat - 0x80) else none

/-- The code point at the head of a text, with `surrogatepass` or without. -/
def decodeChar (surrogatepass : Bool) : List UInt8 → Option (CodePoint × List UInt8)
  | [] => none
  | b :: rest =>
    if b.toNat < 0x80 then some (Fin.ofNat _ b.toNat, rest)
    else if 0xC2 ≤ b.toNat ∧ b.toNat < 0xE0 then
      match rest with
      | b₁ :: rest => do
        let low ← continuation? b₁
        pure (Fin.ofNat _ (64 * (b.toNat - 0xC0) + low), rest)
      | _ => none
    else if 0xE0 ≤ b.toNat ∧ b.toNat < 0xF0 then
      match rest with
      | b₁ :: b₂ :: rest => do
        let middle ← continuation? b₁
        let low ← continuation? b₂
        let value := 4096 * (b.toNat - 0xE0) + 64 * middle + low
        if 0x800 ≤ value ∧ (surrogatepass ∨ ¬ (0xD800 ≤ value ∧ value < 0xE000)) then
          pure (Fin.ofNat _ value, rest)
        else none
      | _ => none
    else if 0xF0 ≤ b.toNat ∧ b.toNat < 0xF5 then
      match rest with
      | b₁ :: b₂ :: b₃ :: rest => do
        let high ← continuation? b₁
        let middle ← continuation? b₂
        let low ← continuation? b₃
        let value := 262144 * (b.toNat - 0xF0) + 4096 * high + 64 * middle + low
        if 0x10000 ≤ value ∧ value < 0x110000 then pure (Fin.ofNat _ value, rest) else none
      | _ => none
    else none

def decodeChars (surrogatepass : Bool) : ℕ → List UInt8 → Option Text
  | _, [] => some []
  | 0, _ :: _ => none
  | fuel + 1, bytes => do
    let (c, rest) ← decodeChar surrogatepass bytes
    let cs ← decodeChars surrogatepass fuel rest
    pure (c :: cs)

/-- `bytes.decode("utf-8")`. -/
def decodeUtf8 (surrogatepass : Bool) (bytes : Bytes) : Option Text :=
  decodeChars surrogatepass bytes.data.size bytes.data.toList

/-! ## The bytes of a text -/

theorem toNat_ofNat {n : ℕ} (h : n < 256) : (UInt8.ofNat n).toNat = n :=
  UInt8.toNat_ofNat_of_lt' h

theorem continuation?_ofNat {n : ℕ} (h : n < 64) :
    continuation? (UInt8.ofNat (n + 0x80)) = some n := by
  rw [continuation?, toNat_ofNat (by omega), if_pos (by omega), Nat.add_sub_cancel]

theorem ofNat_toNat (c : Char) : (Fin.ofNat 0x110000 c.toNat) = ofChar c :=
  Fin.ext (Nat.mod_eq_of_lt (ofChar c).isLt)

/-- The bytes of a character are decoded to it, whatever stands behind them. -/
theorem decodeChar_utf8EncodeChar (surrogatepass : Bool) (c : Char) (rest : List UInt8) :
    decodeChar surrogatepass (String.utf8EncodeChar c ++ rest) = some (ofChar c, rest) := by
  have hvalid : c.val.toNat < 0xD800 ∨ 0xDFFF < c.val.toNat ∧ c.val.toNat < 0x110000 := c.valid
  rw [← ofNat_toNat c]
  simp only [String.utf8EncodeChar, Char.toNat]
  generalize c.val.toNat = v at hvalid ⊢
  split_ifs with h₁ h₂ h₃
  · simp only [List.cons_append, List.nil_append, decodeChar]
    rw [toNat_ofNat (by omega), if_pos (by omega)]
  · have hhead := toNat_ofNat (n := v / 64 % 32 + 0xc0) (by omega)
    have hvalue : 64 * (v / 64 % 32 + 0xc0 - 0xc0) + v % 64 = v := by omega
    simp only [List.cons_append, List.nil_append, decodeChar, hhead]
    rw [if_neg (by omega), if_pos (by omega), continuation?_ofNat (by omega)]
    simp only [Option.bind_eq_bind, Option.bind_some, Option.pure_def, hvalue]
  · have hhead := toNat_ofNat (n := v / 4096 % 16 + 0xe0) (by omega)
    have hvalue : 4096 * (v / 4096 % 16 + 0xe0 - 0xe0) + 64 * (v / 64 % 64) + v % 64 = v := by omega
    simp only [List.cons_append, List.nil_append, decodeChar, hhead]
    rw [if_neg (by omega), if_neg (by omega), if_pos (by omega), continuation?_ofNat (by omega),
      continuation?_ofNat (by omega)]
    simp only [Option.bind_eq_bind, Option.bind_some, Option.pure_def, hvalue]
    exact if_pos ⟨by omega, .inr (by omega)⟩
  · have hhead := toNat_ofNat (n := v / 262144 % 8 + 0xf0) (by omega)
    have hvalue : 262144 * (v / 262144 % 8 + 0xf0 - 0xf0) + 4096 * (v / 4096 % 64) +
        64 * (v / 64 % 64) + v % 64 = v := by omega
    simp only [List.cons_append, List.nil_append, decodeChar, hhead]
    rw [if_neg (by omega), if_neg (by omega), if_neg (by omega), if_pos (by omega),
      continuation?_ofNat (by omega), continuation?_ofNat (by omega),
      continuation?_ofNat (by omega)]
    simp only [Option.bind_eq_bind, Option.bind_some, Option.pure_def, hvalue]
    exact if_pos (by omega)

theorem decodeChars_flatMap (surrogatepass : Bool) (cs : List Char) (fuel : ℕ)
    (hfuel : (cs.flatMap String.utf8EncodeChar).length ≤ fuel) :
    decodeChars surrogatepass fuel (cs.flatMap String.utf8EncodeChar) = some (cs.map ofChar) := by
  induction cs generalizing fuel with
  | nil =>
    rw [List.flatMap_nil, decodeChars]
    rfl
  | cons c cs ih =>
    have hpos := List.length_pos_of_ne_nil (String.utf8EncodeChar_ne_nil (c := c))
    rw [List.flatMap_cons] at hfuel ⊢
    rw [List.length_append] at hfuel
    cases fuel with
    | zero => omega
    | succ fuel =>
      cases hbytes : String.utf8EncodeChar c ++ cs.flatMap String.utf8EncodeChar with
      | nil => simp [String.utf8EncodeChar_ne_nil] at hbytes
      | cons b bytes =>
        rw [decodeChars, ← hbytes, decodeChar_utf8EncodeChar]
        simp only [Option.bind_eq_bind, Option.bind_some, ih fuel (by omega), Option.pure_def,
          List.map_cons]
        exact fun h => by cases h

theorem toList_of_encodeUtf8 {s : Text} {b : Bytes} (h : encodeUtf8 s = some b) :
    ∃ cs : List Char, s = cs.map ofChar ∧ b.data.toList = cs.flatMap String.utf8EncodeChar := by
  obtain ⟨cs, hcs, rfl⟩ := Option.map_eq_some_iff.mp h
  refine ⟨cs, (map_ofChar_of_mapM hcs).symm, ?_⟩
  rw [String.toUTF8_eq_toByteArray, String.toByteArray_ofList, List.utf8Encode,
    List.data_toByteArray]

/-- What is encoded is decoded again. -/
theorem decodeUtf8_encodeUtf8 (surrogatepass : Bool) {s : Text} {b : Bytes}
    (h : encodeUtf8 s = some b) : decodeUtf8 surrogatepass b = some s := by
  obtain ⟨cs, rfl, hbytes⟩ := toList_of_encodeUtf8 h
  rw [decodeUtf8, hbytes]
  refine decodeChars_flatMap surrogatepass cs _ ?_
  rw [← hbytes, Array.length_toList]

theorem utf8EncodeChar_ne_zero {c : Char} (hc : c.val.toNat ≠ 0) :
    ∀ byte ∈ String.utf8EncodeChar c, byte.toNat ≠ 0 := by
  have hvalid : c.val.toNat < 0xD800 ∨ 0xDFFF < c.val.toNat ∧ c.val.toNat < 0x110000 := c.valid
  simp only [String.utf8EncodeChar]
  generalize c.val.toNat = v at hc hvalid ⊢
  split_ifs
  all_goals
    simp only [List.forall_mem_cons, List.not_mem_nil, false_implies, implies_true, and_true,
      UInt8.toNat_ofNat']
    omega

/-- A text without a zero character has no zero byte. -/
theorem bytes_ne_zero {s : Text} {b : Bytes} (h : encodeUtf8 s = some b)
    (hs : ∀ c ∈ s, c.val ≠ 0) : ∀ byte ∈ b.data.toList, byte.toNat ≠ 0 := by
  obtain ⟨cs, rfl, hbytes⟩ := toList_of_encodeUtf8 h
  rw [hbytes]
  intro byte hbyte
  obtain ⟨c, hc, hbyte⟩ := List.mem_flatMap.mp hbyte
  have hne : c.val.toNat ≠ 0 := hs _ (List.mem_map_of_mem hc)
  exact utf8EncodeChar_ne_zero hne byte hbyte

/-- An ASCII character at the head of a text is its own byte. -/
theorem head?_bytes {s : Text} {b : Bytes} (h : encodeUtf8 s = some b) {c : CodePoint}
    (hc : s.head? = some c) (hascii : c.val < 128) :
    b.data.toList.head? = some (UInt8.ofNat c.val) := by
  obtain ⟨cs, rfl, hbytes⟩ := toList_of_encodeUtf8 h
  cases cs with
  | nil => cases hc
  | cons d cs =>
    obtain rfl : ofChar d = c := Option.some.inj hc
    have hd : d.val.toNat ≤ 0x7f := Nat.le_of_lt_succ hascii
    have hchar : String.utf8EncodeChar d = [UInt8.ofNat d.val.toNat] := if_pos hd
    rw [hbytes, List.flatMap_cons, hchar]
    rfl

end PyText
