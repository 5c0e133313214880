import Threadline.PyJson
import Threadline.PyUtf8
import Mathlib.Data.List.Infix
import Mathlib.Data.List.TakeWhile

/-!
# Reading JSON texts

`json.dumps` in every layout, and `json.loads` with the hooks of its decoder. What
is written in a layout is read back as the value that was written.
-/

open PyText

namespace PyJson

set_option maxRecDepth 4096

/-! ## Layouts -/

/-- The whitespace of JSON. -/
def isBlank (c : CodePoint) : Bool := c ∈ txt " \t\n\r"

/-- How a document is spaced: what stands before an item at a depth, and behind a colon. -/
structure Layout where
  newline : ℕ → Text
  colonSpace : Text
  newline_blank : ∀ depth, ∀ c ∈ newline depth, isBlank c
  colonSpace_blank : ∀ c ∈ colonSpace, isBlank c

/-- `separators=(",", ":")`. -/
def Layout.compact : Layout where
  newline _ := []
  colonSpace := []
  newline_blank := by simp
  colonSpace_blank := by simp

/-- `indent=width`. -/
def Layout.indented (width : ℕ) : Layout where
  newline depth := ofChar '\n' :: List.replicate (width * depth) (ofChar ' ')
  colonSpace := [ofChar ' ']
  newline_blank depth c hc := by
    rcases List.mem_cons.mp hc with rfl | hc
    · decide
    · rw [List.eq_of_mem_replicate hc]
      decide
  colonSpace_blank c hc := by
    rw [List.mem_singleton.mp hc]
    decide

section Writer

variable (layout : Layout)

mutual

/-- The text of a value at a depth, members in the order given. -/
def renderIn (depth : ℕ) : Json → Text
  | .null => txt "null"
  | .bool false => txt "false"
  | .bool true => txt "true"
  | .num n => n.text
  | .str s => renderString s
  | .arr [] => txt "[]"
  | .arr (x :: xs) =>
    ofChar '[' :: (layout.newline (depth + 1) ++ (renderIn (depth + 1) x ++ renderItemsIn depth xs))
  | .obj [] => txt "\x7b\x7d"
  | .obj (m :: ms) =>
    ofChar '{' :: (layout.newline (depth + 1) ++ (renderMemberIn depth m ++ renderMembersIn depth ms))

def renderItemsIn (depth : ℕ) : List Json → Text
  | [] => layout.newline depth ++ [ofChar ']']
  | x :: xs =>
    ofChar ',' :: (layout.newline (depth + 1) ++ (renderIn (depth + 1) x ++ renderItemsIn depth xs))

def renderMemberIn (depth : ℕ) : Text × Json → Text
  | (k, v) => renderString k ++ ofChar ':' :: (layout.colonSpace ++ renderIn (depth + 1) v)

def renderMembersIn (depth : ℕ) : List (Text × Json) → Text
  | [] => layout.newline depth ++ [ofChar '}']
  | m :: ms =>
    ofChar ',' :: (layout.newline (depth + 1) ++ (renderMemberIn depth m ++ renderMembersIn depth ms))

end

end Writer

mutual

theorem renderIn_compact (depth : ℕ) : ∀ j : Json, renderIn .compact depth j = render j
  | .null | .bool false | .bool true | .num _ | .str _ | .arr [] | .obj [] => by
    simp only [renderIn, render]
  | .arr (x :: xs) => by
    rw [renderIn, render, renderIn_compact (depth + 1) x, renderItemsIn_compact depth xs]
    rfl
  | .obj ((k, v) :: ms) => by
    rw [renderIn, render, renderMemberIn, renderIn_compact (depth + 1) v,
      renderMembersIn_compact depth ms, List.append_assoc]
    rfl

theorem renderItemsIn_compact (depth : ℕ) : ∀ xs : List Json,
    renderItemsIn .compact depth xs = renderItems xs
  | [] => rfl
  | x :: xs => by
    rw [renderItemsIn, renderItems, renderIn_compact (depth + 1) x, renderItemsIn_compact depth xs]
    rfl

theorem renderMembersIn_compact (depth : ℕ) : ∀ ms : List (Text × Json),
    renderMembersIn .compact depth ms = renderMembers ms
  | [] => rfl
  | (k, v) :: ms => by
    rw [renderMembersIn, renderMembers, renderMemberIn, renderIn_compact (depth + 1) v,
      renderMembersIn_compact depth ms, List.append_assoc]
    rfl

end

/-! ## Numbers -/

def naturalValue (s : Text) : ℕ := s.foldl (fun n c => 10 * n + (c.val - 48)) 0

/-- `int(token)`. -/
def integerValue : Text → ℤ
  | [] => 0
  | c :: rest => if c = minus then -(naturalValue rest : ℤ) else naturalValue (c :: rest)

/-- `-?` -/
def signPart (s : Text) : Text := if s.head? = some minus then [minus] else []

/-- `0|[1-9][0-9]*` -/
def wholePart (s : Text) : Text :=
  if s.head? = some (ofChar '0') then [ofChar '0'] else s.takeWhile isDigit

/-- `(\.[0-9]+)?` -/
def fractionPart : Text → Text
  | [] => []
  | c :: rest =>
    if c = ofChar '.' ∧ rest.takeWhile isDigit ≠ [] then c :: rest.takeWhile isDigit else []

/-- `[-+]?` -/
def exponentSign (s : Text) : Text :=
  if s.head? = some minus then [minus] else if s.head? = some (ofChar '+') then [ofChar '+'] else []

/-- `([eE][-+]?[0-9]+)?` -/
def exponentPart : Text → Text
  | [] => []
  | c :: rest =>
    let digits := (rest.drop (exponentSign rest).length).takeWhile isDigit
    if (c = ofChar 'e' ∨ c = ofChar 'E') ∧ digits ≠ [] then c :: (exponentSign rest ++ digits) else []

/-- The number that a text starts with, and whether it has a fraction or an exponent. -/
def matchNumber (s : Text) : Option (Text × Bool) :=
  let sign := signPart s
  let whole := wholePart (s.drop sign.length)
  let fraction := fractionPart ((s.drop sign.length).drop whole.length)
  let exponent := exponentPart (((s.drop sign.length).drop whole.length).drop fraction.length)
  if whole = [] then none else some (sign ++ (whole ++ (fraction ++ exponent)),
    decide (fraction ++ exponent ≠ []))

/-! ## The reader -/

/-- The hooks of a decoder, which raise where they return nothing. -/
structure Decoder where
  /-- `parse_float` -/
  float : Text → Option Number
  /-- `parse_constant` -/
  constant : Text → Option Number
  /-- `object_pairs_hook` -/
  object : List (Text × Json) → Option Json

def skipBlank (s : Text) : Text := s.dropWhile isBlank

/-- The text behind a word that it starts with. -/
def literal (word s : Text) : Option Text := if word <+: s then some (s.drop word.length) else none

def hexDigit? (c : CodePoint) : Option ℕ :=
  if 48 ≤ c.val ∧ c.val ≤ 57 then some (c.val - 48)
  else if 97 ≤ c.val ∧ c.val ≤ 102 then some (c.val - 87)
  else if 65 ≤ c.val ∧ c.val ≤ 70 then some (c.val - 55)
  else none

/-- Four hexadecimal digits. -/
def scanHex : Text → Option (ℕ × Text)
  | a :: b :: c :: d :: rest => do
    let a ← hexDigit? a
    let b ← hexDigit? b
    let c ← hexDigit? c
    let d ← hexDigit? d
    pure (4096 * a + 256 * b + 16 * c + d, rest)
  | _ => none

/-- A code unit behind `\u`: a high surrogate joins with a low one that follows it. -/
def scanUnicode (s : Text) : Option (CodePoint × Text) := do
  let (unit, rest) ← scanHex s
  if 0xD800 ≤ unit ∧ unit ≤ 0xDBFF then
    match literal (txt "\\u") rest with
    | some behind => do
      let (low, rest') ← scanHex behind
      if 0xDC00 ≤ low ∧ low ≤ 0xDFFF then
        pure (Fin.ofNat _ (0x10000 + 1024 * (unit - 0xD800) + (low - 0xDC00)), rest')
      else pure (Fin.ofNat _ unit, rest)
    | none => pure (Fin.ofNat _ unit, rest)
  else pure (Fin.ofNat _ unit, rest)

/-- A character of a string. Control characters have to be escaped. -/
def scanChar : Text → Option (CodePoint × Text)
  | [] => none
  | c :: rest =>
    if c = backslash then
      match rest with
      | [] => none
      | e :: rest =>
        if e = quote ∨ e = backslash ∨ e = ofChar '/' then some (e, rest)
        else if e = ofChar 'b' then some (8, rest)
        else if e = ofChar 'f' then some (12, rest)
        else if e = ofChar 'n' then some (10, rest)
        else if e = ofChar 'r' then some (13, rest)
        else if e = ofChar 't' then some (9, rest)
        else if e = ofChar 'u' then scanUnicode rest
        else none
    else if c.val < 32 then none
    else some (c, rest)

/-- A string behind its opening quote. -/
def scanString : ℕ → Text → Option (Text × Text)
  | 0, _ => none
  | fuel + 1, s =>
    if s.head? = some quote then some ([], s.tail)
    else do
      let (c, rest) ← scanChar s
      let (cs, rest) ← scanString fuel rest
      pure (c :: cs, rest)

section Reader

variable (d : Decoder)

def scanConstant (s : Text) : Option (Number × Text) :=
  match [txt "NaN", txt "Infinity", txt "-Infinity"].find? fun word => word <+: s with
  | some word => (d.constant word).map fun n => (n, s.drop word.length)
  | none => none

def scanNumber (s : Text) : Option (Number × Text) :=
  match matchNumber s with
  | some (token, false) => some (.int (integerValue token), s.drop token.length)
  | some (token, true) => (d.float token).map fun n => (n, s.drop token.length)
  | none => scanConstant d s

/-- A value that is not a container. -/
def scanScalar (s : Text) : Option (Json × Text) :=
  match literal (txt "null") s, literal (txt "true") s, literal (txt "false") s with
  | some rest, _, _ => some (.null, rest)
  | _, some rest, _ => some (.bool true, rest)
  | _, _, some rest => some (.bool false, rest)
  | none, none, none => (scanNumber d s).map fun p => (.num p.1, p.2)

/-- What stands behind an item: the text behind a comma, or the text behind the closing bracket. -/
def scanSeparator (close : CodePoint) (s : Text) : Option (Bool × Text) :=
  match skipBlank s with
  | [] => none
  | c :: rest =>
    if c = close then some (false, rest)
    else if c = ofChar ',' then some (true, skipBlank rest)
    else none

mutual

/-- `scan_once`. -/
def scanValue : ℕ → Text → Option (Json × Text)
  | 0, _ => none
  | fuel + 1, s =>
    match s with
    | [] => none
    | c :: rest =>
      if c = quote then (scanString fuel rest).map fun p => (.str p.1, p.2)
      else if c = ofChar '[' then
        if (skipBlank rest).head? = some (ofChar ']') then some (.arr [], (skipBlank rest).tail)
        else do
          let (x, rest) ← scanValue fuel (skipBlank rest)
          let (xs, rest) ← scanItems fuel rest
          pure (.arr (x :: xs), rest)
      else if c = ofChar '{' then
        if (skipBlank rest).head? = some (ofChar '}') then
          (d.object []).map fun j => (j, (skipBlank rest).tail)
        else do
          let (m, rest) ← scanMember fuel (skipBlank rest)
          let (ms, rest) ← scanMembers fuel rest
          let j ← d.object (m :: ms)
          pure (j, rest)
      else scanScalar d s

/-- The items behind an item. -/
def scanItems : ℕ → Text → Option (List Json × Text)
  | 0, _ => none
  | fuel + 1, s => do
    let (more, rest) ← scanSeparator (ofChar ']') s
    if more then do
      let (x, rest) ← scanValue fuel rest
      let (xs, rest) ← scanItems fuel rest
      pure (x :: xs, rest)
    else pure ([], rest)

/-- A key and its value. -/
def scanMember : ℕ → Text → Option ((Text × Json) × Text)
  | 0, _ => none
  | fuel + 1, s => do
    let rest ← literal [quote] s
    let (k, rest) ← scanString fuel rest
    let rest ← literal [ofChar ':'] (skipBlank rest)
    let (v, rest) ← scanValue fuel (skipBlank rest)
    pure ((k, v), rest)

/-- The members behind a member. -/
def scanMembers : ℕ → Text → Option (List (Text × Json) × Text)
  | 0, _ => none
  | fuel + 1, s => do
    let (more, rest) ← scanSeparator (ofChar '}') s
    if more then do
      let (m, rest) ← scanMember fuel rest
      let (ms, rest) ← scanMembers fuel rest
      pure (m :: ms, rest)
    else pure ([], rest)

end

/-- `JSONDecoder.decode`. -/
def decode (s : Text) : Option Json :=
  match scanValue d (s.length + 1) (skipBlank s) with
  | some (j, rest) => if skipBlank rest = [] then some j else none
  | none => none

/-- `json.loads` of a text. -/
def loads (s : Text) : Option Json := if s.head? = some 0xFEFF then none else decode d s

end Reader

/-- The encodings that `detect_encoding` tells apart. -/
inductive Encoding
  | utf8 | utf8Sig | utf16 | utf32
  deriving DecidableEq

/-- `detect_encoding`. -/
def detectEncoding (bytes : List UInt8) : Encoding :=
  if [0x00, 0x00, 0xFE, 0xFF] <+: bytes ∨ [0xFF, 0xFE, 0x00, 0x00] <+: bytes then .utf32
  else if [0xFE, 0xFF] <+: bytes ∨ [0xFF, 0xFE] <+: bytes then .utf16
  else if [0xEF, 0xBB, 0xBF] <+: bytes then .utf8Sig
  else match bytes with
    | b₀ :: b₁ :: b₂ :: b₃ :: _ =>
      if b₀ = 0 then if b₁ = 0 then .utf32 else .utf16
      else if b₁ = 0 then if b₂ = 0 ∧ b₃ = 0 then .utf32 else .utf16
      else .utf8
    | [b₀, b₁] => if b₀ = 0 ∨ b₁ = 0 then .utf16 else .utf8
    | _ => .utf8

/-- `bytes.decode(detect_encoding(bytes), "surrogatepass")`, where `wide` decodes the encodings of
wider units. -/
def decodeBytes (wide : Bytes → Option Text) (bytes : Bytes) : Option Text :=
  match detectEncoding bytes.data.toList with
  | .utf8 => decodeUtf8 true bytes
  | .utf8Sig => decodeUtf8 true (bytes.extract 3 bytes.size)
  | .utf16 => wide bytes
  | .utf32 => wide bytes

/-- `json.loads` of bytes. -/
def loadsBytes (wide : Bytes → Option Text) (d : Decoder) (bytes : Bytes) : Option Json :=
  (decodeBytes wide bytes).bind (decode d)

/-! ## Numbers are read back -/

/-- What may stand behind a value. -/
def isDelimiter (c : CodePoint) : Bool := isBlank c || c ∈ txt ",]\x7d"

/-- A text that does not continue a value. -/
def Ends (s : Text) : Prop := ∀ c ∈ s.head?, isDelimiter c

theorem ends_of_blank {s : Text} (h : ∀ c ∈ s, isBlank c) : Ends s := by
  intro c hc
  rw [isDelimiter, h c (List.mem_of_mem_head? hc), Bool.true_or]

theorem ne_of_delimiter {c b : CodePoint} (hc : isDelimiter c = false) (hb : isDelimiter b) :
    c ≠ b := by
  rintro rfl
  rw [hc] at hb
  cases hb

theorem ends_cons {c : CodePoint} {s : Text} (h : isDelimiter c) : Ends (c :: s) := by
  intro d hd
  rwa [← Option.some.inj hd]

theorem Ends.head?_ne {s : Text} (h : Ends s) {c : CodePoint} (hc : isDelimiter c = false) :
    s.head? ≠ some c := by
  intro hs
  rw [h c hs] at hc
  cases hc

theorem isDelimiter_digit {c : CodePoint} (h : isDigit c) : isDelimiter c = false := by
  have hne : (txt " \t\n\r" ++ txt ",]\x7d").all (fun d => !isDigit d) := by decide
  apply Bool.eq_false_iff.mpr
  intro hc
  have hmem : c ∈ txt " \t\n\r" ++ txt ",]\x7d" := by
    simpa only [isDelimiter, isBlank, Bool.or_eq_true, decide_eq_true_eq, List.mem_append] using hc
  simpa [h] using List.all_eq_true.mp hne c hmem

theorem takeWhile_isDigit_append {s rest : Text} (h : Ends rest) :
    (s ++ rest).takeWhile isDigit = s.takeWhile isDigit := by
  induction s with
  | nil =>
    cases rest with
    | nil => rfl
    | cons c rest =>
      have hc : isDigit c = false := by
        by_contra hdigit
        have hdigit := isDelimiter_digit (Bool.not_eq_false _ ▸ hdigit : isDigit c = true)
        exact absurd (h c rfl) (by simp [hdigit])
      rw [List.nil_append, List.takeWhile_cons_of_neg (by simp [hc]), List.takeWhile_nil]
  | cons c s ih =>
    rw [List.cons_append]
    by_cases hc : isDigit c
    · rw [List.takeWhile_cons_of_pos hc, List.takeWhile_cons_of_pos hc, ih]
    · rw [List.takeWhile_cons_of_neg hc, List.takeWhile_cons_of_neg hc]

/-- Nothing behind a value becomes a part of its number. -/
theorem drop_append_of_prefix {p s rest : Text} (h : p <+: s) :
    (s ++ rest).drop p.length = s.drop p.length ++ rest :=
  List.drop_append_of_le_length h.length_le

theorem signPart_isPrefix (s : Text) : signPart s <+: s := by
  cases s with
  | nil => exact List.nil_prefix
  | cons c s =>
    unfold signPart
    split_ifs with h
    · obtain rfl := Option.some.inj h
      exact ⟨s, rfl⟩
    · exact List.nil_prefix

theorem wholePart_isPrefix (s : Text) : wholePart s <+: s := by
  unfold wholePart
  split_ifs with h
  · cases s with
    | nil => cases h
    | cons c s =>
      obtain rfl := Option.some.inj h
      exact ⟨s, rfl⟩
  · exact List.takeWhile_prefix _

theorem fractionPart_isPrefix (s : Text) : fractionPart s <+: s := by
  cases s with
  | nil => exact List.nil_prefix
  | cons c s =>
    rw [fractionPart]
    split_ifs
    · exact List.cons_prefix_cons.mpr ⟨rfl, List.takeWhile_prefix _⟩
    · exact List.nil_prefix

theorem exponentSign_isPrefix (s : Text) : exponentSign s <+: s := by
  cases s with
  | nil => exact List.nil_prefix
  | cons c s =>
    unfold exponentSign
    split_ifs with hminus hplus
    · obtain rfl := Option.some.inj hminus
      exact ⟨s, rfl⟩
    · obtain rfl := Option.some.inj hplus
      exact ⟨s, rfl⟩
    · exact List.nil_prefix

section

variable {rest : Text} (h : Ends rest) (s : Text)

include h

theorem head?_append_eq_iff {c : CodePoint} (hc : isDelimiter c = false) :
    (s ++ rest).head? = some c ↔ s.head? = some c := by
  cases s with
  | nil => simp [h.head?_ne hc]
  | cons d s => rfl

theorem signPart_append : signPart (s ++ rest) = signPart s := by
  unfold signPart
  simp only [head?_append_eq_iff h s (show isDelimiter minus = false by decide)]

theorem wholePart_append : wholePart (s ++ rest) = wholePart s := by
  unfold wholePart
  simp only [head?_append_eq_iff h s (show isDelimiter (ofChar '0') = false by decide),
    takeWhile_isDigit_append h]

theorem exponentSign_append : exponentSign (s ++ rest) = exponentSign s := by
  unfold exponentSign
  simp only [head?_append_eq_iff h s (show isDelimiter minus = false by decide),
    head?_append_eq_iff h s (show isDelimiter (ofChar '+') = false by decide)]

theorem fractionPart_append : fractionPart (s ++ rest) = fractionPart s := by
  cases s with
  | nil =>
    cases rest with
    | nil => rfl
    | cons c rest =>
      have hc : c ≠ ofChar '.' := fun hc => h.head?_ne (by decide) (congrArg some hc)
      rw [List.nil_append, fractionPart]
      exact if_neg fun hp => hc hp.1
  | cons c s => rw [List.cons_append, fractionPart, fractionPart, takeWhile_isDigit_append h]

theorem exponentPart_append : exponentPart (s ++ rest) = exponentPart s := by
  cases s with
  | nil =>
    cases rest with
    | nil => rfl
    | cons c rest =>
      have he : c ≠ ofChar 'e' := fun hc => h.head?_ne (by decide) (congrArg some hc)
      have hE : c ≠ ofChar 'E' := fun hc => h.head?_ne (by decide) (congrArg some hc)
      rw [List.nil_append, exponentPart]
      exact if_neg fun hp => hp.1.elim he hE
  | cons c s =>
    rw [List.cons_append, exponentPart, exponentPart, exponentSign_append h,
      drop_append_of_prefix (exponentSign_isPrefix s), takeWhile_isDigit_append h]

theorem matchNumber_append : matchNumber (s ++ rest) = matchNumber s := by
  simp only [matchNumber, signPart_append h, drop_append_of_prefix (signPart_isPrefix s),
    wholePart_append h, drop_append_of_prefix (wholePart_isPrefix _), fractionPart_append h,
    drop_append_of_prefix (fractionPart_isPrefix _), exponentPart_append h]

end

theorem naturalValue_natText (n : ℕ) : naturalValue (natText n) = n := by
  have h := Nat.ofDigitChars_toDigits (b := 10) (n := n) (by decide) (by decide)
  rw [Nat.ofDigitChars_eq_foldl] at h
  rw [naturalValue, natText, List.foldl_map]
  exact h

/-- No number but zero starts with a zero. -/
theorem eq_zero_of_head?_natText {n : ℕ} (h : (natText n).head? = some (ofChar '0')) : n = 0 := by
  induction n using Nat.strong_induction_on with
  | _ n ih =>
    rcases Nat.lt_or_ge n 10 with hn | hn
    · have hdigit : ∀ k : Fin 10, (natText k).head? = some (ofChar '0') → k = 0 := by decide
      exact congrArg Fin.val (hdigit ⟨n, hn⟩ h)
    · have hdigits := Nat.toDigits_of_base_le (b := 10) (by decide) hn
      have hne : natText (n / 10) ≠ [] := natText_ne_nil _
      have hhead : (natText n).head? = (natText (n / 10)).head? := by
        rw [natText, hdigits, List.map_append, ← natText]
        exact List.head?_append_of_ne_nil _ hne
      have hzero := ih (n / 10) (by omega) (hhead ▸ h)
      omega

theorem head?_natText_ne (n : ℕ) {c : CodePoint} (hc : isDigit c = false) :
    (natText n).head? ≠ some c := by
  intro h
  simp [natText_digits n c (List.mem_of_mem_head? h)] at hc

theorem signPart_natText (n : ℕ) : signPart (natText n) = [] :=
  if_neg (head?_natText_ne n (by decide))

theorem wholePart_natText (n : ℕ) : wholePart (natText n) = natText n := by
  unfold wholePart
  split_ifs with h
  · obtain rfl := eq_zero_of_head?_natText h
    rfl
  · rw [List.takeWhile_eq_self_iff]
    exact natText_digits n

theorem matchNumber_intText (n : ℤ) : matchNumber (intText n) = some (intText n, false) := by
  cases n with
  | ofNat n =>
    show matchNumber (natText n) = some (natText n, false)
    simp [matchNumber, signPart_natText, wholePart_natText, fractionPart, exponentPart,
      natText_ne_nil]
  | negSucc n =>
    show matchNumber (minus :: natText (n + 1)) = some (minus :: natText (n + 1), false)
    have hsign : signPart (minus :: natText (n + 1)) = [minus] := if_pos rfl
    simp [matchNumber, hsign, wholePart_natText, fractionPart, exponentPart, natText_ne_nil]

theorem integerValue_intText (n : ℤ) : integerValue (intText n) = n := by
  cases n with
  | ofNat n =>
    show integerValue (natText n) = n
    cases htext : natText n with
    | nil => exact absurd htext (natText_ne_nil n)
    | cons c rest =>
      have hc : c ≠ minus := fun hc => head?_natText_ne n (c := minus) (by decide) (by
        rw [htext, hc, List.head?_cons])
      rw [integerValue, if_neg hc, ← htext, naturalValue_natText]
  | negSucc n =>
    show integerValue (minus :: natText (n + 1)) = _
    rw [integerValue, if_pos rfl, naturalValue_natText]
    rfl

/-- The decoder has this number for its text. -/
def Decoder.Reads (d : Decoder) : Number → Prop
  | .int _ => True
  | .float r => matchNumber r.text = some (r.text, true) ∧ d.float r.text = some (.float r)
  | .infinity negative => d.constant (Number.infinity negative).text = some (.infinity negative)

theorem scanNumber_append {d : Decoder} {n : Number} {rest : Text} (hn : d.Reads n)
    (h : Ends rest) : scanNumber d (n.text ++ rest) = some (n, rest) := by
  cases n with
  | int n =>
    show scanNumber d (intText n ++ rest) = _
    simp [scanNumber, matchNumber_append h, matchNumber_intText, integerValue_intText]
  | float r =>
    show scanNumber d (r.text ++ rest) = _
    simp [scanNumber, matchNumber_append h, hn.1, hn.2]
  | infinity negative =>
    have hmatch : matchNumber (Number.infinity negative).text = none := by
      cases negative <;> decide
    rw [scanNumber, matchNumber_append h, hmatch]
    have hword : [txt "NaN", txt "Infinity", txt "-Infinity"].find?
        (fun word => word <+: (Number.infinity negative).text ++ rest) =
          some (Number.infinity negative).text := by
      cases negative <;> rfl
    show scanConstant d _ = _
    rw [scanConstant, hword]
    show (d.constant _).map _ = _
    rw [hn, Option.map_some, List.drop_left]

/-! ## Strings are read back -/

theorem hexDigit?_hexDigit (n : ℕ) : hexDigit? (hexDigit n) = some (n % 16) := by
  have hn : n % 16 < 16 := Nat.mod_lt _ (by decide)
  have h : ∀ k : Fin 16, hexDigit? (hexDigit k.val) = some k.val := by decide
  have hk := h ⟨n % 16, hn⟩
  have hmod : hexDigit (n % 16) = hexDigit n := by simp [hexDigit]
  rwa [hmod] at hk

theorem scanUnicode_control {c : CodePoint} (hc : c.val < 32) (rest : Text) :
    scanUnicode (ofChar '0' :: ofChar '0' :: hexDigit (c.val / 16) :: hexDigit c.val :: rest) =
      some (c, rest) := by
  have hzero : hexDigit? (ofChar '0') = some 0 := rfl
  have hunit : 16 * (c.val / 16 % 16) + c.val % 16 = c.val := by omega
  simp only [scanUnicode, scanHex, hzero, hexDigit?_hexDigit, Option.bind_eq_bind, Option.bind_some,
    Option.pure_def, Nat.mul_zero, Nat.zero_add, hunit]
  rw [if_neg (by omega)]
  exact congrArg (fun c => some (c, rest)) (Fin.ofNat_val_eq_self c)

/-- An escaped character is the one character it is read as. -/
theorem scanChar_escape (c : CodePoint) (rest : Text) :
    scanChar (escape c ++ rest) = some (c, rest) := by
  unfold escape
  split_ifs with hq hb hn hr ht hf hbs hc
  · subst hq
    rfl
  · subst hb
    rfl
  · obtain rfl : c = 10 := Fin.ext hn
    rfl
  · obtain rfl : c = 13 := Fin.ext hr
    rfl
  · obtain rfl : c = 9 := Fin.ext ht
    rfl
  · obtain rfl : c = 12 := Fin.ext hf
    rfl
  · obtain rfl : c = 8 := Fin.ext hbs
    rfl
  · exact scanUnicode_control hc rest
  · simp [scanChar, hb, hc]

/-- Only the end of a string is a bare quote. -/
theorem head?_escape (c : CodePoint) (rest : Text) : (escape c ++ rest).head? ≠ some quote := by
  have hbackslash : some backslash ≠ some quote := by decide
  unfold escape
  split_ifs with hq
  iterate 8 exact hbackslash
  exact fun h => hq (Option.some.inj h)

theorem scanString_escape (s rest : Text) (fuel : ℕ)
    (hfuel : (s.flatMap escape ++ quote :: rest).length ≤ fuel) :
    scanString fuel (s.flatMap escape ++ quote :: rest) = some (s, rest) := by
  induction fuel generalizing s with
  | zero => simp at hfuel
  | succ fuel ih =>
    cases s with
    | nil =>
      show scanString (fuel + 1) (quote :: rest) = _
      rw [scanString]
      exact if_pos rfl
    | cons c s =>
      rw [List.flatMap_cons, List.append_assoc] at hfuel ⊢
      have hlength : 0 < (escape c).length := by
        apply List.length_pos_of_ne_nil
        intro hnil
        have hread := scanChar_escape c []
        rw [hnil] at hread
        cases hread
      rw [scanString, if_neg (head?_escape c _), scanChar_escape]
      have hs := ih s (by rw [List.length_append] at hfuel; omega)
      simp only [Option.bind_eq_bind, Option.bind_some, hs, Option.pure_def]

/-! ## Values are read back -/

namespace Json

section All

variable (numbers : Number → Prop) (objects : List (Text × Json) → Prop)

mutual

/-- What holds of all the numbers of a value, and of the members of all its objects. -/
def All : Json → Prop
  | .num n => numbers n
  | .arr xs => AllItems xs
  | .obj ms => objects ms ∧ AllMembers ms
  | _ => True

def AllItems : List Json → Prop
  | [] => True
  | x :: xs => All x ∧ AllItems xs

def AllMembers : List (Text × Json) → Prop
  | [] => True
  | (_, v) :: ms => All v ∧ AllMembers ms

end

variable {numbers objects}

theorem allItems_iff {xs : List Json} :
    AllItems numbers objects xs ↔ ∀ x ∈ xs, All numbers objects x := by
  induction xs with
  | nil => simp [AllItems]
  | cons x xs ih => rw [AllItems, ih, List.forall_mem_cons]

theorem allMembers_iff {ms : List (Text × Json)} :
    AllMembers numbers objects ms ↔ ∀ m ∈ ms, All numbers objects m.2 := by
  induction ms with
  | nil => simp [AllMembers]
  | cons m ms ih => rw [AllMembers, ih, List.forall_mem_cons]

mutual

theorem All.and {p q r : Number → Prop} {P Q R : List (Text × Json) → Prop}
    (hnumbers : ∀ n, p n → q n → r n) (hobjects : ∀ ms, P ms → Q ms → R ms) :
    ∀ {j : Json}, All p P j → All q Q j → All r R j
  | .num _, h, h' => hnumbers _ h h'
  | .arr _, h, h' => AllItems.and hnumbers hobjects h h'
  | .obj _, h, h' => ⟨hobjects _ h.1 h'.1, AllMembers.and hnumbers hobjects h.2 h'.2⟩
  | .null, _, _ | .bool _, _, _ | .str _, _, _ => trivial

theorem AllItems.and {p q r : Number → Prop} {P Q R : List (Text × Json) → Prop}
    (hnumbers : ∀ n, p n → q n → r n) (hobjects : ∀ ms, P ms → Q ms → R ms) :
    ∀ {xs : List Json}, AllItems p P xs → AllItems q Q xs → AllItems r R xs
  | [], _, _ => trivial
  | _ :: _, h, h' => ⟨All.and hnumbers hobjects h.1 h'.1, AllItems.and hnumbers hobjects h.2 h'.2⟩

theorem AllMembers.and {p q r : Number → Prop} {P Q R : List (Text × Json) → Prop}
    (hnumbers : ∀ n, p n → q n → r n) (hobjects : ∀ ms, P ms → Q ms → R ms) :
    ∀ {ms : List (Text × Json)}, AllMembers p P ms → AllMembers q Q ms → AllMembers r R ms
  | [], _, _ => trivial
  | (_, _) :: _, h, h' =>
    ⟨All.and hnumbers hobjects h.1 h'.1, AllMembers.and hnumbers hobjects h.2 h'.2⟩

end

mutual

/-- The order of members does not matter to what holds of a canonical document. -/
theorem all_canon
    (hobjects : ∀ ms, objects (PySorted.sortedBy Prod.fst (canonMembers ms)) ↔ objects ms) :
    ∀ j : Json, All numbers objects (canon j) ↔ All numbers objects j
  | .null | .bool _ | .num _ | .str _ => Iff.rfl
  | .arr xs => allItems_canonItems hobjects xs
  | .obj ms => by
    rw [canon, All, All, hobjects, allMembers_iff]
    apply and_congr_right'
    simp only [PySorted.mem_sortedBy]
    rw [← allMembers_iff]
    exact allMembers_canonMembers hobjects ms

theorem allItems_canonItems
    (hobjects : ∀ ms, objects (PySorted.sortedBy Prod.fst (canonMembers ms)) ↔ objects ms) :
    ∀ xs : List Json, AllItems numbers objects (canonItems xs) ↔ AllItems numbers objects xs
  | [] => Iff.rfl
  | x :: xs => and_congr (all_canon hobjects x) (allItems_canonItems hobjects xs)

theorem allMembers_canonMembers
    (hobjects : ∀ ms, objects (PySorted.sortedBy Prod.fst (canonMembers ms)) ↔ objects ms) :
    ∀ ms : List (Text × Json),
      AllMembers numbers objects (canonMembers ms) ↔ AllMembers numbers objects ms
  | [] => Iff.rfl
  | (_, v) :: ms => and_congr (all_canon hobjects v) (allMembers_canonMembers hobjects ms)

end

end All

/-- No object has a key twice. -/
abbrev Distinct (j : Json) : Prop := All (fun _ => True) (fun ms => (ms.map Prod.fst).Nodup) j

/-- The decoder has the numbers of a value for their texts and the objects for their members. -/
abbrev Readable (d : Decoder) (j : Json) : Prop :=
  All d.Reads (fun ms => d.object ms = some (.obj ms)) j

abbrev ReadableItems (d : Decoder) (xs : List Json) : Prop :=
  AllItems d.Reads (fun ms => d.object ms = some (.obj ms)) xs

abbrev ReadableMembers (d : Decoder) (ms : List (Text × Json)) : Prop :=
  AllMembers d.Reads (fun ms => d.object ms = some (.obj ms)) ms

end Json

theorem skipBlank_append {s : Text} (h : ∀ c ∈ s, isBlank c) (rest : Text) :
    skipBlank (s ++ rest) = skipBlank rest :=
  List.dropWhile_append_of_pos h

theorem skipBlank_cons {c : CodePoint} (h : isBlank c = false) (s : Text) :
    skipBlank (c :: s) = c :: s := by
  rw [skipBlank, List.dropWhile_cons_of_neg (by simp [h])]

/-- A value starts with an ASCII character that does not stand behind one. -/
theorem renderIn_head (layout : Layout) (depth : ℕ) (j : Json) :
    ∃ c rest, renderIn layout depth j = c :: rest ∧ isDelimiter c = false ∧ c.val < 128 := by
  cases j with
  | null => exact ⟨_, _, rfl, by decide, by decide⟩
  | bool b => cases b <;> exact ⟨_, _, rfl, by decide, by decide⟩
  | num n =>
    obtain ⟨c, rest, htext, hc⟩ := Number.text_start n
    refine ⟨c, rest, htext, ?_⟩
    simp only [isNumberStart, Bool.or_eq_true, decide_eq_true_eq] at hc
    rcases hc with (hdigit | rfl) | rfl
    · refine ⟨isDelimiter_digit hdigit, ?_⟩
      simp only [isDigit, Bool.and_eq_true, decide_eq_true_eq] at hdigit
      omega
    · exact ⟨by decide, by decide⟩
    · exact ⟨by decide, by decide⟩
  | str s => exact ⟨_, _, rfl, by decide, by decide⟩
  | arr xs => cases xs <;> exact ⟨_, _, rfl, by decide, by decide⟩
  | obj ms => cases ms <;> exact ⟨_, _, rfl, by decide, by decide⟩

theorem renderMemberIn_head (layout : Layout) (depth : ℕ) (m : Text × Json) :
    ∃ rest, renderMemberIn layout depth m = quote :: rest := by
  obtain ⟨k, v⟩ := m
  exact ⟨_, by rw [renderMemberIn, renderString]; rfl⟩

theorem scanSeparator_close {close : CodePoint} (hclose : isBlank close = false) {space : Text}
    (hspace : ∀ c ∈ space, isBlank c) (rest : Text) :
    scanSeparator close (space ++ close :: rest) = some (false, rest) := by
  rw [scanSeparator, skipBlank_append hspace, skipBlank_cons hclose]
  exact if_pos rfl

theorem scanSeparator_comma {close : CodePoint} (hclose : ofChar ',' ≠ close) {space : Text}
    (hspace : ∀ c ∈ space, isBlank c) {c : CodePoint} (hc : isBlank c = false) (rest : Text) :
    scanSeparator close (ofChar ',' :: (space ++ c :: rest)) = some (true, c :: rest) := by
  rw [scanSeparator, skipBlank_cons (by decide)]
  show (if ofChar ',' = close then _ else if ofChar ',' = ofChar ',' then _ else _) = _
  rw [if_neg hclose, if_pos rfl, skipBlank_append hspace, skipBlank_cons hc]

section Readers

variable {d : Decoder} {layout : Layout}

theorem ends_renderItemsIn (depth : ℕ) (xs : List Json) (rest : Text) :
    Ends (renderItemsIn layout depth xs ++ rest) := by
  cases xs with
  | nil =>
    rw [renderItemsIn, List.append_assoc]
    cases hspace : layout.newline depth with
    | nil => exact ends_cons (by decide)
    | cons c space =>
      apply ends_cons
      rw [isDelimiter, layout.newline_blank depth c (by simp [hspace]), Bool.true_or]
  | cons x xs => exact ends_cons (by decide)

theorem ends_renderMembersIn (depth : ℕ) (ms : List (Text × Json)) (rest : Text) :
    Ends (renderMembersIn layout depth ms ++ rest) := by
  cases ms with
  | nil =>
    rw [renderMembersIn, List.append_assoc]
    cases hspace : layout.newline depth with
    | nil => exact ends_cons (by decide)
    | cons c space =>
      apply ends_cons
      rw [isDelimiter, layout.newline_blank depth c (by simp [hspace]), Bool.true_or]
  | cons m ms => exact ends_cons (by decide)

theorem scanScalar_num {n : Number} {rest : Text} (hn : d.Reads n) (h : Ends rest) :
    scanScalar d (n.text ++ rest) = some (.num n, rest) := by
  obtain ⟨c, tail, htext, hc⟩ := n.text_start
  have hword : ∀ w word, isNumberStart w = false → literal (w :: word) (n.text ++ rest) = none := by
    intro w word hw
    apply if_neg
    rintro ⟨_, hprefix⟩
    rw [htext] at hprefix
    rw [(List.cons.inj hprefix).1, hc] at hw
    cases hw
  have hnull : literal (txt "null") (n.text ++ rest) = none := hword _ _ (by decide)
  have htrue : literal (txt "true") (n.text ++ rest) = none := hword _ _ (by decide)
  have hfalse : literal (txt "false") (n.text ++ rest) = none := hword _ _ (by decide)
  rw [scanScalar, hnull, htrue, hfalse, scanNumber_append hn h]
  rfl

mutual

/-- A value that is written in a layout is read back, and nothing behind it. -/
theorem scanValue_renderIn (depth : ℕ) : ∀ (j : Json) (fuel : ℕ) (rest : Text), j.Readable d →
    Ends rest → (renderIn layout depth j ++ rest).length ≤ fuel →
    scanValue d fuel (renderIn layout depth j ++ rest) = some (j, rest)
  | .null, fuel + 1, rest, _, _, _ => rfl
  | .bool false, fuel + 1, rest, _, _, _ => rfl
  | .bool true, fuel + 1, rest, _, _, _ => rfl
  | .num n, fuel + 1, rest, hn, hrest, _ => by
    obtain ⟨c, tail, htext, hc⟩ := n.text_start
    have hne : ∀ b, isNumberStart b = false → c ≠ b := by
      rintro b hb rfl
      rw [hc] at hb
      cases hb
    have hscalar := scanScalar_num hn hrest
    rw [renderIn, htext] at *
    rw [List.cons_append, scanValue, if_neg (hne _ (by decide)), if_neg (hne _ (by decide)),
      if_neg (hne _ (by decide))]
    exact hscalar
  | .str s, fuel + 1, rest, _, _, hfuel => by
    have htext : renderIn layout depth (.str s) ++ rest =
        quote :: (s.flatMap escape ++ quote :: rest) := by
      simp [renderIn, renderString]
    rw [htext] at hfuel ⊢
    rw [scanValue, if_pos rfl, scanString_escape s rest fuel (by
      rw [List.length_cons] at hfuel; omega)]
    rfl
  | .arr [], fuel + 1, rest, _, _, _ => rfl
  | .arr (x :: xs), fuel + 1, rest, hxs, hrest, hfuel => by
    obtain ⟨c, tail, hx, hc, -⟩ := renderIn_head layout (depth + 1) x
    have htext : renderIn layout depth (.arr (x :: xs)) ++ rest = ofChar '[' ::
        (layout.newline (depth + 1) ++ (renderIn layout (depth + 1) x ++
          (renderItemsIn layout depth xs ++ rest))) := by
      simp [renderIn]
    have hskip : skipBlank (layout.newline (depth + 1) ++ (renderIn layout (depth + 1) x ++
        (renderItemsIn layout depth xs ++ rest))) = renderIn layout (depth + 1) x ++
          (renderItemsIn layout depth xs ++ rest) := by
      rw [skipBlank_append (layout.newline_blank _), hx, List.cons_append,
        skipBlank_cons (Bool.or_eq_false_iff.mp hc).1]
    rw [htext] at hfuel ⊢
    have hclose : (renderIn layout (depth + 1) x ++
        (renderItemsIn layout depth xs ++ rest)).head? ≠ some (ofChar ']') := by
      rw [hx]
      exact fun h => ne_of_delimiter hc (by decide) (Option.some.inj h)
    have hlength : (renderIn layout (depth + 1) x ++
        (renderItemsIn layout depth xs ++ rest)).length ≤ fuel := by
      simp only [List.length_cons, List.length_append] at hfuel ⊢
      omega
    rw [scanValue, if_neg (by decide), if_pos rfl, hskip, if_neg hclose,
      scanValue_renderIn (depth + 1) x fuel _ hxs.1 (ends_renderItemsIn depth xs rest) hlength]
    have hitems := scanItems_renderItemsIn depth xs fuel rest hxs.2 (by
      rw [List.length_append] at hlength; omega)
    simp only [Option.bind_eq_bind, Option.bind_some, hitems, Option.pure_def]
  | .obj [], fuel + 1, rest, hms, _, _ => by
    show (d.object []).map _ = _
    rw [hms.1]
    rfl
  | .obj (m :: ms), fuel + 1, rest, hms, hrest, hfuel => by
    have htext : renderIn layout depth (.obj (m :: ms)) ++ rest = ofChar '{' ::
        (layout.newline (depth + 1) ++ (renderMemberIn layout depth m ++
          (renderMembersIn layout depth ms ++ rest))) := by
      simp [renderIn]
    obtain ⟨tail, hm⟩ := renderMemberIn_head layout depth m
    have hskip : skipBlank (layout.newline (depth + 1) ++ (renderMemberIn layout depth m ++
        (renderMembersIn layout depth ms ++ rest))) = renderMemberIn layout depth m ++
          (renderMembersIn layout depth ms ++ rest) := by
      rw [skipBlank_append (layout.newline_blank _), hm, List.cons_append,
        skipBlank_cons (by decide)]
    rw [htext] at hfuel ⊢
    have hclose : (renderMemberIn layout depth m ++
        (renderMembersIn layout depth ms ++ rest)).head? ≠ some (ofChar '}') := by
      rw [hm]
      exact (show some quote ≠ some (ofChar '}') by decide)
    have hlength : (renderMemberIn layout depth m ++
        (renderMembersIn layout depth ms ++ rest)).length ≤ fuel := by
      simp only [List.length_cons, List.length_append] at hfuel ⊢
      omega
    obtain ⟨hobject, hvalue, hmembers⟩ := id hms
    rw [scanValue, if_neg (by decide), if_neg (by decide), if_pos rfl, hskip, if_neg hclose,
      scanMember_renderMemberIn depth m fuel _ hvalue (ends_renderMembersIn depth ms rest) hlength]
    have hmembers := scanMembers_renderMembersIn depth ms fuel rest hmembers (by
      rw [List.length_append] at hlength; omega)
    simp only [Option.bind_eq_bind, Option.bind_some, hmembers, hobject, Option.pure_def]
  | j, 0, rest, _, _, hfuel => by
    obtain ⟨c, tail, hj, -⟩ := renderIn_head layout depth j
    rw [hj] at hfuel
    simp at hfuel

theorem scanItems_renderItemsIn (depth : ℕ) : ∀ (xs : List Json) (fuel : ℕ) (rest : Text),
    Json.ReadableItems d xs → (renderItemsIn layout depth xs ++ rest).length ≤ fuel →
    scanItems d fuel (renderItemsIn layout depth xs ++ rest) = some (xs, rest)
  | [], fuel + 1, rest, _, _ => by
    rw [renderItemsIn, List.append_assoc, scanItems]
    show (scanSeparator _ (layout.newline depth ++ ofChar ']' :: rest) >>= _) = _
    rw [scanSeparator_close (by decide) (layout.newline_blank depth)]
    rfl
  | x :: xs, fuel + 1, rest, hxs, hfuel => by
    obtain ⟨c, tail, hx, hc, -⟩ := renderIn_head layout (depth + 1) x
    have htext : renderItemsIn layout depth (x :: xs) ++ rest = ofChar ',' ::
        (layout.newline (depth + 1) ++ (renderIn layout (depth + 1) x ++
          (renderItemsIn layout depth xs ++ rest))) := by
      simp [renderItemsIn]
    have hseparator : scanSeparator (ofChar ']') (ofChar ',' :: (layout.newline (depth + 1) ++
        (renderIn layout (depth + 1) x ++ (renderItemsIn layout depth xs ++ rest)))) =
          some (true, renderIn layout (depth + 1) x ++ (renderItemsIn layout depth xs ++ rest)) := by
      rw [hx, List.cons_append]
      exact scanSeparator_comma (by decide) (layout.newline_blank _)
        (Bool.or_eq_false_iff.mp hc).1 _
    rw [htext] at hfuel ⊢
    have hlength : (renderIn layout (depth + 1) x ++
        (renderItemsIn layout depth xs ++ rest)).length ≤ fuel := by
      simp only [List.length_cons, List.length_append] at hfuel ⊢
      omega
    have hvalue := scanValue_renderIn (depth + 1) x fuel _ hxs.1 (ends_renderItemsIn depth xs rest)
      hlength
    have hitems := scanItems_renderItemsIn depth xs fuel rest hxs.2 (by
      rw [List.length_append] at hlength; omega)
    simp only [scanItems, hseparator, hvalue, hitems, Option.bind_eq_bind, Option.bind_some,
      Option.pure_def, if_true]
  | [], 0, rest, _, hfuel => by
    simp [renderItemsIn] at hfuel
  | x :: xs, 0, rest, _, hfuel => by
    simp [renderItemsIn] at hfuel

theorem scanMember_renderMemberIn (depth : ℕ) : ∀ (m : Text × Json) (fuel : ℕ) (rest : Text),
    m.2.Readable d → Ends rest → (renderMemberIn layout depth m ++ rest).length ≤ fuel →
    scanMember d fuel (renderMemberIn layout depth m ++ rest) = some (m, rest)
  | (k, v), fuel + 1, rest, hv, hrest, hfuel => by
    obtain ⟨c, tail, hj, hc, -⟩ := renderIn_head layout (depth + 1) v
    have htext : renderMemberIn layout depth (k, v) ++ rest = quote :: (k.flatMap escape ++
        quote :: (ofChar ':' :: (layout.colonSpace ++ (renderIn layout (depth + 1) v ++ rest)))) := by
      simp [renderMemberIn, renderString]
    have hskip : skipBlank (layout.colonSpace ++ (renderIn layout (depth + 1) v ++ rest)) =
        renderIn layout (depth + 1) v ++ rest := by
      rw [skipBlank_append layout.colonSpace_blank, hj, List.cons_append,
        skipBlank_cons (Bool.or_eq_false_iff.mp hc).1]
    rw [htext] at hfuel ⊢
    have hkey := scanString_escape k (ofChar ':' :: (layout.colonSpace ++
      (renderIn layout (depth + 1) v ++ rest))) fuel (by
        rw [List.length_cons] at hfuel; omega)
    have hvalue := scanValue_renderIn (depth + 1) v fuel rest hv hrest (by
      simp only [List.length_cons, List.length_append] at hfuel ⊢
      omega)
    have hcolon : ∀ s : Text, literal [ofChar ':'] (skipBlank (ofChar ':' :: s)) = some s := by
      intro s
      rw [skipBlank_cons (by decide)]
      exact if_pos ⟨s, rfl⟩
    have hquote : ∀ s : Text, literal [quote] (quote :: s) = some s := fun s => if_pos ⟨s, rfl⟩
    simp only [scanMember, hquote, hkey, hcolon, hskip, hvalue, Option.bind_eq_bind,
      Option.bind_some, Option.pure_def]
  | (k, v), 0, rest, _, _, hfuel => by
    simp [renderMemberIn] at hfuel

theorem scanMembers_renderMembersIn (depth : ℕ) : ∀ (ms : List (Text × Json)) (fuel : ℕ)
    (rest : Text), Json.ReadableMembers d ms →
    (renderMembersIn layout depth ms ++ rest).length ≤ fuel →
    scanMembers d fuel (renderMembersIn layout depth ms ++ rest) = some (ms, rest)
  | [], fuel + 1, rest, _, _ => by
    rw [renderMembersIn, List.append_assoc, scanMembers]
    show (scanSeparator _ (layout.newline depth ++ ofChar '}' :: rest) >>= _) = _
    rw [scanSeparator_close (by decide) (layout.newline_blank depth)]
    rfl
  | m :: ms, fuel + 1, rest, hms, hfuel => by
    obtain ⟨tail, hm⟩ := renderMemberIn_head layout depth m
    have htext : renderMembersIn layout depth (m :: ms) ++ rest = ofChar ',' ::
        (layout.newline (depth + 1) ++ (renderMemberIn layout depth m ++
          (renderMembersIn layout depth ms ++ rest))) := by
      simp [renderMembersIn]
    have hseparator : scanSeparator (ofChar '}') (ofChar ',' :: (layout.newline (depth + 1) ++
        (renderMemberIn layout depth m ++ (renderMembersIn layout depth ms ++ rest)))) =
          some (true, renderMemberIn layout depth m ++
            (renderMembersIn layout depth ms ++ rest)) := by
      rw [hm, List.cons_append]
      exact scanSeparator_comma (by decide) (layout.newline_blank _) (by decide) _
    rw [htext] at hfuel ⊢
    have hlength : (renderMemberIn layout depth m ++
        (renderMembersIn layout depth ms ++ rest)).length ≤ fuel := by
      simp only [List.length_cons, List.length_append] at hfuel ⊢
      omega
    have hmember := scanMember_renderMemberIn depth m fuel _ hms.1
      (ends_renderMembersIn depth ms rest) hlength
    have hmembers := scanMembers_renderMembersIn depth ms fuel rest hms.2 (by
      rw [List.length_append] at hlength; omega)
    simp only [scanMembers, hseparator, hmember, hmembers, Option.bind_eq_bind, Option.bind_some,
      Option.pure_def, if_true]
  | [], 0, rest, _, hfuel => by
    simp [renderMembersIn] at hfuel
  | m :: ms, 0, rest, _, hfuel => by
    simp [renderMembersIn] at hfuel

end

/-- What is written in a layout is read back. -/
theorem decode_renderIn {j : Json} (hj : j.Readable d) {space : Text}
    (hspace : ∀ c ∈ space, isBlank c) : decode d (renderIn layout 0 j ++ space) = some j := by
  obtain ⟨c, tail, hhead, hc, -⟩ := renderIn_head layout 0 j
  have hskip : skipBlank (renderIn layout 0 j ++ space) = renderIn layout 0 j ++ space := by
    rw [hhead, List.cons_append, skipBlank_cons (Bool.or_eq_false_iff.mp hc).1]
  have hvalue : scanValue d ((renderIn layout 0 j ++ space).length + 1)
      (renderIn layout 0 j ++ space) = some (j, space) :=
    scanValue_renderIn 0 j _ space hj (ends_of_blank hspace) (Nat.le_succ _)
  have hend : skipBlank space = [] := by
    have happend := skipBlank_append hspace []
    rwa [List.append_nil] at happend
  rw [decode, hskip, hvalue]
  exact if_pos hend

theorem loads_renderIn {j : Json} (hj : j.Readable d) {space : Text}
    (hspace : ∀ c ∈ space, isBlank c) : loads d (renderIn layout 0 j ++ space) = some j := by
  obtain ⟨c, tail, hhead, -, hascii⟩ := renderIn_head layout 0 j
  rw [loads, if_neg, decode_renderIn hj hspace]
  rw [hhead]
  rintro ⟨⟩
  exact absurd hascii (by decide)

end Readers

/-! ## What is read -/

section Sound

variable {d : Decoder} {objects : List (Text × Json) → Prop}

theorem scanScalar_all {s : Text} {p : Json × Text} (h : scanScalar d s = some p) :
    p.1.All (fun _ => True) objects := by
  unfold scanScalar at h
  split at h
  · cases h
    trivial
  · cases h
    trivial
  · cases h
    trivial
  · obtain ⟨n, -, rfl⟩ := Option.map_eq_some_iff.mp h
    trivial

/-- The members of every object that is read went through the hook. -/
theorem scan_all (hobject : ∀ ms j, d.object ms = some j → j = .obj ms ∧ objects ms) (fuel : ℕ) :
    (∀ s p, scanValue d fuel s = some p → p.1.All (fun _ => True) objects) ∧
    (∀ s p, scanItems d fuel s = some p → Json.AllItems (fun _ => True) objects p.1) ∧
    (∀ s p, scanMember d fuel s = some p → p.1.2.All (fun _ => True) objects) ∧
    (∀ s p, scanMembers d fuel s = some p → Json.AllMembers (fun _ => True) objects p.1) := by
  induction fuel with
  | zero => refine ⟨?_, ?_, ?_, ?_⟩ <;> rintro s p ⟨⟩
  | succ fuel ih =>
    obtain ⟨hvalue, hitems, hmember, hmembers⟩ := ih
    refine ⟨fun s p h => ?_, fun s p h => ?_, fun s p h => ?_, fun s p h => ?_⟩
    · unfold scanValue at h
      cases s with
      | nil => cases h
      | cons c rest =>
        dsimp only at h
        split_ifs at h
        · obtain ⟨q, -, rfl⟩ := Option.map_eq_some_iff.mp h
          trivial
        · cases h
          trivial
        · simp only [Option.bind_eq_bind, Option.bind_eq_some_iff, Option.pure_def] at h
          obtain ⟨q, hq, r, hr, h⟩ := h
          obtain rfl := Option.some.inj h
          exact ⟨hvalue _ _ hq, hitems _ _ hr⟩
        · obtain ⟨j, hj, rfl⟩ := Option.map_eq_some_iff.mp h
          obtain ⟨rfl, hms⟩ := hobject _ _ hj
          exact ⟨hms, trivial⟩
        · simp only [Option.bind_eq_bind, Option.bind_eq_some_iff, Option.pure_def] at h
          obtain ⟨q, hq, r, hr, j, hj, h⟩ := h
          obtain ⟨rfl, hms⟩ := hobject _ _ hj
          obtain rfl := Option.some.inj h
          exact ⟨hms, hmember _ _ hq, hmembers _ _ hr⟩
        · exact scanScalar_all h
    · simp only [scanItems, Option.bind_eq_bind, Option.bind_eq_some_iff, Option.pure_def] at h
      obtain ⟨⟨more, rest⟩, -, h⟩ := h
      cases more with
      | false =>
        obtain rfl := Option.some.inj h
        trivial
      | true =>
        simp only [if_true, Option.bind_eq_some_iff] at h
        obtain ⟨q, hq, r, hr, h⟩ := h
        obtain rfl := Option.some.inj h
        exact ⟨hvalue _ _ hq, hitems _ _ hr⟩
    · simp only [scanMember, Option.bind_eq_bind, Option.bind_eq_some_iff, Option.pure_def] at h
      obtain ⟨_, -, _, -, _, -, q, hq, h⟩ := h
      obtain rfl := Option.some.inj h
      exact hvalue _ _ hq
    · simp only [scanMembers, Option.bind_eq_bind, Option.bind_eq_some_iff, Option.pure_def] at h
      obtain ⟨⟨more, rest⟩, -, h⟩ := h
      cases more with
      | false =>
        obtain rfl := Option.some.inj h
        trivial
      | true =>
        simp only [if_true, Option.bind_eq_some_iff] at h
        obtain ⟨q, hq, r, hr, h⟩ := h
        obtain rfl := Option.some.inj h
        exact ⟨hmember _ _ hq, hmembers _ _ hr⟩

theorem decode_all (hobject : ∀ ms j, d.object ms = some j → j = .obj ms ∧ objects ms) {s : Text}
    {j : Json} (h : decode d s = some j) : j.All (fun _ => True) objects := by
  unfold decode at h
  split at h
  · next j' rest hscan =>
    split_ifs at h
    obtain rfl := Option.some.inj h
    exact (scan_all hobject _).1 _ _ hscan
  · cases h

theorem loadsBytes_all (hobject : ∀ ms j, d.object ms = some j → j = .obj ms ∧ objects ms)
    {wide : Bytes → Option Text} {bytes : Bytes} {j : Json} (h : loadsBytes wide d bytes = some j) :
    j.All (fun _ => True) objects := by
  obtain ⟨text, -, h⟩ := Option.bind_eq_some_iff.mp h
  exact decode_all hobject h

end Sound

/-! ## Bytes are read back -/

theorem hexDigit_printable (n : ℕ) : 32 ≤ (hexDigit n).val := by
  have hn : n % 16 < 16 := Nat.mod_lt _ (by decide)
  have h : ∀ k : Fin 16, 32 ≤ (hexDigit k.val).val := by decide
  have hmod : hexDigit (n % 16) = hexDigit n := by simp [hexDigit]
  exact hmod ▸ h ⟨n % 16, hn⟩

/-- Control characters are escaped. -/
theorem escape_printable (c : CodePoint) : ∀ e ∈ escape c, 32 ≤ e.val := by
  have hplain : ∀ s : Text, s.all (fun e => 32 ≤ e.val) → ∀ e ∈ s, 32 ≤ e.val := fun s hs => by
    simpa using hs
  unfold escape
  split_ifs with _ _ _ _ _ _ _ hc
  iterate 7 exact hplain _ (by decide)
  · rw [List.forall_mem_append]
    refine ⟨hplain _ (by decide), ?_⟩
    simp [hexDigit_printable]
  · rw [List.forall_mem_singleton]
    exact Nat.le_of_not_lt hc

theorem renderString_printable (s : Text) : ∀ c ∈ renderString s, 32 ≤ c.val := by
  intro c hc
  rcases List.mem_cons.mp hc with rfl | hc
  · decide
  · rcases List.mem_append.mp hc with hc | hc
    · obtain ⟨e, -, hc⟩ := List.mem_flatMap.mp hc
      exact escape_printable e c hc
    · rw [List.mem_singleton.mp hc]
      decide

theorem number_printable (n : Number) : ∀ c ∈ n.text, 32 ≤ c.val := by
  have hmarks : (txt "+-.eInfity").all (fun c => 32 ≤ c.val) := by decide
  intro c hc
  have hchar := n.text_chars c hc
  simp only [isNumberChar, Bool.or_eq_true, decide_eq_true_eq] at hchar
  rcases hchar with hdigit | hmark
  · simp only [isDigit, Bool.and_eq_true, decide_eq_true_eq] at hdigit
    omega
  · simpa using List.all_eq_true.mp hmarks c hmark

section

variable {layout : Layout}

mutual

/-- The characters of a text are printable, or white space of the layout. -/
theorem renderIn_forall {p : CodePoint → Prop} (hprintable : ∀ c : CodePoint, 32 ≤ c.val → p c)
    (hnewline : ∀ depth, ∀ c ∈ layout.newline depth, p c) (hcolon : ∀ c ∈ layout.colonSpace, p c)
    (depth : ℕ) : ∀ j : Json, ∀ c ∈ renderIn layout depth j, p c
  | .null => by simp [renderIn, txt, hprintable, ofChar]
  | .bool false => by simp [renderIn, txt, hprintable, ofChar]
  | .bool true => by simp [renderIn, txt, hprintable, ofChar]
  | .num n => by
    rw [renderIn]
    exact fun c hc => hprintable c (number_printable n c hc)
  | .str s => by
    rw [renderIn]
    exact fun c hc => hprintable c (renderString_printable s c hc)
  | .arr [] => by simp [renderIn, txt, hprintable, ofChar]
  | .arr (x :: xs) => by
    rw [renderIn, List.forall_mem_cons, List.forall_mem_append, List.forall_mem_append]
    exact ⟨hprintable _ (by decide), hnewline _,
      renderIn_forall hprintable hnewline hcolon (depth + 1) x,
      renderItemsIn_forall hprintable hnewline hcolon depth xs⟩
  | .obj [] => by simp [renderIn, txt, hprintable, ofChar]
  | .obj (m :: ms) => by
    rw [renderIn, List.forall_mem_cons, List.forall_mem_append, List.forall_mem_append]
    exact ⟨hprintable _ (by decide), hnewline _,
      renderMemberIn_forall hprintable hnewline hcolon depth m,
      renderMembersIn_forall hprintable hnewline hcolon depth ms⟩

theorem renderItemsIn_forall {p : CodePoint → Prop} (hprintable : ∀ c : CodePoint, 32 ≤ c.val → p c)
    (hnewline : ∀ depth, ∀ c ∈ layout.newline depth, p c) (hcolon : ∀ c ∈ layout.colonSpace, p c)
    (depth : ℕ) : ∀ xs : List Json, ∀ c ∈ renderItemsIn layout depth xs, p c
  | [] => by
    rw [renderItemsIn, List.forall_mem_append, List.forall_mem_singleton]
    exact ⟨hnewline _, hprintable _ (by decide)⟩
  | x :: xs => by
    rw [renderItemsIn, List.forall_mem_cons, List.forall_mem_append, List.forall_mem_append]
    exact ⟨hprintable _ (by decide), hnewline _,
      renderIn_forall hprintable hnewline hcolon (depth + 1) x,
      renderItemsIn_forall hprintable hnewline hcolon depth xs⟩

theorem renderMemberIn_forall {p : CodePoint → Prop}
    (hprintable : ∀ c : CodePoint, 32 ≤ c.val → p c)
    (hnewline : ∀ depth, ∀ c ∈ layout.newline depth, p c) (hcolon : ∀ c ∈ layout.colonSpace, p c)
    (depth : ℕ) : ∀ m : Text × Json, ∀ c ∈ renderMemberIn layout depth m, p c
  | (k, v) => by
    rw [renderMemberIn, List.forall_mem_append, List.forall_mem_cons, List.forall_mem_append]
    exact ⟨fun c hc => hprintable c (renderString_printable k c hc), hprintable _ (by decide),
      hcolon, renderIn_forall hprintable hnewline hcolon (depth + 1) v⟩

theorem renderMembersIn_forall {p : CodePoint → Prop}
    (hprintable : ∀ c : CodePoint, 32 ≤ c.val → p c)
    (hnewline : ∀ depth, ∀ c ∈ layout.newline depth, p c) (hcolon : ∀ c ∈ layout.colonSpace, p c)
    (depth : ℕ) : ∀ ms : List (Text × Json), ∀ c ∈ renderMembersIn layout depth ms, p c
  | [] => by
    rw [renderMembersIn, List.forall_mem_append, List.forall_mem_singleton]
    exact ⟨hnewline _, hprintable _ (by decide)⟩
  | m :: ms => by
    rw [renderMembersIn, List.forall_mem_cons, List.forall_mem_append, List.forall_mem_append]
    exact ⟨hprintable _ (by decide), hnewline _,
      renderMemberIn_forall hprintable hnewline hcolon depth m,
      renderMembersIn_forall hprintable hnewline hcolon depth ms⟩

end

end

theorem ne_zero_of_isBlank {c : CodePoint} (h : isBlank c) : c.val ≠ 0 := by
  intro hc
  obtain rfl : c = 0 := Fin.ext hc
  exact absurd h (by decide)

/-- No text has a zero character. -/
theorem renderIn_ne_zero (layout : Layout) (depth : ℕ) (j : Json) :
    ∀ c ∈ renderIn layout depth j, c.val ≠ 0 :=
  renderIn_forall (fun c hc => by omega)
    (fun depth c hc => ne_zero_of_isBlank (layout.newline_blank depth c hc))
    (fun c hc => ne_zero_of_isBlank (layout.colonSpace_blank c hc)) depth j

/-- Bytes that start with an ASCII character and have no zero are UTF-8. -/
theorem detectEncoding_eq_utf8 {bytes : List UInt8} (hzero : ∀ b ∈ bytes, b.toNat ≠ 0)
    {b : UInt8} (hhead : bytes.head? = some b) (hascii : b.toNat < 128) :
    detectEncoding bytes = .utf8 := by
  cases bytes with
  | nil => cases hhead
  | cons b' rest =>
    obtain rfl : b' = b := Option.some.inj hhead
    have hmark : ∀ (d : UInt8) (word : List UInt8), d.toNat = 0 ∨ 128 ≤ d.toNat →
        ¬ d :: word <+: b' :: rest := by
      rintro d word hd hprefix
      obtain ⟨rfl, -⟩ := List.cons_prefix_cons.mp hprefix
      have hb := hzero d List.mem_cons_self
      omega
    have hne : ∀ b ∈ b' :: rest, b ≠ 0 := by
      rintro b hb rfl
      exact hzero 0 hb rfl
    unfold detectEncoding
    rw [if_neg (not_or.mpr ⟨hmark _ _ (.inl rfl), hmark _ _ (.inr (by decide))⟩),
      if_neg (not_or.mpr ⟨hmark _ _ (.inr (by decide)), hmark _ _ (.inr (by decide))⟩),
      if_neg (hmark _ _ (.inr (by decide)))]
    match rest, hne with
    | [], _ => rfl
    | [b₁], hne =>
      simp only [List.forall_mem_cons] at hne
      exact if_neg (not_or.mpr ⟨hne.1, hne.2.1⟩)
    | [_, _], _ => rfl
    | b₁ :: b₂ :: b₃ :: rest, hne =>
      simp only [List.forall_mem_cons] at hne
      show (if b' = 0 then _ else if b₁ = 0 then _ else _) = _
      rw [if_neg hne.1, if_neg hne.2.1]

/-- A document that is written as UTF-8 in a layout is read back from its bytes. -/
theorem loadsBytes_renderIn (wide : Bytes → Option Text) {d : Decoder} {layout : Layout} {j : Json}
    (hj : j.Readable d) {bytes : Bytes}
    (hbytes : encodeUtf8 (renderIn layout 0 j) = some bytes) :
    loadsBytes wide d bytes = some j := by
  obtain ⟨c, tail, hhead, -, hascii⟩ := renderIn_head layout 0 j
  have hzero := bytes_ne_zero hbytes (renderIn_ne_zero layout 0 j)
  have hfirst : (renderIn layout 0 j).head? = some c := by
    rw [hhead]
    rfl
  have hbyte := head?_bytes hbytes hfirst hascii
  have hencoding := detectEncoding_eq_utf8 hzero hbyte (by
    rw [toNat_ofNat (by omega)]; exact hascii)
  have hdecode : decode d (renderIn layout 0 j ++ []) = some j := decode_renderIn hj (by simp)
  rw [List.append_nil] at hdecode
  rw [loadsBytes, decodeBytes, hencoding]
  show (decodeUtf8 true bytes).bind _ = _
  rw [decodeUtf8_encodeUtf8 true hbytes]
  exact hdecode

end PyJson
