import Threadline.PyText
import Threadline.PySorted

/-!
# JSON texts

`json.dumps(value, sort_keys=True, separators=(",", ":"), ensure_ascii=False)`:
objects are written with their keys in order. The writer separates values, so
two values with one canonical text differ at most in the order of their keys.
-/

open PyText PySorted

namespace PyJson

set_option maxRecDepth 4096

/-- Characters of a number token. -/
def isNumberChar (c : CodePoint) : Bool := isDigit c || c ∈ txt "+-.eInfity"

def isNumberStart (c : CodePoint) : Bool := isDigit c || c = minus || c = ofChar 'I'

/-- The `repr` of a finite float: never the text of an integer. -/
structure FloatRepr where
  text : Text
  number_chars : ∀ c ∈ text, isNumberChar c
  fractional : ofChar '.' ∈ text ∨ ofChar 'e' ∈ text
  finite : ofChar 'I' ∉ text
  start : ∃ c, text.head? = some c ∧ isNumberStart c
  deriving DecidableEq

inductive Number
  | int (n : ℤ)
  | float (r : FloatRepr)
  | infinity (negative : Bool)
  deriving DecidableEq

namespace Number

def text : Number → Text
  | .int n => intText n
  | .float r => r.text
  | .infinity false => txt "Infinity"
  | .infinity true => txt "-Infinity"

theorem intText_chars (n : ℤ) : ∀ c ∈ intText n, isDigit c ∨ c = minus := by
  intro c hc
  cases n with
  | ofNat n => exact .inl (natText_digits n c hc)
  | negSucc n =>
    rcases List.mem_cons.mp hc with hc | hc
    · exact .inr hc
    · exact .inl (natText_digits _ c hc)

theorem intText_not_mem (n : ℤ) {c : CodePoint} (hd : isDigit c = false) (hm : c ≠ minus) :
    c ∉ intText n := by
  intro hc
  rcases intText_chars n c hc with h | h
  · simp [hd] at h
  · exact hm h

theorem text_chars (n : Number) : ∀ c ∈ n.text, isNumberChar c := by
  cases n with
  | int n =>
    intro c hc
    rcases intText_chars n c hc with h | rfl
    · simp [isNumberChar, h]
    · decide
  | float r => exact r.number_chars
  | infinity b =>
    have h : ∀ b, (Number.infinity b).text.all isNumberChar = true := by decide
    exact List.all_eq_true.mp (h b)

theorem text_start (n : Number) : ∃ c rest, n.text = c :: rest ∧ isNumberStart c := by
  cases n with
  | int n =>
    cases n with
    | ofNat n =>
      obtain ⟨c, rest, h⟩ := List.exists_cons_of_ne_nil (natText_ne_nil n)
      have hd : isDigit c := natText_digits n c (by rw [h]; exact List.mem_cons_self)
      exact ⟨c, rest, h, by simp [isNumberStart, hd]⟩
    | negSucc n => exact ⟨minus, natText (n + 1), rfl, by decide⟩
  | float r =>
    obtain ⟨c, hc, hs⟩ := r.start
    obtain ⟨rest, hr⟩ := List.head?_eq_some_iff.mp hc
    exact ⟨c, rest, hr, hs⟩
  | infinity b => cases b <;> exact ⟨_, _, rfl, by decide⟩

theorem int_ne_float (n : ℤ) (r : FloatRepr) : intText n ≠ r.text := by
  intro h
  rcases r.fractional with hc | hc
  · exact intText_not_mem n (by decide) (by decide) (h ▸ hc)
  · exact intText_not_mem n (by decide) (by decide) (h ▸ hc)

theorem mem_infinity (b : Bool) : ofChar 'I' ∈ (Number.infinity b).text := by
  cases b <;> decide

theorem text_injective : Function.Injective text := by
  intro a b h
  cases a with
  | int n =>
    cases b with
    | int m => exact congrArg Number.int (intText_injective h)
    | float r => exact absurd h (int_ne_float n r)
    | infinity s => exact absurd (h ▸ mem_infinity s) (intText_not_mem n (by decide) (by decide))
  | float r =>
    cases b with
    | int m => exact absurd h.symm (int_ne_float m r)
    | float r' =>
      obtain ⟨t, _, _, _, _⟩ := r
      obtain ⟨t', _, _, _, _⟩ := r'
      obtain rfl : t = t' := h
      rfl
    | infinity s =>
      have hs : ofChar 'I' ∈ r.text := (show r.text = _ from h) ▸ mem_infinity s
      exact absurd hs r.finite
  | infinity s =>
    cases b with
    | int m => exact absurd (h ▸ mem_infinity s) (intText_not_mem m (by decide) (by decide))
    | float r =>
      have hs : ofChar 'I' ∈ r.text := (show _ = r.text from h) ▸ mem_infinity s
      exact absurd hs r.finite
    | infinity s' => cases s <;> cases s' <;> first | rfl | exact absurd h (by decide)

end Number

/-! ## Strings -/

def quote : CodePoint := ofChar '"'

def backslash : CodePoint := ofChar '\\'

def hexDigit (n : ℕ) : CodePoint := if n % 16 < 10 then digit (n % 16) else ⟨87 + n % 16, by omega⟩

/-- `py_encode_basestring` on one character. -/
def escape (c : CodePoint) : Text :=
  if c = quote then [backslash, quote]
  else if c = backslash then [backslash, backslash]
  else if c.val = 10 then txt "\\n"
  else if c.val = 13 then txt "\\r"
  else if c.val = 9 then txt "\\t"
  else if c.val = 12 then txt "\\f"
  else if c.val = 8 then txt "\\b"
  else if c.val < 32 then txt "\\u00" ++ [hexDigit (c.val / 16), hexDigit c.val]
  else [c]

def renderString (s : Text) : Text := quote :: s.flatMap escape ++ [quote]

def hexValue (c : CodePoint) : ℕ := if isDigit c then c.val - 48 else c.val - 87

theorem hexValue_hexDigit (n : ℕ) : hexValue (hexDigit n) = n % 16 := by
  have hn : n % 16 < 16 := Nat.mod_lt _ (by decide)
  have h : ∀ k : Fin 16, hexValue (hexDigit k.val) = k.val := by decide
  have hk := h ⟨n % 16, hn⟩
  have hmod : hexDigit (n % 16) = hexDigit n := by simp [hexDigit]
  rwa [hmod] at hk

/-- Reads one escaped character back. -/
def unescape : Text → Option (CodePoint × Text)
  | [] => none
  | c :: rest =>
    if c = backslash then
      match rest with
      | [] => none
      | e :: rest =>
        if e = ofChar 'n' then some (10, rest)
        else if e = ofChar 'r' then some (13, rest)
        else if e = ofChar 't' then some (9, rest)
        else if e = ofChar 'f' then some (12, rest)
        else if e = ofChar 'b' then some (8, rest)
        else if e = ofChar 'u' then
          match rest with
          | _ :: _ :: h :: l :: rest => some (Fin.ofNat _ (16 * hexValue h + hexValue l), rest)
          | _ => none
        else some (e, rest)
    else if c = quote then none
    else some (c, rest)

theorem unescape_escape (c : CodePoint) (rest : Text) :
    unescape (escape c ++ rest) = some (c, rest) := by
  unfold escape
  split_ifs with hq hb hn hr ht hf hbs hc
  · subst hq
    rfl
  · subst hb
    rfl
  · obtain rfl : c = 10 := Fin.ext hn
    rfl
  · obtain rfl : c = 13 := Fin.ext hr
    rfl
  · obtain rfl : c = 9 := Fin.ext ht
    rfl
  · obtain rfl : c = 12 := Fin.ext hf
    rfl
  · obtain rfl : c = 8 := Fin.ext hbs
    rfl
  · have hu : unescape (txt "\\u00" ++ [hexDigit (c.val / 16), hexDigit c.val] ++ rest) =
        some (Fin.ofNat _ (16 * hexValue (hexDigit (c.val / 16)) + hexValue (hexDigit c.val)),
          rest) := rfl
    rw [hu, hexValue_hexDigit, hexValue_hexDigit]
    congr 2
    apply Fin.ext
    simp only [Fin.ofNat]
    omega
  · simp [unescape, hq, hb]

theorem unescape_quote (rest : Text) : unescape (quote :: rest) = none := rfl

/-- The escaped characters of a string end at the first bare quote. -/
theorem flatMap_escape_inj {s t a b : Text}
    (h : s.flatMap escape ++ quote :: a = t.flatMap escape ++ quote :: b) : s = t ∧ a = b := by
  induction s generalizing t with
  | nil =>
    cases t with
    | nil => exact ⟨rfl, (List.cons.inj h).2⟩
    | cons d t =>
      have hu := congrArg unescape h
      rw [List.flatMap_cons, List.append_assoc, unescape_escape] at hu
      exact absurd hu (by simp [unescape_quote])
  | cons c s ih =>
    cases t with
    | nil =>
      have hu := congrArg unescape h
      rw [List.flatMap_cons, List.append_assoc, unescape_escape] at hu
      exact absurd hu (by simp [unescape_quote])
    | cons d t =>
      have hu := congrArg unescape h
      rw [List.flatMap_cons, List.flatMap_cons, List.append_assoc, List.append_assoc,
        unescape_escape, unescape_escape] at hu
      obtain ⟨rfl, hrest⟩ := Prod.mk.inj (Option.some.inj hu)
      obtain ⟨rfl, hab⟩ := ih hrest
      exact ⟨rfl, hab⟩

theorem renderString_inj {s t a b : Text} (h : renderString s ++ a = renderString t ++ b) :
    s = t ∧ a = b := by
  simp only [renderString, List.cons_append, List.append_assoc, List.nil_append] at h
  exact flatMap_escape_inj (List.cons.inj h).2

/-! ## Values -/

inductive Json
  | null
  | bool (b : Bool)
  | num (n : Number)
  | str (s : Text)
  | arr (items : List Json)
  | obj (members : List (Text × Json))

mutual

/-- The compact text of a value, members in the order given. -/
def render : Json → Text
  | .null => txt "null"
  | .bool false => txt "false"
  | .bool true => txt "true"
  | .num n => n.text
  | .str s => renderString s
  | .arr [] => txt "[]"
  | .arr (x :: xs) => ofChar '[' :: (render x ++ renderItems xs)
  | .obj [] => txt "\x7b\x7d"
  | .obj ((k, v) :: ms) => ofChar '{' :: (renderString k ++ ofChar ':' :: (render v ++ renderMembers ms))

def renderItems : List Json → Text
  | [] => txt "]"
  | x :: xs => ofChar ',' :: (render x ++ renderItems xs)

def renderMembers : List (Text × Json) → Text
  | [] => txt "\x7d"
  | (k, v) :: ms => ofChar ',' :: (renderString k ++ ofChar ':' :: (render v ++ renderMembers ms))

end

/-- What may follow a value: not another character of a number. -/
def Stops (s : Text) : Prop := ∀ c ∈ s.head?, isNumberChar c = false

theorem number_token_inj {a b s t : Text} (ha : ∀ c ∈ a, isNumberChar c)
    (hb : ∀ c ∈ b, isNumberChar c) (hs : Stops s) (ht : Stops t) (h : a ++ s = b ++ t) :
    a = b ∧ s = t := by
  induction a generalizing b with
  | nil =>
    cases b with
    | nil => exact ⟨rfl, h⟩
    | cons c b =>
      have hc := hs c (by rw [show s = c :: (b ++ t) from h]; rfl)
      rw [hb c List.mem_cons_self] at hc
      exact absurd hc (by decide)
  | cons c a ih =>
    cases b with
    | nil =>
      have hc := ht c (by rw [show t = c :: (a ++ s) from h.symm]; rfl)
      rw [ha c List.mem_cons_self] at hc
      exact absurd hc (by decide)
    | cons d b =>
      obtain ⟨rfl, hrest⟩ := List.cons.inj h
      obtain ⟨rfl, hst⟩ := ih (fun c hc => ha c (List.mem_cons_of_mem _ hc))
        (fun c hc => hb c (List.mem_cons_of_mem _ hc)) hrest
      exact ⟨rfl, hst⟩

/-- The class of a value, told by the first character of its text. -/
inductive Kind
  | null
  | false
  | true
  | num
  | str
  | arr
  | obj
  | other
  deriving DecidableEq

def kindOfChar (c : CodePoint) : Kind :=
  if isNumberStart c then .num
  else if c = ofChar 'n' then .null
  else if c = ofChar 'f' then .false
  else if c = ofChar 't' then .true
  else if c = quote then .str
  else if c = ofChar '[' then .arr
  else if c = ofChar '{' then .obj
  else .other

def Json.kind : Json → Kind
  | .null => .null
  | .bool false => .false
  | .bool true => .true
  | .num _ => .num
  | .str _ => .str
  | .arr _ => .arr
  | .obj _ => .obj

theorem Json.kind_ne_other (j : Json) : j.kind ≠ .other := by
  cases j with
  | bool b => cases b <;> exact Kind.noConfusion
  | _ => exact Kind.noConfusion

theorem render_start (j : Json) : ∃ c rest, render j = c :: rest ∧ kindOfChar c = j.kind := by
  cases j with
  | null => exact ⟨_, _, by rw [render]; rfl, by decide⟩
  | bool b => cases b <;> exact ⟨_, _, by rw [render]; rfl, by decide⟩
  | num n =>
    obtain ⟨c, rest, h, hc⟩ := n.text_start
    exact ⟨c, rest, by rw [render, h], by simp [kindOfChar, hc, Json.kind]⟩
  | str s => exact ⟨_, _, by rw [render, renderString, List.cons_append], rfl⟩
  | arr xs =>
    cases xs with
    | nil => exact ⟨_, _, by rw [render]; rfl, rfl⟩
    | cons x xs => exact ⟨_, _, by rw [render], rfl⟩
  | obj ms =>
    cases ms with
    | nil => exact ⟨_, _, by rw [render]; rfl, rfl⟩
    | cons m ms =>
      obtain ⟨k, v⟩ := m
      exact ⟨_, _, by rw [render], rfl⟩

theorem kind_eq_of_render {a b : Json} {s t : Text} (h : render a ++ s = render b ++ t) :
    a.kind = b.kind := by
  obtain ⟨c, r, hc, hk⟩ := render_start a
  obtain ⟨d, r', hd, hk'⟩ := render_start b
  rw [hc, hd] at h
  rw [← hk, ← hk', (List.cons.inj h).1]

theorem render_ne_close {a : Json} {c : CodePoint} {s t : Text} (hc : kindOfChar c = .other) :
    render a ++ s ≠ c :: t := by
  obtain ⟨d, r, hd, hk⟩ := render_start a
  intro h
  rw [hd] at h
  exact a.kind_ne_other (by rw [← hk, (List.cons.inj h).1, hc])

theorem stops_renderItems (xs : List Json) (s : Text) : Stops (renderItems xs ++ s) := by
  cases xs <;> rw [renderItems] <;> intro c hc <;> cases hc <;> decide

theorem stops_renderMembers (ms : List (Text × Json)) (s : Text) :
    Stops (renderMembers ms ++ s) := by
  rcases ms with _ | ⟨⟨k, v⟩, ms⟩ <;> rw [renderMembers] <;> intro c hc <;> cases hc <;> decide

mutual

/-- A value text ends where it has to: it is a prefix code up to the end of a number. -/
theorem render_append_inj : ∀ (a b : Json) {s t : Text}, Stops s → Stops t →
    render a ++ s = render b ++ t → a = b ∧ s = t
  | .null, b, s, t, _, _, h => by
    have hk := kind_eq_of_render h
    cases b with
    | null => exact ⟨rfl, List.append_cancel_left h⟩
    | bool b => cases b <;> exact Kind.noConfusion hk
    | _ => exact Kind.noConfusion hk
  | .bool a, b, s, t, _, _, h => by
    have hk := kind_eq_of_render h
    cases b with
    | bool b =>
      cases a <;> cases b
      · exact ⟨rfl, List.append_cancel_left h⟩
      · exact Kind.noConfusion hk
      · exact Kind.noConfusion hk
      · exact ⟨rfl, List.append_cancel_left h⟩
    | _ => cases a <;> exact Kind.noConfusion hk
  | .num n, b, s, t, hs, ht, h => by
    have hk := kind_eq_of_render h
    cases b with
    | num m =>
      rw [render, render] at h
      obtain ⟨hn, hst⟩ := number_token_inj n.text_chars m.text_chars hs ht h
      exact ⟨congrArg Json.num (Number.text_injective hn), hst⟩
    | bool b => cases b <;> exact Kind.noConfusion hk
    | _ => exact Kind.noConfusion hk
  | .str u, b, s, t, _, _, h => by
    have hk := kind_eq_of_render h
    cases b with
    | str v =>
      rw [render, render] at h
      obtain ⟨rfl, hst⟩ := renderString_inj h
      exact ⟨rfl, hst⟩
    | bool b => cases b <;> exact Kind.noConfusion hk
    | _ => exact Kind.noConfusion hk
  | .arr xs, b, s, t, _, _, h => by
    have hk := kind_eq_of_render h
    cases b with
    | arr ys =>
      cases xs with
      | nil =>
        cases ys with
        | nil => exact ⟨rfl, List.append_cancel_left h⟩
        | cons y ys =>
          rw [render, render, List.cons_append, List.append_assoc] at h
          exact absurd (List.cons.inj h).2.symm (render_ne_close (by decide))
      | cons x xs =>
        cases ys with
        | nil =>
          rw [render, render, List.cons_append, List.append_assoc] at h
          exact absurd (List.cons.inj h).2 (render_ne_close (by decide))
        | cons y ys =>
          rw [render, render, List.cons_append, List.cons_append, List.append_assoc,
            List.append_assoc] at h
          obtain ⟨rfl, hr⟩ := render_append_inj x y (stops_renderItems xs s)
            (stops_renderItems ys t) (List.cons.inj h).2
          obtain ⟨rfl, hst⟩ := renderItems_append_inj xs ys hr
          exact ⟨rfl, hst⟩
    | bool b => cases b <;> exact Kind.noConfusion hk
    | _ => exact Kind.noConfusion hk
  | .obj ms, b, s, t, _, _, h => by
    have hk := kind_eq_of_render h
    cases b with
    | obj ns =>
      rcases ms with _ | ⟨⟨k, v⟩, ms⟩ <;> rcases ns with _ | ⟨⟨k', v'⟩, ns⟩
      · exact ⟨rfl, List.append_cancel_left h⟩
      · rw [render, render] at h
        exact absurd (List.cons.inj (List.cons.inj h).2).1 (by decide)
      · rw [render, render] at h
        exact absurd (List.cons.inj (List.cons.inj h).2).1 (by decide)
      · rw [render, render, List.cons_append, List.cons_append, List.append_assoc,
          List.append_assoc, List.cons_append, List.cons_append, List.append_assoc,
          List.append_assoc] at h
        obtain ⟨rfl, hv⟩ := renderString_inj (List.cons.inj h).2
        obtain ⟨rfl, hr⟩ := render_append_inj v v' (stops_renderMembers ms s)
          (stops_renderMembers ns t) (List.cons.inj hv).2
        obtain ⟨rfl, hst⟩ := renderMembers_append_inj ms ns hr
        exact ⟨rfl, hst⟩
    | bool b => cases b <;> exact Kind.noConfusion hk
    | _ => exact Kind.noConfusion hk

theorem renderItems_append_inj : ∀ (xs ys : List Json) {s t : Text},
    renderItems xs ++ s = renderItems ys ++ t → xs = ys ∧ s = t
  | [], [], s, t, h => ⟨rfl, List.append_cancel_left h⟩
  | [], y :: ys, s, t, h => by
    rw [renderItems, renderItems] at h
    exact absurd (List.cons.inj h).1 (by decide)
  | x :: xs, [], s, t, h => by
    rw [renderItems, renderItems] at h
    exact absurd (List.cons.inj h).1 (by decide)
  | x :: xs, y :: ys, s, t, h => by
    rw [renderItems, renderItems, List.cons_append, List.cons_append, List.append_assoc,
      List.append_assoc] at h
    obtain ⟨rfl, hr⟩ := render_append_inj x y (stops_renderItems xs s) (stops_renderItems ys t)
      (List.cons.inj h).2
    obtain ⟨rfl, hst⟩ := renderItems_append_inj xs ys hr
    exact ⟨rfl, hst⟩

theorem renderMembers_append_inj : ∀ (ms ns : List (Text × Json)) {s t : Text},
    renderMembers ms ++ s = renderMembers ns ++ t → ms = ns ∧ s = t
  | [], [], s, t, h => ⟨rfl, List.append_cancel_left h⟩
  | [], (k, v) :: ns, s, t, h => by
    rw [renderMembers, renderMembers] at h
    exact absurd (List.cons.inj h).1 (by decide)
  | (k, v) :: ms, [], s, t, h => by
    rw [renderMembers, renderMembers] at h
    exact absurd (List.cons.inj h).1 (by decide)
  | (k, v) :: ms, (k', v') :: ns, s, t, h => by
    rw [renderMembers, renderMembers, List.cons_append, List.cons_append, List.append_assoc,
      List.append_assoc, List.cons_append, List.cons_append, List.append_assoc,
      List.append_assoc] at h
    obtain ⟨rfl, hv⟩ := renderString_inj (List.cons.inj h).2
    obtain ⟨rfl, hr⟩ := render_append_inj v v' (stops_renderMembers ms s)
      (stops_renderMembers ns t) (List.cons.inj hv).2
    obtain ⟨rfl, hst⟩ := renderMembers_append_inj ms ns hr
    exact ⟨rfl, hst⟩

end

theorem render_injective : Function.Injective render := by
  intro a b h
  have hs : Stops [] := by intro c hc; cases hc
  exact (render_append_inj a b hs hs (congrArg (· ++ []) h)).1

/-! ## Canonical form -/

mutual

/-- `sort_keys=True`: the members of every object in key order. -/
def canon : Json → Json
  | .arr xs => .arr (canonItems xs)
  | .obj ms => .obj (sortedBy Prod.fst (canonMembers ms))
  | j => j

def canonItems : List Json → List Json
  | [] => []
  | x :: xs => canon x :: canonItems xs

def canonMembers : List (Text × Json) → List (Text × Json)
  | [] => []
  | (k, v) :: ms => (k, canon v) :: canonMembers ms

end

mutual

/-- `allow_nan=False` lets no infinity through. -/
def finite : Json → Bool
  | .num (.infinity _) => false
  | .arr xs => finiteItems xs
  | .obj ms => finiteMembers ms
  | _ => true

def finiteItems : List Json → Bool
  | [] => true
  | x :: xs => finite x && finiteItems xs

def finiteMembers : List (Text × Json) → Bool
  | [] => true
  | (_, v) :: ms => finite v && finiteMembers ms

end

/-- The text of `json.dumps(value, sort_keys=True, allow_nan=False)`. -/
def dumps (j : Json) : Option Text := if finite j then some (render (canon j)) else none

theorem canonItems_eq_map (xs : List Json) : canonItems xs = xs.map canon := by
  induction xs with
  | nil => rw [canonItems, List.map_nil]
  | cons x xs ih => rw [canonItems, ih, List.map_cons]

theorem canonMembers_eq_map (ms : List (Text × Json)) :
    canonMembers ms = ms.map fun m => (m.1, canon m.2) := by
  induction ms with
  | nil => rw [canonMembers, List.map_nil]
  | cons m ms ih => rw [canonMembers, ih, List.map_cons]

mutual

/-- A canonical document is its own canonical form. -/
theorem canon_canon : ∀ j : Json, canon (canon j) = canon j
  | .null => rfl
  | .bool _ => rfl
  | .num _ => rfl
  | .str _ => rfl
  | .arr xs => by rw [canon, canon, canonItems_canonItems xs]
  | .obj ms => by
    have hsorted : canonMembers (sortedBy Prod.fst (canonMembers ms)) =
        sortedBy Prod.fst (canonMembers ms) := by
      have hmap := sortedBy_map Prod.fst (fun m : Text × Json => (m.1, canon m.2)) (canonMembers ms)
      rw [← canonMembers_eq_map, canonMembers_canonMembers ms] at hmap
      rw [canonMembers_eq_map (sortedBy _ _)]
      exact hmap.symm
    rw [canon, canon, hsorted]
    exact congrArg Json.obj (sortedBy_eq_self Prod.fst (sortedBy_pairwise Prod.fst _))

theorem canonItems_canonItems : ∀ xs : List Json, canonItems (canonItems xs) = canonItems xs
  | [] => rfl
  | x :: xs => by rw [canonItems, canonItems, canon_canon x, canonItems_canonItems xs]

theorem canonMembers_canonMembers : ∀ ms : List (Text × Json),
    canonMembers (canonMembers ms) = canonMembers ms
  | [] => rfl
  | (k, v) :: ms => by
    rw [canonMembers, canonMembers, canon_canon v, canonMembers_canonMembers ms]

end

theorem canon_eq_of_dumps {a b : Json} {t : Text} (ha : dumps a = some t) (hb : dumps b = some t) :
    canon a = canon b := by
  unfold dumps at ha hb
  split_ifs at ha hb
  exact render_injective ((Option.some.inj ha).trans (Option.some.inj hb).symm)

theorem finiteItems_eq_all (xs : List Json) : finiteItems xs = xs.all finite := by
  induction xs with
  | nil => rfl
  | cons x xs ih => rw [finiteItems, ih, List.all_cons]

theorem finiteMembers_eq_all (ms : List (Text × Json)) :
    finiteMembers ms = ms.all fun m => finite m.2 := by
  induction ms with
  | nil => rfl
  | cons m ms ih => rw [finiteMembers, ih, List.all_cons]

mutual

theorem finite_canon : ∀ j : Json, finite (canon j) = finite j
  | .arr xs => by
    rw [canon, finite, finite, finiteItems_canon xs]
  | .obj ms => by
    rw [canon, finite, finite, finiteMembers_eq_all, (sortedBy_perm _ _).all_eq,
      ← finiteMembers_eq_all, finiteMembers_canon ms]
  | .null | .bool _ | .num _ | .str _ => rfl

theorem finiteItems_canon : ∀ xs : List Json, finiteItems (canonItems xs) = finiteItems xs
  | [] => rfl
  | x :: xs => by
    rw [canonItems, finiteItems, finiteItems, finite_canon x, finiteItems_canon xs]

theorem finiteMembers_canon : ∀ ms : List (Text × Json),
    finiteMembers (canonMembers ms) = finiteMembers ms
  | [] => rfl
  | (k, v) :: ms => by
    rw [canonMembers, finiteMembers, finiteMembers, finite_canon v, finiteMembers_canon ms]

end

/-- The text of a document does not show the order of its members. -/
theorem dumps_eq_of_canon {a b : Json} (h : canon a = canon b) : dumps a = dumps b := by
  unfold dumps
  rw [← finite_canon a, ← finite_canon b, h]

/-- Two objects over the same distinct keys are equal up to member order iff their values are. -/
theorem canonMembers_eq_of_canon {ms ns : List (Text × Json)}
    (hk : ms.map Prod.fst = ns.map Prod.fst) (hn : (ms.map Prod.fst).Nodup)
    (h : canon (.obj ms) = canon (.obj ns)) : canonMembers ms = canonMembers ns := by
  rw [canon, canon] at h
  have hs := Json.obj.inj h
  rw [canonMembers_eq_map, canonMembers_eq_map] at hs ⊢
  have hp : (ms.map fun m => (m.1, canon m.2)).Perm (ns.map fun m => (m.1, canon m.2)) :=
    ((sortedBy_perm _ _).symm.trans (List.Perm.of_eq hs)).trans (sortedBy_perm _ _)
  have hkeys : (ms.map fun m => (m.1, canon m.2)).map Prod.fst =
      (ns.map fun m => (m.1, canon m.2)).map Prod.fst := by
    simpa only [List.map_map, Function.comp_def] using hk
  have hnodup : ((ns.map fun m => (m.1, canon m.2)).map Prod.fst).Nodup := by
    rw [← hkeys]
    simpa only [List.map_map, Function.comp_def] using hn
  apply List.ext_getElem (by simpa using congrArg List.length hk)
  intro i hi hi'
  have hm := hp.mem_iff.mp (List.getElem_mem hi)
  refine List.inj_on_of_nodup_map hnodup hm (List.getElem_mem hi') ?_
  have hl : i < ms.length := by simpa using hi
  have hl' : i < ns.length := by simpa using hi'
  have hg := congrArg (fun l => l[i]?) hk
  simpa [List.getElem?_eq_getElem, hl, hl'] using hg

end PyJson
