import Threadline.DecimalMoney
import Threadline.ResultDocument
import Threadline.RowContract

/-!
# Money texts

What `parse_money` accepts, and what `format_money` writes. The grammar of an
amount is stated over a class of digits: the pattern of the parser takes the
decimal digits of every script.
-/

open PyText PyJson PyDecimal

namespace Threadline

/-! ## The grammar of an amount -/

/-- The value of an ASCII digit. -/
def asciiValue? (c : CodePoint) : Option ℕ := if isDigit c then some (c.val - 48) else none

/-- `0|[1-9]D*` for a class `D` of digits, with the values of the digits. -/
inductive WholePart (digit? : CodePoint → Option ℕ) : Text → List ℕ → Prop
  | zero : WholePart digit? [ofChar '0'] [0]
  | positive {c : CodePoint} {rest : Text} {digits : List ℕ} :
      49 ≤ c.val → c.val ≤ 57 → rest.mapM digit? = some digits →
      WholePart digit? (c :: rest) ((c.val - 48) :: digits)

def signText (negative : Bool) : Text := if negative then [minus] else []

/-- `-?(0|[1-9]D*)[.]DD` for a class `D` of digits, with the cents that the text denotes. -/
inductive MoneyGrammar (digit? : CodePoint → Option ℕ) : Text → ℤ → Prop
  | mk (negative : Bool) {whole fraction : Text} {digits cents : List ℕ} :
      WholePart digit? whole digits → fraction.mapM digit? = some cents → fraction.length = 2 →
      MoneyGrammar digit? (signText negative ++ (whole ++ ofChar '.' :: fraction))
        (if negative then -(decimalValue (digits ++ cents) : ℤ) else decimalValue (digits ++ cents))

/-- An ASCII amount in range, negative only where that is allowed. -/
def AdmittedMoney (s : Text) (allowNegative : Bool) : Prop :=
  ∃ amount, MoneyGrammar asciiValue? s amount ∧ amount.natAbs ≤ maxMoney.natAbs ∧
    (0 ≤ amount ∨ allowNegative)

/-- The first character of the whole part. -/
def leadingDigit? (s : Text) : Option CodePoint :=
  (if s.head? = some minus then s.tail else s).head?

/-- An admitted amount some of whose digits, but not the leading one, are written as decimal
digits of another script. -/
def Respelled (s : Text) (allowNegative : Bool) : Prop :=
  s.map asciiDigit ≠ s ∧ AdmittedMoney (s.map asciiDigit) allowNegative ∧
    ∀ c ∈ leadingDigit? s, isDigit c

/-! ## Digits -/

theorem isDigit_iff {c : CodePoint} : isDigit c ↔ 48 ≤ c.val ∧ c.val ≤ 57 := by
  simp [isDigit]

theorem decimalDigit?_lt {c : CodePoint} {d : ℕ} (h : decimalDigit? c = some d) : d < 10 := by
  obtain ⟨first, hfirst, rfl⟩ := Option.map_eq_some_iff.mp h
  have hrange := List.find?_some hfirst
  simp only [decide_eq_true_eq] at hrange
  omega

theorem decimalDigit?_of_isDigit {c : CodePoint} (h : isDigit c) :
    decimalDigit? c = some (c.val - 48) := by
  have hrange := isDigit_iff.mp h
  unfold decimalDigit? digitZeros
  rw [List.find?_cons_of_pos (by simp only [decide_eq_true_eq]; omega)]
  rfl

theorem asciiValue?_digit {d : ℕ} (h : d < 10) : asciiValue? (digit d) = some d := by
  have hval : (digit d).val = 48 + d := by
    show 48 + d % 10 = 48 + d
    omega
  have hdigit : isDigit (digit d) := isDigit_iff.mpr (by omega)
  rw [asciiValue?, if_pos hdigit, hval]
  congr 1
  omega

/-- The respelled character has the value of the digit. -/
theorem asciiValue?_asciiDigit (c : CodePoint) : asciiValue? (asciiDigit c) = decimalDigit? c := by
  unfold asciiDigit
  cases hd : decimalDigit? c with
  | some d => exact asciiValue?_digit (decimalDigit?_lt hd)
  | none =>
    rw [asciiValue?, if_neg]
    intro hdigit
    rw [decimalDigit?_of_isDigit hdigit] at hd
    cases hd

/-- The sign and the point are no digits in any alphabet. -/
theorem decimalDigit?_separators : decimalDigit? minus = none ∧ decimalDigit? (ofChar '.') = none := by
  decide +kernel

theorem asciiDigit_eq_iff {c d : CodePoint} (h : isDigit d = false) (hd : decimalDigit? d = none) :
    asciiDigit c = d ↔ c = d := by
  constructor
  · intro hc
    cases hv : decimalDigit? c with
    | some v =>
      -- A digit is respelled as a digit.
      rw [← hc, asciiDigit, hv] at h
      have hdigit := asciiValue?_digit (decimalDigit?_lt hv)
      rw [asciiValue?, if_neg (by rw [h]; exact Bool.false_ne_true)] at hdigit
      cases hdigit
    | none =>
      rw [asciiDigit, hv] at hc
      exact hc
  · intro hc
    rw [hc, asciiDigit, hd]

theorem mapM_asciiDigit (s : Text) : (s.map asciiDigit).mapM asciiValue? = s.mapM decimalDigit? := by
  rw [List.mapM_map]
  congr 1
  funext c
  exact asciiValue?_asciiDigit c

theorem asciiValue?_eq_some {c : CodePoint} {d : ℕ} (h : asciiValue? c = some d) :
    isDigit c ∧ c = digit d ∧ d < 10 := by
  unfold asciiValue? at h
  split_ifs at h with hdigit
  have hrange := isDigit_iff.mp hdigit
  have hd := Option.some.inj h
  refine ⟨hdigit, ?_, by omega⟩
  rw [← hd, digit_of_isDigit hdigit]

/-- ASCII digits are the digits of their values. -/
theorem mapM_asciiValue? {s : Text} {digits : List ℕ} (h : s.mapM asciiValue? = some digits) :
    s = digits.map digit ∧ ∀ d ∈ digits, d < 10 := by
  induction s generalizing digits with
  | nil =>
    rw [List.mapM_nil] at h
    rw [← Option.some.inj h]
    exact ⟨rfl, nofun⟩
  | cons c s ih =>
    simp only [List.mapM_cons, Option.bind_eq_bind, Option.bind_eq_some_iff, Option.pure_def,
      Option.some.injEq] at h
    obtain ⟨d, hd, ds, hds, rfl⟩ := h
    obtain ⟨-, hc, hlt⟩ := asciiValue?_eq_some hd
    obtain ⟨hs, hall⟩ := ih hds
    exact ⟨by rw [hc, hs, List.map_cons], List.forall_mem_cons.mpr ⟨hlt, hall⟩⟩

/-! ## The pattern of the parser -/

theorem exists_digit {digit? : CodePoint → Option ℕ} {s : Text} {digits : List ℕ}
    (h : s.mapM digit? = some digits) {c : CodePoint} (hc : c ∈ s) : ∃ d, digit? c = some d := by
  induction s generalizing digits with
  | nil => cases hc
  | cons e s ih =>
    simp only [List.mapM_cons, Option.bind_eq_bind, Option.bind_eq_some_iff, Option.pure_def,
      Option.some.injEq] at h
    obtain ⟨d, hd, ds, hds, -⟩ := h
    rcases List.mem_cons.mp hc with heq | hmem
    · exact ⟨d, heq ▸ hd⟩
    · exact ih hds hmem

theorem wholePart?_eq_some {s : Text} {digits : List ℕ} :
    wholePart? s = some digits ↔ WholePart decimalDigit? s digits := by
  have hzeroVal : (ofChar '0').val = 48 := by decide
  constructor
  · intro h
    cases s with
    | nil => cases h
    | cons c rest =>
      unfold wholePart? at h
      dsimp only at h
      split_ifs at h with hzero hpositive
      · rw [hzero.1, hzero.2, ← Option.some.inj h]
        exact .zero
      · obtain ⟨ds, hds, rfl⟩ := Option.map_eq_some_iff.mp h
        exact .positive hpositive.1 hpositive.2 hds
  · intro h
    cases h with
    | zero => rfl
    | @positive c rest digits hlower hupper hrest =>
      have hzero : ¬ (c = ofChar '0' ∧ rest = []) := by
        intro hc
        have hval := congrArg Fin.val hc.1
        omega
      unfold wholePart?
      dsimp only
      rw [if_neg hzero, if_pos ⟨hlower, hupper⟩, decimalDigits?, hrest]
      rfl

/-- The whole part starts with an ASCII digit. -/
theorem WholePart.leading {digit? : CodePoint → Option ℕ} {s : Text} {digits : List ℕ}
    (h : WholePart digit? s digits) : ∃ c rest, s = c :: rest ∧ isDigit c := by
  cases h with
  | zero => exact ⟨_, _, rfl, by decide⟩
  | positive hlower hupper hrest => exact ⟨_, _, rfl, isDigit_iff.mpr (by omega)⟩

theorem WholePart.ne_point {s : Text} {digits : List ℕ} (h : WholePart decimalDigit? s digits) :
    ∀ c ∈ s, c ≠ ofChar '.' := by
  have hdot := decimalDigit?_separators.2
  have hdotVal : (ofChar '.').val = 46 := by decide
  intro e he hpoint
  cases h with
  | zero =>
    rw [List.mem_singleton.mp he] at hpoint
    exact absurd hpoint (by decide)
  | positive hlower hupper hrest =>
    rcases List.mem_cons.mp he with hc | hmem
    · have hval := congrArg Fin.val (hc.symm.trans hpoint)
      omega
    · obtain ⟨d, hd⟩ := exists_digit hrest hmem
      rw [hpoint, hdot] at hd
      cases hd

theorem moneyPattern?_of_grammar {s : Text} {amount : ℤ} (h : MoneyGrammar decimalDigit? s amount) :
    moneyPattern? s = some amount := by
  cases h with
  | @mk negative whole fraction digits cents hwhole hfraction htwo =>
    obtain ⟨c, rest, hcons, hdigit⟩ := hwhole.leading
    have hminus : c ≠ minus := (isDigit_ne hdigit).1
    have htake : (whole ++ ofChar '.' :: fraction).takeWhile (fun c => c ≠ ofChar '.') = whole := by
      apply takeWhile_eq_left (fun c hc => decide_eq_true (hwhole.ne_point c hc))
      intro c hc
      rw [← Option.mem_some_iff.mp hc]
      simp
    obtain ⟨d, e, hfractionEq⟩ := List.length_eq_two.mp htwo
    have hsign : (signText negative ++ (whole ++ ofChar '.' :: fraction)).head? = some minus ↔
        negative = true := by
      cases negative with
      | false => simp [signText, hcons, hminus]
      | true => simp [signText]
    have hunsigned : (if negative = true then
        (signText negative ++ (whole ++ ofChar '.' :: fraction)).tail
        else signText negative ++ (whole ++ ofChar '.' :: fraction)) =
        whole ++ ofChar '.' :: fraction := by
      cases negative <;> rfl
    unfold moneyPattern?
    simp only [hsign, hunsigned, htake, List.drop_left]
    rw [hfractionEq]
    dsimp only
    rw [← hfractionEq, decimalDigits?, hfraction, wholePart?_eq_some.mpr hwhole]
    rfl

theorem grammar_of_moneyPattern? {s : Text} {amount : ℤ} (h : moneyPattern? s = some amount) :
    MoneyGrammar decimalDigit? s amount := by
  unfold moneyPattern? at h
  dsimp only at h
  generalize hunsigned : (if s.head? = some minus then s.tail else s) = unsigned at h
  have hsigned : s = signText (decide (s.head? = some minus)) ++ unsigned := by
    by_cases hminus : s.head? = some minus
    · rw [← hunsigned, if_pos hminus, decide_eq_true hminus]
      cases s with
      | nil => cases hminus
      | cons c s =>
        rw [Option.some.inj hminus]
        rfl
    · rw [← hunsigned, if_neg hminus, decide_eq_false hminus]
      rfl
  have hpoint := List.head?_dropWhile_not (fun c => decide (c ≠ ofChar '.')) unsigned
  have hsplit := List.takeWhile_append_dropWhile (p := fun c => decide (c ≠ ofChar '.')) (l := unsigned)
  generalize (unsigned.takeWhile fun c => decide (c ≠ ofChar '.')) = whole at h hsplit
  generalize (unsigned.dropWhile fun c => decide (c ≠ ofChar '.')) = rest at hpoint hsplit
  rw [← hsplit, List.drop_left] at h
  split at h
  · rename_i point d e
    simp only [Option.bind_eq_bind, Option.bind_eq_some_iff, Option.pure_def,
      Option.some.injEq] at h
    obtain ⟨cents, hcents, digits, hdigits, hamount⟩ := h
    have hpoint : point = ofChar '.' := by simpa using hpoint
    have hgrammar := MoneyGrammar.mk (decide (s.head? = some minus)) (wholePart?_eq_some.mp hdigits)
      hcents rfl
    simp only [decide_eq_true_eq] at hgrammar
    rw [← hpoint, hsplit, ← hsigned, hamount] at hgrammar
    exact hgrammar
  · cases h

theorem moneyPattern?_eq_some {s : Text} {amount : ℤ} :
    moneyPattern? s = some amount ↔ MoneyGrammar decimalDigit? s amount :=
  ⟨grammar_of_moneyPattern?, moneyPattern?_of_grammar⟩

/-! ## Respelling -/

theorem asciiDigit_eq_minus {c : CodePoint} : asciiDigit c = minus ↔ c = minus :=
  asciiDigit_eq_iff (by decide) decimalDigit?_separators.1

theorem asciiDigit_eq_point {c : CodePoint} : asciiDigit c = ofChar '.' ↔ c = ofChar '.' :=
  asciiDigit_eq_iff (by decide) decimalDigit?_separators.2

theorem map_asciiDigit_eq_signText {s : Text} {negative : Bool} :
    s.map asciiDigit = signText negative ↔ s = signText negative := by
  cases negative with
  | false => exact List.map_eq_nil_iff
  | true =>
    show s.map asciiDigit = [minus] ↔ s = [minus]
    rw [List.map_eq_singleton_iff]
    constructor
    · rintro ⟨c, hs, hc⟩
      rw [hs, asciiDigit_eq_minus.mp hc]
    · intro hs
      exact ⟨minus, hs, asciiDigit_eq_minus.mpr rfl⟩

theorem leadingDigit?_eq (negative : Bool) {c : CodePoint} (hc : c ≠ minus) (rest : Text) :
    leadingDigit? (signText negative ++ c :: rest) = some c := by
  cases negative with
  | false => simp [leadingDigit?, signText, hc]
  | true => simp [leadingDigit?, signText]

theorem wholePart_asciiDigit {s : Text} {digits : List ℕ} (hleading : ∀ c ∈ s.head?, isDigit c) :
    WholePart asciiValue? (s.map asciiDigit) digits ↔ WholePart decimalDigit? s digits := by
  cases s with
  | nil => exact ⟨nofun, nofun⟩
  | cons c rest =>
    rw [List.map_cons, asciiDigit_of_isDigit (hleading c rfl)]
    constructor
    · intro h
      generalize hrest : rest.map asciiDigit = respelled at h
      cases h with
      | zero =>
        rw [List.map_eq_nil_iff.mp hrest]
        exact .zero
      | positive hlower hupper hdigits =>
        rw [← hrest, mapM_asciiDigit] at hdigits
        exact .positive hlower hupper hdigits
    · intro h
      cases h with
      | zero => exact .zero
      | positive hlower hupper hdigits => 
        exact .positive hlower hupper ((mapM_asciiDigit rest).trans hdigits)

/-- A respelled text denotes what its ASCII spelling denotes. -/
theorem moneyGrammar_asciiDigit {s : Text} {amount : ℤ} :
    MoneyGrammar asciiValue? (s.map asciiDigit) amount ∧ (∀ c ∈ leadingDigit? s, isDigit c) ↔
      MoneyGrammar decimalDigit? s amount := by
  constructor
  · intro ⟨h, hleading⟩
    generalize hs : s.map asciiDigit = respelled at h
    cases h with
    | @mk negative whole fraction digits cents hwhole hfraction htwo =>
      obtain ⟨sign, unsigned, rfl, hsign, hunsigned⟩ := List.map_eq_append_iff.mp hs
      obtain ⟨w, pointed, rfl, rfl, hpointed⟩ := List.map_eq_append_iff.mp hunsigned
      obtain ⟨point, f, rfl, hpoint, rfl⟩ := List.map_eq_cons_iff.mp hpointed
      rw [map_asciiDigit_eq_signText.mp hsign] at hleading ⊢
      rw [asciiDigit_eq_point.mp hpoint] at hleading ⊢
      -- The leading character of the respelled text is a digit, so this one is no sign.
      obtain ⟨d, rest', hcons, hdigit⟩ := hwhole.leading
      obtain ⟨c, rest, rfl, hc, -⟩ := List.map_eq_cons_iff.mp hcons
      have hminus : c ≠ minus := fun hc' =>
        (isDigit_ne hdigit).1 (hc.symm.trans (asciiDigit_eq_minus.mpr hc'))
      have hlead : ∀ e ∈ (c :: rest).head?, isDigit e := by
        rw [List.cons_append, leadingDigit?_eq negative hminus] at hleading
        exact hleading
      rw [mapM_asciiDigit] at hfraction
      rw [List.length_map] at htwo
      exact .mk negative ((wholePart_asciiDigit hlead).mp hwhole) hfraction htwo
  · intro h
    cases h with
    | @mk negative whole fraction digits cents hwhole hfraction htwo =>
      obtain ⟨c, rest, rfl, hdigit⟩ := hwhole.leading
      have hlead : ∀ e ∈ (c :: rest).head?, isDigit e := by
        intro e he
        rw [← Option.some.inj he]
        exact hdigit
      constructor
      · rw [List.map_append, List.map_append, List.map_cons (a := ofChar '.'),
          map_asciiDigit_eq_signText.mpr rfl, asciiDigit_eq_point.mpr rfl]
        apply MoneyGrammar.mk negative ((wholePart_asciiDigit hlead).mpr hwhole)
        · rw [mapM_asciiDigit]
          exact hfraction
        · rw [List.length_map]
          exact htwo
      · rw [List.cons_append, leadingDigit?_eq negative (isDigit_ne hdigit).1]
        exact hlead

theorem map_asciiDigit_of_mapM {s : Text} {digits : List ℕ} (h : s.mapM asciiValue? = some digits) :
    s.map asciiDigit = s := by
  conv_rhs => rw [← List.map_id s]
  apply List.map_congr_left
  intro c hc
  obtain ⟨d, hd⟩ := exists_digit h hc
  exact asciiDigit_of_isDigit (asciiValue?_eq_some hd).1

/-- An ASCII amount is its own spelling. -/
theorem MoneyGrammar.map_asciiDigit {s : Text} {amount : ℤ} (h : MoneyGrammar asciiValue? s amount) :
    s.map asciiDigit = s := by
  cases h with
  | mk negative hwhole hfraction htwo =>
    rw [List.map_append, List.map_append, List.map_cons, map_asciiDigit_of_mapM hfraction,
      map_asciiDigit_eq_signText.mpr rfl, asciiDigit_eq_point.mpr rfl]
    congr 2
    cases hwhole with
    | zero => rw [List.map_singleton, asciiDigit_of_isDigit (by decide)]
    | positive hlower hupper hrest =>
      rw [List.map_cons, map_asciiDigit_of_mapM hrest,
        asciiDigit_of_isDigit (isDigit_iff.mpr (by omega))]

/-! ## Acceptance -/

theorem parseMoney_text_eq_ok {s : Text} {allowNegative : Bool} {amount : ℤ} :
    parseMoney (.str s) allowNegative = .ok amount ↔ MoneyGrammar decimalDigit? s amount ∧
      amount.natAbs ≤ maxMoney.natAbs ∧ (0 ≤ amount ∨ allowNegative) := by
  rw [parseMoney_eq_ok]
  simp only [Json.str.injEq, exists_eq_left', moneyPattern?_eq_some]

/-- The parser accepts a text exactly when its ASCII spelling is admitted and it starts with an
ASCII digit. -/
theorem parseMoney_accepts_iff {s : Text} {allowNegative : Bool} :
    (∃ amount, parseMoney (.str s) allowNegative = .ok amount) ↔
      AdmittedMoney (s.map asciiDigit) allowNegative ∧ ∀ c ∈ leadingDigit? s, isDigit c := by
  constructor
  · intro ⟨amount, h⟩
    obtain ⟨hgrammar, hrange, hsign⟩ := parseMoney_text_eq_ok.mp h
    obtain ⟨hspelled, hleading⟩ := moneyGrammar_asciiDigit.mpr hgrammar
    exact ⟨⟨amount, hspelled, hrange, hsign⟩, hleading⟩
  · intro ⟨⟨amount, hspelled, hrange, hsign⟩, hleading⟩
    have hgrammar := moneyGrammar_asciiDigit.mp ⟨hspelled, hleading⟩
    exact ⟨amount, parseMoney_text_eq_ok.mpr ⟨hgrammar, hrange, hsign⟩⟩

theorem AdmittedMoney.map_asciiDigit {s : Text} {allowNegative : Bool} (h : AdmittedMoney s allowNegative) :
    s.map asciiDigit = s := by
  obtain ⟨amount, hgrammar, -, -⟩ := h
  exact hgrammar.map_asciiDigit

theorem AdmittedMoney.leadingDigit {s : Text} {allowNegative : Bool} (h : AdmittedMoney s allowNegative) :
    ∀ c ∈ leadingDigit? s, isDigit c := by
  obtain ⟨amount, hgrammar, -, -⟩ := h
  cases hgrammar with
  | mk negative hwhole hfraction htwo =>
    obtain ⟨c, rest, rfl, hdigit⟩ := hwhole.leading
    rw [List.cons_append, leadingDigit?_eq negative (isDigit_ne hdigit).1]
    intro e he
    rw [← Option.some.inj he]
    exact hdigit

/-! ## Canonical texts -/

theorem natText_of_lt {d : ℕ} (hd : d < 10) : natText d = [digit d] := by
  have hdigit : ∀ d < 10, ofChar (Nat.digitChar d) = digit d := by decide
  rw [natText, Nat.toDigits_of_lt_base hd, List.map_singleton, hdigit d hd]

theorem natText_append {n d : ℕ} (hn : 0 < n) (hd : d < 10) :
    natText (10 * n + d) = natText n ++ [digit d] := by
  rw [← natText_of_lt hd, natText, ← Nat.toDigits_append_toDigits (by norm_num) hn hd,
    List.map_append]
  rfl

theorem decimalValue_append (digits : List ℕ) (d : ℕ) :
    decimalValue (digits ++ [d]) = 10 * decimalValue digits + d := by
  simp [decimalValue]

/-- Digits without a leading zero are the text of their value. -/
theorem natText_decimalValue {d : ℕ} {digits : List ℕ} (hpos : 0 < d)
    (hlt : ∀ e ∈ d :: digits, e < 10) :
    0 < decimalValue (d :: digits) ∧
      natText (decimalValue (d :: digits)) = (d :: digits).map digit := by
  induction digits using List.reverseRecOn with
  | nil =>
    have hvalue : decimalValue [d] = d := by simp [decimalValue]
    rw [hvalue]
    exact ⟨hpos, natText_of_lt (hlt d List.mem_cons_self)⟩
  | append_singleton digits e ih =>
    obtain ⟨hvalue, htext⟩ := ih fun e' he' => hlt e' (by
      rw [← List.cons_append]
      exact List.mem_append_left _ he')
    have he : e < 10 := hlt e (by simp)
    rw [← List.cons_append, decimalValue_append, natText_append hvalue he, htext, List.map_append]
    exact ⟨by omega, rfl⟩

theorem WholePart.natText_eq {s : Text} {digits : List ℕ} (h : WholePart asciiValue? s digits) :
    natText (decimalValue digits) = s := by
  cases h with
  | zero => exact natText_of_lt (by decide)
  | @positive c rest digits hlower hupper hrest =>
    obtain ⟨hrestEq, hlt⟩ := mapM_asciiValue? hrest
    have hdigit : isDigit c := isDigit_iff.mpr (by omega)
    have hall : ∀ e ∈ (c.val - 48) :: digits, e < 10 :=
      List.forall_mem_cons.mpr ⟨by omega, hlt⟩
    rw [(natText_decimalValue (by omega) hall).2, List.map_cons, digit_of_isDigit hdigit, hrestEq]

theorem padded_decimalValue {s : Text} {cents : List ℕ} (h : s.mapM asciiValue? = some cents)
    (htwo : s.length = 2) : decimalValue cents < 100 ∧ padded 2 (decimalValue cents) = s := by
  obtain ⟨hs, hlt⟩ := mapM_asciiValue? h
  rw [hs, List.length_map] at htwo
  obtain ⟨d, e, hcents⟩ := List.length_eq_two.mp htwo
  rw [hs, hcents]
  rw [hcents] at hlt
  have hd : d < 10 := hlt d (by simp)
  have he : e < 10 := hlt e (by simp)
  have hvalue : decimalValue [d, e] = 10 * d + e := by simp [decimalValue]
  rw [hvalue]
  have hquotient : (10 * d + e) / 10 = d := by omega
  have hdigit : digit (10 * d + e) = digit e := by
    apply Fin.ext
    show 48 + (10 * d + e) % 10 = 48 + e % 10
    omega
  refine ⟨by omega, ?_⟩
  simp only [padded, hquotient, hdigit, List.nil_append, List.map_cons, List.map_nil,
    List.cons_append]

theorem mapM_digit {digits : List ℕ} (h : ∀ d ∈ digits, d < 10) :
    (digits.map digit).mapM asciiValue? = some digits := by
  induction digits with
  | nil => rfl
  | cons d digits ih =>
    obtain ⟨hd, hdigits⟩ := List.forall_mem_cons.mp h
    rw [List.map_cons, List.mapM_cons, asciiValue?_digit hd, ih hdigits]
    rfl

/-- The digits of a positive number, the first of which is not zero. -/
theorem exists_digits {n : ℕ} (hn : 0 < n) : ∃ d digits, 0 < d ∧ (∀ e ∈ d :: digits, e < 10) ∧
    decimalValue (d :: digits) = n := by
  induction n using Nat.strongRecOn with
  | ind n ih =>
    by_cases hlt : n < 10
    · exact ⟨n, [], hn, by simpa using hlt, by simp [decimalValue]⟩
    · obtain ⟨d, digits, hpos, hdigits, hvalue⟩ := ih (n / 10) (by omega) (by omega)
      refine ⟨d, digits ++ [n % 10], hpos, ?_, ?_⟩
      · intro e he
        rw [← List.cons_append, List.mem_append, List.mem_singleton] at he
        rcases he with he | he
        · exact hdigits e he
        · omega
      · rw [← List.cons_append, decimalValue_append, hvalue]
        omega

theorem exists_wholePart (n : ℕ) :
    ∃ digits, WholePart asciiValue? (natText n) digits ∧ decimalValue digits = n := by
  by_cases hn : n = 0
  · rw [hn]
    exact ⟨[0], .zero, rfl⟩
  · obtain ⟨d, digits, hpos, hlt, hvalue⟩ := exists_digits (Nat.pos_of_ne_zero hn)
    obtain ⟨hd, hdigits⟩ := List.forall_mem_cons.mp hlt
    have hval : (digit d).val = 48 + d := by
      show 48 + d % 10 = 48 + d
      omega
    refine ⟨d :: digits, ?_, hvalue⟩
    have hwhole := WholePart.positive (c := digit d) (by omega) (by omega) (mapM_digit hdigits)
    rw [hval, Nat.add_sub_cancel_left] at hwhole
    rw [← hvalue, (natText_decimalValue hpos hlt).2]
    exact hwhole

theorem exists_cents (n : ℕ) : ∃ cents, (padded 2 n).mapM asciiValue? = some cents ∧
    decimalValue cents = n % 100 := by
  have hpadded : padded 2 n = [n / 10 % 10, n % 10].map digit := by
    have hdigit : ∀ m, digit m = digit (m % 10) := fun m => by
      apply Fin.ext
      show 48 + m % 10 = 48 + m % 10 % 10
      omega
    simp only [padded, List.nil_append, List.cons_append, List.map_cons, List.map_nil]
    rw [hdigit n, hdigit (n / 10)]
  refine ⟨[n / 10 % 10, n % 10], ?_, ?_⟩
  · rw [hpadded]
    apply mapM_digit
    intro d hd
    simp only [List.mem_cons, List.not_mem_nil, or_false] at hd
    omega
  · simp only [decimalValue, List.foldl_cons, List.foldl_nil]
    omega

/-- The value of the digits in front of the cents. -/
theorem decimalValue_cents (digits cents : List ℕ) (htwo : cents.length = 2) :
    decimalValue (digits ++ cents) = 100 * decimalValue digits + decimalValue cents := by
  obtain ⟨d, e, rfl⟩ := List.length_eq_two.mp htwo
  simp only [decimalValue, List.foldl_append, List.foldl_cons, List.foldl_nil]
  omega

/-! ## Formatting -/

/-- An amount of cents without a sign. -/
def centsText (n : ℕ) : Text := natText (n / 100) ++ ofChar '.' :: padded 2 (n % 100)

namespace DecimalMoney

/-- `format(value, ".2f")` of a decimal with two places. -/
def fixedText (value : Decimal) : Text := signText value.negative ++ centsText value.coefficient

/-- `format_money`. -/
def formatMoney (value : Decimal) : Except MoneyError Text := (roundEur value).map fixedText

end DecimalMoney

open DecimalMoney (ofCents formatMoney)

/-- The sign of a number of cents. -/
def signed (negative : Bool) (n : ℕ) : ℤ := if negative then -n else n

theorem grammar_centsText (negative : Bool) (n : ℕ) :
    MoneyGrammar asciiValue? (signText negative ++ centsText n) (signed negative n) := by
  obtain ⟨digits, hdigits, hwhole⟩ := exists_wholePart (n / 100)
  obtain ⟨cents, hcents, hfraction⟩ := exists_cents (n % 100)
  have hlength : cents.length = 2 := by
    rw [← (PyExcept.mapM_eq_some.mp hcents).length_eq, padded_length]
  have hvalue : decimalValue (digits ++ cents) = n := by
    rw [decimalValue_cents _ _ hlength, hwhole, hfraction]
    omega
  have hgrammar := MoneyGrammar.mk negative hdigits hcents (padded_length 2 _)
  rw [hvalue] at hgrammar
  exact hgrammar

/-- An ASCII amount is the text of a number of cents. -/
theorem exists_centsText {s : Text} {amount : ℤ} (h : MoneyGrammar asciiValue? s amount) :
    ∃ negative n, s = signText negative ++ centsText n ∧ amount = signed negative n := by
  cases h with
  | @mk negative whole fraction digits cents hwhole hfraction htwo =>
    obtain ⟨hlt, hpadded⟩ := padded_decimalValue hfraction htwo
    have hlength : cents.length = 2 := by
      rw [← (PyExcept.mapM_eq_some.mp hfraction).length_eq, htwo]
    have hvalue := decimalValue_cents digits cents hlength
    have hwholeValue : decimalValue (digits ++ cents) / 100 = decimalValue digits := by omega
    have hcents : decimalValue (digits ++ cents) % 100 = decimalValue cents := by omega
    refine ⟨negative, decimalValue (digits ++ cents), ?_, rfl⟩
    rw [centsText, hwholeValue, hcents, hwhole.natText_eq, hpadded]

/-- A decimal in range whose value is a number of cents is written as that number. -/
theorem formatMoney_eq {d : Decimal} {m : ℤ} (h : d.toRat = m / 100)
    (hrange : m.natAbs ≤ maxMoney.natAbs) :
    formatMoney d = .ok (signText d.negative ++ centsText m.natAbs) := by
  have hvalue : d.toRat = m * 10 ^ (-2 : ℤ) := by
    rw [h]
    norm_num
    ring
  have hmax : maxMoney.natAbs = 999999999999999999 := rfl
  have hquantize : d.quantize DecimalMoney.precision .halfUp (-2) =
      some ⟨d.negative, m.natAbs, -2⟩ := by
    apply Decimal.quantize_of_toRat hvalue
    unfold DecimalMoney.precision
    omega
  have hsupported : DecimalMoney.requireSupportedRange ⟨d.negative, m.natAbs, -2⟩ =
      .ok ⟨d.negative, m.natAbs, -2⟩ := by
    unfold DecimalMoney.requireSupportedRange
    rw [if_neg]
    rw [Decimal.lt_of_exponent (show DecimalMoney.maxMoney.exponent =
      (Decimal.copyAbs ⟨d.negative, m.natAbs, -2⟩).exponent from rfl), decide_eq_true_eq]
    show ¬ (999999999999999999 : ℤ) < (m.natAbs : ℤ)
    omega
  have hround : DecimalMoney.roundEur d = .ok ⟨d.negative, m.natAbs, -2⟩ := by
    have hcent : DecimalMoney.cent.exponent = -2 := rfl
    rw [DecimalMoney.roundEur, hcent, hquantize]
    exact hsupported
  rw [formatMoney, hround]
  rfl

/-- The sign of a decimal fits its value. -/
theorem signed_of_toRat {d : Decimal} {m : ℤ} (h : d.toRat = m / 100) :
    signed d.negative m.natAbs = m := by
  have hpos : (0 : ℚ) < 10 ^ d.exponent := zpow_pos (by norm_num) _
  unfold signed
  unfold Decimal.toRat Decimal.signedCoefficient at h
  cases hnegative : d.negative with
  | true =>
    rw [hnegative, if_pos rfl] at h
    have hle : (m : ℚ) ≤ 0 := by
      have hcoefficient : (0 : ℚ) ≤ d.coefficient * 10 ^ d.exponent := by positivity
      push_cast at h
      linarith
    have hm : m ≤ 0 := by exact_mod_cast hle
    rw [if_pos rfl]
    omega
  | false =>
    rw [hnegative, if_neg Bool.false_ne_true] at h
    have hge : (0 : ℚ) ≤ m := by
      have hcoefficient : (0 : ℚ) ≤ d.coefficient * 10 ^ d.exponent := by positivity
      push_cast at h
      linarith
    have hm : 0 ≤ m := by exact_mod_cast hge
    rw [if_neg Bool.false_ne_true]
    omega

theorem parseMoney_of_ascii {s : Text} {allowNegative : Bool} {amount : ℤ}
    (h : MoneyGrammar asciiValue? s amount) (hrange : amount.natAbs ≤ maxMoney.natAbs)
    (hsign : 0 ≤ amount ∨ allowNegative) : parseMoney (.str s) allowNegative = .ok amount := by
  have hadmitted : AdmittedMoney s allowNegative := ⟨amount, h, hrange, hsign⟩
  apply parseMoney_text_eq_ok.mpr
  refine ⟨moneyGrammar_asciiDigit.mp ⟨?_, hadmitted.leadingDigit⟩, hrange, hsign⟩
  rw [h.map_asciiDigit]
  exact h

/-- Every decimal in range whose value is a number of cents is read back. -/
theorem parseMoney_formatMoney {d : Decimal} {m : ℤ} {allowNegative : Bool}
    (h : d.toRat = m / 100) (hrange : m.natAbs ≤ maxMoney.natAbs)
    (hsign : 0 ≤ m ∨ allowNegative) :
    ∃ s, formatMoney d = .ok s ∧ parseMoney (.str s) allowNegative = .ok m := by
  refine ⟨_, formatMoney_eq h hrange, parseMoney_of_ascii ?_ hrange hsign⟩
  have hgrammar := grammar_centsText d.negative m.natAbs
  rw [signed_of_toRat h] at hgrammar
  exact hgrammar

/-- An ASCII amount in range is written back, a negative zero without its sign. -/
theorem formatMoney_of_ascii {s : Text} {amount : ℤ} (h : MoneyGrammar asciiValue? s amount)
    (hrange : amount.natAbs ≤ maxMoney.natAbs) :
    formatMoney (ofCents amount) = .ok (if s = txt "-0.00" then txt "0.00" else s) := by
  rw [formatMoney_eq (DecimalMoney.toRat_ofCents amount) hrange]
  have hminusZero : parseMoney (.str (txt "-0.00")) true = .ok 0 := by decide +kernel
  have hparsed : parseMoney (.str s) true = .ok amount := parseMoney_of_ascii h hrange (.inr rfl)
  obtain ⟨negative, n, hs, hamount⟩ := exists_centsText h
  by_cases hn : n = 0
  · have hzero : amount = 0 := by
      rw [hamount, hn]
      cases negative <;> rfl
    rw [hs, hn, hzero]
    cases negative <;> decide +kernel
  · have hne : s ≠ txt "-0.00" := by
      intro heq
      rw [heq, hminusZero] at hparsed
      have hzero := Except.ok.inj hparsed
      rw [hamount] at hzero
      cases negative with
      | true =>
        have hneg : -(n : ℤ) = 0 := hzero.symm
        omega
      | false =>
        have hpos : (n : ℤ) = 0 := hzero.symm
        omega
    have hparts : (ofCents amount).negative = negative ∧ amount.natAbs = n := by
      cases negative with
      | true =>
        have hneg : amount = -n := hamount
        exact ⟨decide_eq_true (by omega), by omega⟩
      | false =>
        have hpos : amount = n := hamount
        exact ⟨decide_eq_false (by omega), by omega⟩
    rw [if_neg hne, hs, hparts.1, hparts.2]

/-! ## Canonical money -/

/-- A text is accepted exactly when it is an ASCII amount in range, and is then written back,
a negative zero without its sign. -/
structure CanonicalMoney (s : Text) (allowNegative : Bool) : Prop where
  accepted : (∃ amount, parseMoney (.str s) allowNegative = .ok amount) ↔
    AdmittedMoney s allowNegative
  written : ∀ amount, parseMoney (.str s) allowNegative = .ok amount →
    formatMoney (ofCents amount) = .ok (if s = txt "-0.00" then txt "0.00" else s)

theorem canonicalMoney_of_ascii {s : Text} {allowNegative : Bool} (hs : s.map asciiDigit = s) :
    CanonicalMoney s allowNegative := by
  constructor
  · rw [parseMoney_accepts_iff, hs]
    exact ⟨fun h => h.1, fun h => ⟨h, h.leadingDigit⟩⟩
  · intro amount h
    obtain ⟨hgrammar, hrange, -⟩ := parseMoney_text_eq_ok.mp h
    have hspelled := (moneyGrammar_asciiDigit.mpr hgrammar).1
    rw [hs] at hspelled
    exact formatMoney_of_ascii hspelled hrange

/-- Money text is canonical exactly when it is no amount in digits of another script, and every
decimal in range with a value of whole cents is read back from its text. -/
theorem moneyText_canonical_iff (allowNegative : Bool) :
    (∀ s, CanonicalMoney s allowNegative ↔ ¬ Respelled s allowNegative) ∧
      ∀ (d : Decimal) (m : ℤ), d.toRat = m / 100 → m.natAbs ≤ maxMoney.natAbs →
        (0 ≤ m ∨ allowNegative) →
        ∃ s, formatMoney d = .ok s ∧ parseMoney (.str s) allowNegative = .ok m := by
  refine ⟨fun s => ?_, fun d m h hrange hsign => parseMoney_formatMoney h hrange hsign⟩
  constructor
  · intro hcanonical ⟨hne, hadmitted, hleading⟩
    have haccepted := parseMoney_accepts_iff.mpr ⟨hadmitted, hleading⟩
    exact hne (hcanonical.accepted.mp haccepted).map_asciiDigit
  · intro hrespelled
    by_cases hs : s.map asciiDigit = s
    · exact canonicalMoney_of_ascii hs
    · -- Neither the parser nor the grammar admits another respelled text.
      have hrejected : ¬ ∃ amount, parseMoney (.str s) allowNegative = .ok amount := fun h =>
        hrespelled ⟨hs, parseMoney_accepts_iff.mp h⟩
      constructor
      · exact iff_of_false hrejected fun h => hs h.map_asciiDigit
      · intro amount h
        exact absurd ⟨amount, h⟩ hrejected

/-- `1.٠٠`, with Arabic-Indic zeros, is accepted, and is written as `1.00`. -/
theorem arabicIndic_money_accepted : ¬ CanonicalMoney [0x31, 0x2e, 0x660, 0x660] false := by
  intro h
  have hwritten := h.written 100 (by decide +kernel)
  exact absurd hwritten (by decide +kernel)

/-- A refund of 30 with one place is read back from its text. -/
theorem refund_text_read_back :
    ∃ s, formatMoney ⟨true, 300, -1⟩ = .ok s ∧ parseMoney (.str s) true = .ok (-3000) := by
  apply (moneyText_canonical_iff true).2 ⟨true, 300, -1⟩ (-3000)
  · norm_num [Decimal.toRat, Decimal.signedCoefficient]
  · decide
  · exact .inr rfl

/-- A tie is rounded away from zero. -/
example : formatMoney ⟨true, 1005, -3⟩ = .ok (txt "-1.01") := by decide +kernel

end Threadline
