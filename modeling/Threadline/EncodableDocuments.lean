import Threadline.RecoveryFingerprint

/-!
# Encodable documents

A text has UTF-8 bytes unless it holds a lone surrogate. A document has them
when each of its texts has, keys included: the writer adds ASCII only.
-/

open PyText PyCalendar PySorted

namespace PyText

def isSurrogate (c : CodePoint) : Bool := 0xD800 ≤ c.val && c.val ≤ 0xDFFF

/-- No character of the text is a lone surrogate. -/
def encodableText (s : Text) : Bool := s.all fun c => !isSurrogate c

theorem isSurrogate_eq_false {c : CodePoint} :
    isSurrogate c = false ↔ c.val < 0xD800 ∨ 0xDFFF < c.val := by
  simp only [isSurrogate, Bool.and_eq_false_iff, decide_eq_false_iff_not, not_le]

theorem toChar?_isSome (c : CodePoint) : (toChar? c).isSome = !isSurrogate c := by
  have hc := c.isLt
  unfold toChar?
  by_cases h : c.val.isValidChar
  · rw [dif_pos h]
    unfold Nat.isValidChar at h
    rw [isSurrogate_eq_false.mpr (by omega)]
    rfl
  · rw [dif_neg h]
    have hs : isSurrogate c ≠ false := by
      rw [Ne, isSurrogate_eq_false]
      unfold Nat.isValidChar at h
      omega
    rw [Bool.eq_true_of_not_eq_false hs]
    rfl

theorem encodeUtf8_isSome (s : Text) : (encodeUtf8 s).isSome = encodableText s := by
  unfold encodeUtf8 encodableText
  rw [Option.isSome_map]
  induction s with
  | nil => rfl
  | cons c s ih =>
    rw [List.all_cons, ← ih, ← toChar?_isSome, List.mapM_cons]
    cases toChar? c with
    | none => rfl
    | some a => cases s.mapM toChar? <;> rfl

@[simp] theorem encodableText_nil : encodableText [] = true := rfl

@[simp] theorem encodableText_cons (c : CodePoint) (s : Text) :
    encodableText (c :: s) = (!isSurrogate c && encodableText s) := rfl

@[simp] theorem encodableText_append (s t : Text) :
    encodableText (s ++ t) = (encodableText s && encodableText t) := List.all_append

theorem isSurrogate_of_isDigit {c : CodePoint} (h : isDigit c) : isSurrogate c = false := by
  have hc : 48 ≤ c.val ∧ c.val ≤ 57 := by simpa [isDigit] using h
  exact isSurrogate_eq_false.mpr (by omega)

theorem encodableText_of_digits {s : Text} (h : ∀ c ∈ s, isDigit c) : encodableText s = true := by
  refine List.all_eq_true.mpr fun c hc => ?_
  rw [isSurrogate_of_isDigit (h c hc)]
  rfl

@[simp] theorem encodableText_natText (n : ℕ) : encodableText (natText n) = true :=
  encodableText_of_digits (natText_digits n)

@[simp] theorem encodableText_padded (width n : ℕ) : encodableText (padded width n) = true :=
  encodableText_of_digits (padded_digits width n)

end PyText

namespace PyCalendar

@[simp] theorem encodableText_isoformat (d : Date) : encodableText d.isoformat = true := by
  have hdash : encodableText (txt "-") = true := by decide
  simp only [Date.isoformat, encodableText_append, encodableText_padded, hdash, Bool.and_self]

@[simp] theorem encodableText_isoformatZ (t : UtcDateTime) :
    encodableText t.isoformatZ = true := by
  have hcolon : encodableText (txt ":") = true := by decide
  have hzone : encodableText (txt "Z") = true := by decide
  have hday : isSurrogate (ofChar 'T') = false := by decide
  have hdot : isSurrogate (ofChar '.') = false := by decide
  have hfraction : encodableText t.fraction = true := by
    unfold UtcDateTime.fraction
    split_ifs
    · rfl
    · simp only [encodableText_cons, encodableText_padded, hdot, Bool.not_false, Bool.and_self]
  simp only [UtcDateTime.isoformatZ, UtcDateTime.isoBody, UtcDateTime.clock, encodableText_append,
    encodableText_cons, encodableText_isoformat, encodableText_padded, hcolon, hzone, hday,
    hfraction, Bool.not_false, Bool.and_self]

end PyCalendar

namespace PyJson

mutual

/-- Every text of a document is encodable, keys included. -/
def encodable : Json → Bool
  | .str s => encodableText s
  | .arr xs => encodableItems xs
  | .obj ms => encodableMembers ms
  | _ => true

def encodableItems : List Json → Bool
  | [] => true
  | x :: xs => encodable x && encodableItems xs

def encodableMembers : List (Text × Json) → Bool
  | [] => true
  | (k, v) :: ms => encodableText k && encodable v && encodableMembers ms

end

theorem encodableMembers_eq_all (ms : List (Text × Json)) :
    encodableMembers ms = ms.all fun m => encodableText m.1 && encodable m.2 := by
  induction ms with
  | nil => rfl
  | cons m ms ih => rw [encodableMembers, ih, List.all_cons]

theorem isSurrogate_of_isNumberChar {c : CodePoint} (h : isNumberChar c) :
    isSurrogate c = false := by
  have hletters : encodableText (txt "+-.eInfity") = true := by decide
  rw [isNumberChar, Bool.or_eq_true, decide_eq_true_eq] at h
  rcases h with h | h
  · exact isSurrogate_of_isDigit h
  · simpa using List.all_eq_true.mp hletters c h

@[simp] theorem encodableText_number (n : Number) : encodableText n.text = true := by
  refine List.all_eq_true.mpr fun c hc => ?_
  rw [isSurrogate_of_isNumberChar (n.text_chars c hc)]
  rfl

/-- An escaped character is written in ASCII, another one as it is. -/
theorem encodableText_escape (c : CodePoint) : encodableText (escape c) = !isSurrogate c := by
  have hlow : c.val < 128 → isSurrogate c = false := fun hc =>
    isSurrogate_eq_false.mpr (by omega)
  have hhex : ∀ n, isSurrogate (hexDigit n) = false := by
    intro n
    have hn : (hexDigit n).val < 128 := by
      unfold hexDigit digit
      split_ifs <;> simp only <;> omega
    exact isSurrogate_eq_false.mpr (by omega)
  unfold escape
  split_ifs with hq hb hn hr ht hf hbs hc
  · rw [hq]
    decide
  · rw [hb]
    decide
  · rw [hlow (by omega)]
    decide
  · rw [hlow (by omega)]
    decide
  · rw [hlow (by omega)]
    decide
  · rw [hlow (by omega)]
    decide
  · rw [hlow (by omega)]
    decide
  · have hu : encodableText (txt "\\u00") = true := by decide
    simp only [encodableText_append, encodableText_cons, encodableText_nil, hu, hhex,
      hlow (by omega), Bool.not_false, Bool.and_self]
  · simp only [encodableText_cons, encodableText_nil, Bool.and_true]

theorem encodableText_renderString (s : Text) :
    encodableText (renderString s) = encodableText s := by
  have hq : isSurrogate quote = false := by decide
  have hbody : encodableText (s.flatMap escape) = encodableText s := by
    induction s with
    | nil => rfl
    | cons c s ih =>
      rw [List.flatMap_cons, encodableText_append, encodableText_escape, ih, encodableText_cons]
  simp only [renderString, encodableText_cons, encodableText_append, encodableText_nil, hq, hbody,
    Bool.not_false, Bool.true_and, Bool.and_true]

mutual

/-- The text of a document is encodable as its texts are. -/
theorem encodableText_render : ∀ j : Json, encodableText (render j) = encodable j
  | .null => by rw [render]; decide
  | .bool false => by rw [render]; decide
  | .bool true => by rw [render]; decide
  | .num n => by
    rw [render]
    exact encodableText_number n
  | .str s => by rw [render, encodable, encodableText_renderString]
  | .arr [] => by rw [render, encodable, encodableItems]; decide
  | .arr (x :: xs) => by
    have hopen : isSurrogate (ofChar '[') = false := by decide
    rw [render, encodable, encodableItems, encodableText_cons, encodableText_append,
      encodableText_render x, encodableText_renderItems xs, hopen, Bool.not_false, Bool.true_and]
  | .obj [] => by rw [render, encodable, encodableMembers]; decide
  | .obj ((k, v) :: ms) => by
    have hopen : isSurrogate (ofChar '{') = false := by decide
    have hcolon : isSurrogate (ofChar ':') = false := by decide
    rw [render, encodable, encodableMembers]
    simp only [encodableText_cons, encodableText_append, encodableText_renderString,
      encodableText_render v, encodableText_renderMembers ms, hopen, hcolon, Bool.not_false,
      Bool.true_and, Bool.and_assoc]

theorem encodableText_renderItems : ∀ xs : List Json,
    encodableText (renderItems xs) = encodableItems xs
  | [] => by rw [renderItems, encodableItems]; decide
  | x :: xs => by
    have hcomma : isSurrogate (ofChar ',') = false := by decide
    rw [renderItems, encodableItems, encodableText_cons, encodableText_append,
      encodableText_render x, encodableText_renderItems xs, hcomma, Bool.not_false, Bool.true_and]

theorem encodableText_renderMembers : ∀ ms : List (Text × Json),
    encodableText (renderMembers ms) = encodableMembers ms
  | [] => by rw [renderMembers, encodableMembers]; decide
  | (k, v) :: ms => by
    have hcomma : isSurrogate (ofChar ',') = false := by decide
    have hcolon : isSurrogate (ofChar ':') = false := by decide
    rw [renderMembers, encodableMembers]
    simp only [encodableText_cons, encodableText_append, encodableText_renderString,
      encodableText_render v, encodableText_renderMembers ms, hcomma, hcolon, Bool.not_false,
      Bool.true_and, Bool.and_assoc]

end

mutual

theorem encodable_canon : ∀ j : Json, encodable (canon j) = encodable j
  | .arr xs => by rw [canon, encodable, encodable, encodableItems_canon xs]
  | .obj ms => by
    rw [canon, encodable, encodable, encodableMembers_eq_all, (sortedBy_perm _ _).all_eq,
      ← encodableMembers_eq_all, encodableMembers_canon ms]
  | .null | .bool _ | .num _ | .str _ => rfl

theorem encodableItems_canon : ∀ xs : List Json,
    encodableItems (canonItems xs) = encodableItems xs
  | [] => rfl
  | x :: xs => by
    rw [canonItems, encodableItems, encodableItems, encodable_canon x, encodableItems_canon xs]

theorem encodableMembers_canon : ∀ ms : List (Text × Json),
    encodableMembers (canonMembers ms) = encodableMembers ms
  | [] => rfl
  | (k, v) :: ms => by
    rw [canonMembers, encodableMembers, encodableMembers, encodable_canon v,
      encodableMembers_canon ms]

end

end PyJson

namespace Threadline

open PyJson

@[simp] theorem encodableText_moneyText (m : ℤ) : encodableText (moneyText m) = true := by
  have hdot : isSurrogate (ofChar '.') = false := by decide
  have hminus : encodableText (if m < 0 then [minus] else []) = true := by
    split_ifs <;> decide
  simp only [moneyText, encodableText_append, encodableText_cons, encodableText_natText,
    encodableText_padded, hdot, hminus, Bool.not_false, Bool.and_self]

/-- A document has bytes unless a number is infinite or a text has a lone surrogate. -/
theorem documentBytes_isSome (document : Json) :
    (documentBytes document).isSome = (finite document && encodable document) := by
  unfold documentBytes dumps
  split_ifs with h
  · rw [h, Bool.true_and, ← encodable_canon, ← encodableText_render, ← encodeUtf8_isSome]
    rfl
  · rw [Bool.eq_false_iff.mpr h, Bool.false_and]
    rfl

theorem documentFingerprint_isSome (sha256 : Bytes → Text) (document : Json) :
    (documentFingerprint sha256 document).isSome = (finite document && encodable document) := by
  rw [documentFingerprint, Option.isSome_map, documentBytes_isSome]

/-! ## Records -/

@[simp] theorem encodableText_sourceSystem (s : SourceSystem) : encodableText s.value = true := by
  cases s <;> decide

@[simp] theorem encodableText_entityType (t : EntityType) : encodableText t.value = true := by
  cases t <;> decide

@[simp] theorem encodableText_orderStatus (s : OrderStatus) : encodableText s.value = true := by
  cases s <;> decide

@[simp] theorem encodableText_paymentStatus (s : PaymentStatus) : encodableText s.value = true := by
  cases s <;> decide

@[simp] theorem encodableText_refundStatus (s : RefundStatus) : encodableText s.value = true := by
  cases s <;> decide

@[simp] theorem encodableText_paymentMethod (m : PaymentMethod) : encodableText m.value = true := by
  cases m <;> decide

@[simp] theorem encodableText_feeType (t : FeeType) : encodableText t.value = true := by
  cases t
  decide

@[simp] theorem encodableText_movementType (t : MovementType) : encodableText t.value = true := by
  cases t <;> decide

@[simp] theorem encodable_availableOn (d : Option Date) :
    encodable (jsonOption jsonDate d) = true := by
  cases d with
  | none => rfl
  | some d => exact encodableText_isoformat d

/-- The identifiers that a record holds. -/
def recordIds : FinancialRecord → List Text
  | .order r => [r.orderId]
  | .payment r => [r.paymentId, r.orderId]
  | .refund r => [r.refundId, r.paymentId]
  | .fee r => [r.feeId, r.paymentId]
  | .settlementLine r => [r.settlementLineId, r.payoutId, r.movementId]
  | .payout r => [r.payoutId]

def recordCurrency : FinancialRecord → Text
  | .order r => r.currency
  | .payment r => r.currency
  | .refund r => r.currency
  | .fee r => r.currency
  | .settlementLine r => r.currency
  | .payout r => r.currency

/-- A record has a payload hash unless one of its texts has a lone surrogate. -/
theorem calculatePayloadHash_isSome (sha256 : Bytes → Text) (r : FinancialRecord) :
    (calculatePayloadHash sha256 r).isSome =
      ((recordIds r).all encodableText && encodableText (recordCurrency r)) := by
  have hkeys : (canonicalRecordMembers r).all (fun m => encodableText m.1) = true := by
    have hall : ∀ t, (recordKeys t).all encodableText = true := by
      intro t
      cases t <;> decide +kernel
    rw [← hall r.entityType, ← canonicalRecordMembers_keys, List.all_map]
    rfl
  have hvalues : encodable (canonicalRecordDict r) =
      (canonicalRecordMembers r).all fun m => encodable m.2 := by
    rw [canonicalRecordDict, encodable, encodableMembers_eq_all]
    rw [Bool.eq_iff_iff, List.all_eq_true, List.all_eq_true]
    refine forall₂_congr fun m hm => ?_
    rw [List.all_eq_true.mp hkeys m hm, Bool.true_and]
  have hmembers : encodable (canonicalRecordDict r) =
      ((recordIds r).all encodableText && encodableText (recordCurrency r)) := by
    rw [hvalues]
    cases r
    all_goals
      simp [canonicalRecordMembers, recordIds, recordCurrency, encodable, Bool.and_assoc, jsonText,
        jsonInt, jsonTimestamp, jsonDate, jsonMoney]
  rw [calculatePayloadHash, Option.isSome_map, canonicalRecordBytes, encodeUtf8_isSome,
    canonicalRecordJson, encodableText_render, encodable_canon, hmembers]

end Threadline
