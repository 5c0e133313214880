import Threadline.ResultRows

/-!
# Stored results read back

A result that is read back from its document has the fingerprint it was stored
with.
-/

open PyText PyJson PyCalendar PyExcept

namespace Threadline

mutual

/-- A JSON document as the value that reading it gives. -/
def jsonToValue : Json → Value
  | .null => .none
  | .bool b => .bool b
  | .num n => .number n
  | .str s => .text s
  | .arr items => .list (jsonToValues items)
  | .obj members => .fields (jsonToFields members)

def jsonToValues : List Json → List Value
  | [] => []
  | j :: items => jsonToValue j :: jsonToValues items

def jsonToFields : List (Text × Json) → List (Text × Value)
  | [] => []
  | (k, j) :: members => (k, jsonToValue j) :: jsonToFields members

end

/-! ## Amounts -/

theorem decimalText?_natText (n : ℕ) : decimalText? (natText n) = some (n : ℚ) := by
  have hdigits := natText_digits n
  have hchars : ∀ c ∈ natText n, isAmountChar c := fun c hc => by
    simp [isAmountChar, hdigits c hc]
  have hmantissa : (natText n).takeWhile (fun c => lowerAscii c ≠ ofChar 'e') = natText n := by
    refine List.takeWhile_eq_self_iff.mpr fun c hc => decide_eq_true ?_
    have hc := hdigits c hc
    simp only [isDigit, Bool.and_eq_true, decide_eq_true_eq] at hc
    rw [lowerAscii, dif_neg (by omega)]
    rintro rfl
    exact absurd hc.2 (by decide)
  have hwhole : (natText n).takeWhile (fun c => c ≠ ofChar '.') = natText n :=
    List.takeWhile_eq_self_iff.mpr fun c hc => decide_eq_true (isDigit_ne (hdigits c hc)).2
  have hsign : splitSign (natText n) = (false, natText n) := by
    obtain ⟨c, rest, hc⟩ := List.exists_cons_of_ne_nil (natText_ne_nil n)
    have hd : isDigit c := hdigits c (by rw [hc]; exact List.mem_cons_self)
    have hplus : c ≠ ofChar '+' := by
      rintro rfl
      exact absurd hd (by decide)
    rw [hc, splitSign, if_neg (isDigit_ne hd).1, if_neg hplus]
  have hunsigned : unsignedDecimal? (natText n) = some (n : ℚ) := by
    unfold unsignedDecimal?
    simp only [hmantissa, hwhole, List.drop_length, List.tail_nil, List.append_nil]
    rw [if_pos ⟨List.all_eq_true.mpr hdigits, natText_ne_nil n⟩]
    simp [exponentText?, digitsValue_natText]
  unfold decimalText?
  rw [normalized_of_amountChars hchars]
  simp only [hsign, hunsigned, Option.map_some, Bool.false_eq_true, if_false]

theorem decimalText?_text (a : Amount) : decimalText? a.text = some a.value := by
  cases a with
  | money cents => exact decimalText?_moneyText cents
  | count n => exact decimalText?_natText n

/-- An amount has the same text when it is read back. -/
theorem moneyString_reread {v : Value} {j l : Json} (hj : v.jsonValue = some j)
    (hl : moneyString v = some l) : moneyString (jsonToValue j) = some l := by
  cases v with
  | none =>
    obtain rfl := Option.some.inj hj
    exact hl
  | number n =>
    cases n with
    | int n =>
      obtain rfl := Option.some.inj hj
      exact hl
    | float r => cases hj
    | infinity negative => cases hj
  | text s =>
    obtain rfl := Option.some.inj hj
    exact hl
  | decimal a =>
    obtain rfl := Option.some.inj hj
    have hread : moneyString (.text a.text) = moneyString (.decimal a) := by
      simp only [moneyString, decimalText?_text]
    exact hread.trans hl
  | bool b => cases hl
  | datetime t => cases hl
  | date d => cases hl
  | list items => cases hl
  | fields members => cases hl

/-! ## Documents -/

namespace Value

mutual

/-- The logical form of a value is that of its document. -/
theorem logicalValue_reread : ∀ (v : Value) {j l : Json}, v.jsonValue = some j →
    v.logicalValue = some l → (jsonToValue j).logicalValue = some l
  | .list items, j, l, hj, hl => by
    rw [jsonValue, Option.map_eq_some_iff] at hj
    rw [logicalValue, Option.map_eq_some_iff] at hl
    obtain ⟨js, hjs, rfl⟩ := hj
    obtain ⟨ls, hls, rfl⟩ := hl
    rw [jsonToValue, logicalValue, logicalItems_reread items hjs hls, Option.map_some]
  | .fields members, j, l, hj, hl => by
    rw [jsonValue, Option.map_eq_some_iff] at hj
    rw [logicalValue, Option.map_eq_some_iff] at hl
    obtain ⟨js, hjs, rfl⟩ := hj
    obtain ⟨ls, hls, rfl⟩ := hl
    rw [jsonToValue, logicalValue, logicalMembers_reread members hjs hls, Option.map_some]
  | .none, j, l, hj, hl => by
    obtain rfl := Option.some.inj hj
    exact hl
  | .bool b, j, l, hj, hl => by
    obtain rfl := Option.some.inj hj
    exact hl
  | .number (.int n), j, l, hj, hl => by
    obtain rfl := Option.some.inj hj
    exact hl
  | .number (.float r), j, l, hj, hl => nomatch hj
  | .number (.infinity negative), j, l, hj, hl => nomatch hj
  | .text s, j, l, hj, hl => by
    obtain rfl := Option.some.inj hj
    exact hl
  | .decimal a, j, l, hj, hl => by
    obtain rfl := Option.some.inj hj
    exact hl
  | .datetime t, j, l, hj, hl => by
    obtain rfl := Option.some.inj hj
    exact hl
  | .date d, j, l, hj, hl => by
    obtain rfl := Option.some.inj hj
    exact hl

theorem logicalItems_reread : ∀ (items : List Value) {js ls : List Json},
    jsonItems items = some js → logicalItems items = some ls →
    logicalItems (jsonToValues js) = some ls
  | [], js, ls, hj, hl => by
    obtain rfl := Option.some.inj hj
    exact hl
  | v :: items, js, ls, hj, hl => by
    simp only [jsonItems, logicalItems, Option.bind_eq_bind, Option.bind_eq_some_iff,
      Option.pure_def, Option.some.injEq] at hj hl
    obtain ⟨j, hj, js, hjs, rfl⟩ := hj
    obtain ⟨l, hl, ls, hls, rfl⟩ := hl
    rw [jsonToValues, logicalItems, logicalValue_reread v hj hl, logicalItems_reread items hjs hls]
    rfl

theorem logicalMembers_reread : ∀ (members : List (Text × Value)) {js ls : List (Text × Json)},
    jsonMembers members = some js → logicalMembers members = some ls →
    logicalMembers (jsonToFields js) = some ls
  | [], js, ls, hj, hl => by
    obtain rfl := Option.some.inj hj
    exact hl
  | (k, v) :: members, js, ls, hj, hl => by
    simp only [jsonMembers, Option.bind_eq_bind, Option.bind_eq_some_iff, Option.pure_def,
      Option.some.injEq] at hj
    obtain ⟨j, hj, js, hjs, rfl⟩ := hj
    rw [jsonToFields, logicalMembers]
    rw [logicalMembers] at hl
    split_ifs at hl ⊢ with haudit hmoney
    · exact logicalMembers_reread members hjs hl
    · simp only [Option.bind_eq_bind, Option.bind_eq_some_iff, Option.pure_def,
        Option.some.injEq] at hl
      obtain ⟨l, hl, ls, hls, rfl⟩ := hl
      rw [moneyString_reread hj hl, logicalMembers_reread members hjs hls]
      rfl
    · simp only [Option.bind_eq_bind, Option.bind_eq_some_iff, Option.pure_def,
        Option.some.injEq] at hl
      obtain ⟨l, hl, ls, hls, rfl⟩ := hl
      rw [logicalValue_reread v hj hl, logicalMembers_reread members hjs hls]
      rfl

end

theorem find?_jsonToFields {key : Text} (members : List (Text × Json)) :
    (jsonToFields members).find? (fun m => m.1 = key) =
      (members.find? fun m => m.1 = key).map fun m => (m.1, jsonToValue m.2) := by
  induction members with
  | nil => rfl
  | cons m members ih =>
    obtain ⟨k, j⟩ := m
    rw [jsonToFields, List.find?_cons, List.find?_cons]
    by_cases hk : k = key
    · simp [hk]
    · simpa [hk] using ih

/-- A field that is read back has the JSON form of the field. -/
theorem field?_reread {v w : Value} {document : Json} {key : Text}
    (h : v.jsonValue = some document) (hfield : v.field? key = some w) :
    ∃ j, w.jsonValue = some j ∧ (jsonToValue document).field? key = some (jsonToValue j) := by
  cases v with
  | fields members =>
    rw [jsonValue, Option.map_eq_some_iff] at h
    obtain ⟨js, hjs, rfl⟩ := h
    obtain ⟨j, hj, hfind⟩ := find?_jsonMembers hjs hfield
    obtain ⟨m, hm, rfl⟩ := Option.map_eq_some_iff.mp hfind
    exact ⟨m.2, hj, by rw [jsonToValue, field?, find?_jsonToFields, hm]; rfl⟩
  | _ => cases hfield

end Value

theorem mapM_eq_some_of_imp {α β : Type} {f g : α → Option β} {xs : List α} {ys : List β}
    (h : xs.mapM f = some ys) (hfg : ∀ x y, f x = some y → g x = some y) :
    xs.mapM g = some ys := by
  induction xs generalizing ys with
  | nil => exact h
  | cons x xs ih =>
    simp only [List.mapM_cons, Option.bind_eq_bind, Option.bind_eq_some_iff, Option.pure_def,
      Option.some.injEq] at h ⊢
    obtain ⟨y, hy, ys, hys, rfl⟩ := h
    exact ⟨y, hfg x y hy, ys, ih hys, rfl⟩

/-- The logical document of a result is that of its stored document. -/
theorem logicalDocument_reread {v : Value} {document logical : Json} {version : Text}
    (hversion : v.field? (txt "contract_version") = some (.text version))
    (h : v.jsonValue = some document) (hl : logicalDocument v = some logical) :
    logicalDocument (jsonToValue document) = some logical := by
  obtain ⟨j, hj, hfield⟩ := Value.field?_reread h hversion
  obtain rfl := Option.some.inj hj
  simp only [logicalDocument, Option.bind_eq_bind, Option.bind_eq_some_iff, Option.pure_def,
    Option.some.injEq, hversion, hfield] at hl ⊢
  obtain ⟨_, rfl, json, hjson, sections, hsections, rfl⟩ := hl
  refine ⟨_, rfl, json, hjson, sections, mapM_eq_some_of_imp hsections ?_, rfl⟩
  intro name entry hentry
  simp only [Option.bind_eq_some_iff, Option.some.injEq] at hentry ⊢
  obtain ⟨w, hw, l, hlogical, rfl⟩ := hentry
  obtain ⟨j, hj, hfield⟩ := Value.field?_reread h hw
  exact ⟨_, hfield, l, Value.logicalValue_reread w hj hlogical, rfl⟩

/-- The version of the fingerprint is no part of what it covers. -/
theorem logicalDocument_storedValue (r : ReconciliationResult) :
    logicalDocument r.storedValue = logicalDocument r.toValue := rfl

/-- A stored result has the fingerprint of the result. -/
theorem logicalFingerprint_reread {sha256 : Bytes → Text} {r : ReconciliationResult}
    {document : Json} {fingerprint : Text} (h : r.storedValue.jsonValue = some document)
    (hf : logicalFingerprint sha256 r.toValue = some fingerprint) :
    logicalFingerprint sha256 (jsonToValue document) = some fingerprint := by
  simp only [logicalFingerprint, Option.bind_eq_bind, Option.bind_eq_some_iff] at hf ⊢
  obtain ⟨logical, hl, hf⟩ := hf
  rw [← logicalDocument_storedValue] at hl
  exact ⟨logical, logicalDocument_reread rfl h hl, hf⟩

end Threadline
