import Threadline.Publication
import Mathlib.Data.List.TakeWhile
import Mathlib.Tactic.NormNum

/-!
# Documents of results

The JSON form of a result keeps its fields, and an amount is read back from its
text.
-/

open PyText PyJson PyCalendar PyExcept

namespace Threadline

/-! ## Amounts read back -/

/-- The characters of an amount. -/
def isAmountChar (c : CodePoint) : Bool := isDigit c || c = minus || c = ofChar '.'

theorem isDigit_ne {c : CodePoint} (h : isDigit c) : c ≠ minus ∧ c ≠ ofChar '.' := by
  constructor <;> rintro rfl <;> exact absurd h (by decide)

theorem digit_of_isDigit {c : CodePoint} (h : isDigit c) : digit (c.val - 48) = c := by
  simp only [isDigit, Bool.and_eq_true, decide_eq_true_eq] at h
  apply Fin.ext
  simp only [digit]
  omega

theorem asciiDigit_of_isDigit {c : CodePoint} (h : isDigit c) : asciiDigit c = c := by
  have hb := h
  simp only [isDigit, Bool.and_eq_true, decide_eq_true_eq] at hb
  have hd : decimalDigit? c = some (c.val - 48) := by
    unfold decimalDigit? digitZeros
    rw [List.find?_cons_of_pos (by simp only [decide_eq_true_eq]; omega)]
    rfl
  rw [asciiDigit, hd]
  exact digit_of_isDigit h

theorem asciiDigit_of_amountChar {c : CodePoint} (h : isAmountChar c) : asciiDigit c = c := by
  simp only [isAmountChar, Bool.or_eq_true, decide_eq_true_eq] at h
  rcases h with (h | rfl) | rfl
  · exact asciiDigit_of_isDigit h
  · decide
  · decide

theorem not_isSpace_of_amountChar {c : CodePoint} (h : isAmountChar c) : isSpace c = false := by
  simp only [isAmountChar, Bool.or_eq_true, decide_eq_true_eq] at h
  rcases h with (h | rfl) | rfl
  · simp only [isDigit, Bool.and_eq_true, decide_eq_true_eq] at h
    have hlt : c.val < 0x85 := by omega
    simp only [isSpace, Bool.or_eq_false_iff, Bool.and_eq_false_iff, decide_eq_false_iff_not,
      beq_eq_false_iff_ne, ne_eq]
    omega
  · decide
  · decide

theorem isAmountChar_ne {c d : CodePoint} (h : isAmountChar c) (hd : isAmountChar d = false) :
    c ≠ d := by
  rintro rfl
  rw [h] at hd
  cases hd

theorem dropWhile_isSpace {s : Text} (h : ∀ c ∈ s, isAmountChar c) : s.dropWhile isSpace = s := by
  cases s with
  | nil => rfl
  | cons c s =>
    rw [List.dropWhile_cons_of_neg]
    simp [not_isSpace_of_amountChar (h c List.mem_cons_self)]

theorem strip_of_amountChars {s : Text} (h : ∀ c ∈ s, isAmountChar c) : strip s = s := by
  rw [strip, dropWhile_isSpace h, dropWhile_isSpace (by simpa using h), List.reverse_reverse]

/-- An amount text needs no normalization. -/
theorem normalized_of_amountChars {s : Text} (h : ∀ c ∈ s, isAmountChar c) :
    ((strip s).filter fun c => c ≠ ofChar '_').map asciiDigit = s := by
  rw [strip_of_amountChars h, List.filter_eq_self.mpr]
  · exact (List.map_congr_left fun c hc => asciiDigit_of_amountChar (h c hc)).trans (List.map_id s)
  · exact fun c hc => decide_eq_true (isAmountChar_ne (h c hc) (by decide))

theorem digitsValue_append (s t : Text) :
    digitsValue (s ++ t) = t.foldl (fun n c => 10 * n + (c.val - 48)) (digitsValue s) := by
  simp [digitsValue]

theorem digitsValue_natText (n : ℕ) : digitsValue (natText n) = n := by
  have h := Nat.ofDigitChars_toDigits (b := 10) (n := n) (by decide) (by decide)
  rw [Nat.ofDigitChars_eq_foldl] at h
  rw [digitsValue, natText, List.foldl_map]
  exact h

theorem digitsValue_cents (a : Text) {b : ℕ} (hb : b < 100) :
    digitsValue (a ++ padded 2 b) = 100 * digitsValue a + b := by
  rw [digitsValue_append]
  simp only [padded, List.nil_append, List.cons_append, List.foldl_cons, List.foldl_nil, digit]
  omega

theorem padded_digits (width n : ℕ) : ∀ c ∈ padded width n, isDigit c := by
  induction width generalizing n with
  | zero => simp [padded]
  | succ width ih =>
    intro c hc
    rcases List.mem_append.mp hc with hc | hc
    · exact ih _ c hc
    · rw [List.mem_singleton.mp hc, isDigit, Bool.and_eq_true, decide_eq_true_eq,
        decide_eq_true_eq]
      change 48 ≤ 48 + n % 10 ∧ 48 + n % 10 ≤ 57
      omega

theorem takeWhile_eq_left {p : CodePoint → Bool} {s t : Text} (hs : ∀ c ∈ s, p c)
    (ht : ∀ c ∈ t.head?, p c = false) : (s ++ t).takeWhile p = s := by
  rw [List.takeWhile_append_of_pos hs]
  cases t with
  | nil => simp
  | cons c t => rw [List.takeWhile_cons_of_neg (by simp [ht c rfl]), List.append_nil]

/-- Digits, a point, digits. -/
theorem unsignedDecimal?_eq {whole fraction : Text} (hw : ∀ c ∈ whole, isDigit c)
    (hne : whole ≠ []) (hf : ∀ c ∈ fraction, isDigit c) :
    unsignedDecimal? (whole ++ ofChar '.' :: fraction) =
      some ((digitsValue (whole ++ fraction) : ℚ) * (10 : ℚ) ^ (0 - (fraction.length : ℤ))) := by
  have hlower : ∀ c, isDigit c → lowerAscii c ≠ ofChar 'e' := by
    intro c hc
    simp only [isDigit, Bool.and_eq_true, decide_eq_true_eq] at hc
    rw [lowerAscii, dif_neg (by omega)]
    rintro rfl
    exact absurd hc.2 (by decide)
  have hmantissa : (whole ++ ofChar '.' :: fraction).takeWhile (fun c => lowerAscii c ≠ ofChar 'e') =
      whole ++ ofChar '.' :: fraction := by
    refine List.takeWhile_eq_self_iff.mpr fun c hc => decide_eq_true ?_
    rcases List.mem_append.mp hc with hc | hc
    · exact hlower c (hw c hc)
    · rcases List.mem_cons.mp hc with rfl | hc
      · decide
      · exact hlower c (hf c hc)
  have hwhole : (whole ++ ofChar '.' :: fraction).takeWhile (fun c => c ≠ ofChar '.') = whole :=
    takeWhile_eq_left (fun c hc => decide_eq_true (isDigit_ne (hw c hc)).2) (by
      intro c hc
      obtain rfl : ofChar '.' = c := by simpa using hc
      simp)
  unfold unsignedDecimal?
  simp only [hmantissa, hwhole, List.drop_left, List.tail_cons, List.drop_length]
  rw [if_pos]
  · rfl
  · refine ⟨List.all_eq_true.mpr fun c hc => ?_, by simp [hne]⟩
    rcases List.mem_append.mp hc with hc | hc
    · exact hw c hc
    · exact hf c hc

theorem decimalText?_moneyText (m : ℤ) : decimalText? (moneyText m) = some ((m : ℚ) / 100) := by
  have hunsigned : unsignedDecimal? (natText (m.natAbs / 100) ++
      ofChar '.' :: padded 2 (m.natAbs % 100)) = some ((m.natAbs : ℚ) / 100) := by
    rw [unsignedDecimal?_eq (natText_digits _) (natText_ne_nil _) (padded_digits _ _),
      digitsValue_cents _ (Nat.mod_lt _ (by decide)), digitsValue_natText, Nat.div_add_mod,
      padded_length]
    have h : (10 : ℚ) ^ (0 - ((2 : ℕ) : ℤ)) = 1 / 100 := by norm_num
    rw [h, mul_one_div]
  have hchars : ∀ c ∈ moneyText m, isAmountChar c := by
    intro c hc
    simp only [moneyText, List.mem_append, List.mem_cons] at hc
    rcases hc with hc | hc | rfl | hc
    · split_ifs at hc
      · rw [List.mem_singleton.mp hc]
        decide
      · cases hc
    · simp [isAmountChar, natText_digits _ c hc]
    · decide
    · simp [isAmountChar, padded_digits _ _ c hc]
  unfold decimalText?
  rw [normalized_of_amountChars hchars]
  by_cases hneg : m < 0
  · have hsign : splitSign (moneyText m) = (true, natText (m.natAbs / 100) ++
        ofChar '.' :: padded 2 (m.natAbs % 100)) := by
      rw [moneyText, if_pos hneg]
      rfl
    simp only [hsign, hunsigned, Option.map_some, if_true, Option.some.injEq]
    rw [Nat.cast_natAbs, abs_of_neg hneg, Int.cast_neg, neg_div, neg_neg]
  · have hsign : splitSign (moneyText m) = (false, natText (m.natAbs / 100) ++
        ofChar '.' :: padded 2 (m.natAbs % 100)) := by
      obtain ⟨c, rest, hc⟩ := List.exists_cons_of_ne_nil (natText_ne_nil (m.natAbs / 100))
      have hd : isDigit c := natText_digits _ c (by rw [hc]; exact List.mem_cons_self)
      have hplus : c ≠ ofChar '+' := by
        rintro rfl
        exact absurd hd (by decide)
      rw [moneyText, if_neg hneg, List.nil_append, hc, List.cons_append, splitSign,
        if_neg (isDigit_ne hd).1, if_neg hplus]
    simp only [hsign, hunsigned, Option.map_some, Bool.false_eq_true, if_false, Option.some.injEq]
    rw [Nat.cast_natAbs, abs_of_nonneg (not_lt.mp hneg)]

/-! ## Documents -/

namespace Value

theorem find?_jsonMembers {members : List (Text × Value)} {js : List (Text × Json)}
    (h : jsonMembers members = some js) {key : Text} {v : Value}
    (hfind : (members.find? fun m => m.1 = key).map Prod.snd = some v) :
    ∃ j, v.jsonValue = some j ∧ (js.find? fun m => m.1 = key).map Prod.snd = some j := by
  induction members generalizing js with
  | nil => cases hfind
  | cons m members ih =>
    obtain ⟨k, w⟩ := m
    simp only [jsonMembers, Option.bind_eq_bind, Option.bind_eq_some_iff, Option.pure_def,
      Option.some.injEq] at h
    obtain ⟨j, hj, js, hjs, rfl⟩ := h
    by_cases hk : k = key
    · rw [List.find?_cons_of_pos (by simpa using hk)] at hfind
      obtain rfl := Option.some.inj hfind
      exact ⟨j, hj, by rw [List.find?_cons_of_pos (by simpa using hk)]; rfl⟩
    · rw [List.find?_cons_of_neg (by simpa using hk)] at hfind
      obtain ⟨i, hi, hfound⟩ := ih hjs hfind
      exact ⟨i, hi, by rw [List.find?_cons_of_neg (by simpa using hk)]; exact hfound⟩

/-- The JSON form of a dataclass has the JSON forms of its fields. -/
theorem item_of_field {v w : Value} {document : Json} {key : Text}
    (h : v.jsonValue = some document) (hfield : v.field? key = some w) :
    ∃ j, w.jsonValue = some j ∧ item document key = .ok j := by
  cases v with
  | fields members =>
    rw [jsonValue, Option.map_eq_some_iff] at h
    obtain ⟨js, hjs, rfl⟩ := h
    obtain ⟨j, hj, hfind⟩ := find?_jsonMembers hjs hfield
    obtain ⟨m, hm, rfl⟩ := Option.map_eq_some_iff.mp hfind
    exact ⟨m.2, hj, by rw [item, hm]⟩
  | _ => cases hfield

theorem jsonItems_eq_some {items : List Value} {js : List Json} :
    jsonItems items = some js ↔ List.Forall₂ (fun v j => v.jsonValue = some j) items js := by
  induction items generalizing js with
  | nil => cases js <;> simp [jsonItems]
  | cons v items ih =>
    simp only [jsonItems, Option.bind_eq_bind, Option.bind_eq_some_iff, Option.pure_def,
      Option.some.injEq, ih, List.forall₂_cons_left_iff]
    constructor
    · rintro ⟨j, hj, js, hjs, rfl⟩
      exact ⟨j, js, hj, hjs, rfl⟩
    · rintro ⟨j, js, hj, hjs, rfl⟩
      exact ⟨j, hj, js, hjs, rfl⟩

theorem jsonItems_isSome {α : Type*} {f : α → Value} {xs : List α}
    (h : ∀ x, (f x).jsonValue.isSome) : (jsonItems (xs.map f)).isSome := by
  induction xs with
  | nil => rfl
  | cons x xs ih =>
    obtain ⟨j, hj⟩ := Option.isSome_iff_exists.mp (h x)
    obtain ⟨js, hjs⟩ := Option.isSome_iff_exists.mp ih
    simp [jsonItems, hj, hjs]

theorem strings_jsonValue_isSome (items : List Text) : (strings items).jsonValue.isSome := by
  rw [strings, jsonValue, Option.isSome_map]
  exact jsonItems_isSome fun _ => rfl

end Value

theorem amountOf_money {v : Value} {row : Json} {cents : ℤ} (h : v.jsonValue = some row)
    (key : Text) (hfield : v.field? key = some (.decimal (.money cents))) :
    amountOf row key = .ok ((cents : ℚ) / 100) := by
  obtain ⟨j, hj, hitem⟩ := Value.item_of_field h hfield
  obtain rfl := Option.some.inj hj
  have hd : decimalText? (Amount.money cents).text = some ((cents : ℚ) / 100) :=
    decimalText?_moneyText cents
  rw [amountOf, hitem]
  simp only [bind, Except.bind, hd]

theorem textOf_field {v : Value} {row : Json} {s : Text} (h : v.jsonValue = some row)
    (key : Text) (hfield : v.field? key = some (.text s)) : item row key = .ok (.str s) := by
  obtain ⟨j, hj, hitem⟩ := Value.item_of_field h hfield
  obtain rfl := Option.some.inj hj
  exact hitem

/-- The rows under a list field are the JSON forms of its values. -/
theorem items_of_field {α : Type} {f : α → Value} {xs : List α} {v : Value} {document : Json}
    (h : v.jsonValue = some document) (key : Text)
    (hfield : v.field? key = some (.list (xs.map f))) :
    ∃ rows, items document key = .ok rows ∧
      List.Forall₂ (fun x row => (f x).jsonValue = some row) xs rows := by
  obtain ⟨j, hj, hitem⟩ := Value.item_of_field h hfield
  rw [Value.jsonValue, Option.map_eq_some_iff] at hj
  obtain ⟨rows, hrows, rfl⟩ := hj
  refine ⟨rows, ?_, List.forall₂_map_left_iff.mp (Value.jsonItems_eq_some.mp hrows)⟩
  rw [items, hitem]
  rfl

/-! ## Rows of a result -/

theorem TransactionReconciliation.json_isSome (t : TransactionReconciliation) :
    t.toValue.jsonValue.isSome := by
  obtain ⟨j, hj⟩ := Option.isSome_iff_exists.mp
    (Value.strings_jsonValue_isSome (t.exceptionCodes.map ExceptionCode.value))
  simp [toValue, Value.jsonValue, Value.jsonMembers, hj]

theorem PayoutReconciliation.json_isSome (p : PayoutReconciliation) :
    p.toValue.jsonValue.isSome := by
  obtain ⟨j, hj⟩ := Option.isSome_iff_exists.mp
    (Value.strings_jsonValue_isSome (p.exceptionCodes.map ExceptionCode.value))
  simp [toValue, Value.jsonValue, Value.jsonMembers, hj]

theorem ExpectedMovement.json_isSome (m : ExpectedMovement) : m.toValue.jsonValue.isSome := by
  obtain ⟨j, hj⟩ := Option.isSome_iff_exists.mp
    (Value.strings_jsonValue_isSome m.supportingSourceRecordIds)
  simp [toValue, Value.jsonValue, Value.jsonMembers, hj]

theorem ReconciliationException.json_isSome (x : ReconciliationException) :
    x.toValue.jsonValue.isSome := by
  obtain ⟨j, hj⟩ := Option.isSome_iff_exists.mp
    (Value.strings_jsonValue_isSome x.supportingSourceRecordIds)
  have hamount : ∀ a : Option Amount, ∃ i, (Value.optional .decimal a).jsonValue = some i := by
    rintro (_ | a) <;> exact ⟨_, rfl⟩
  obtain ⟨expected, hexpected⟩ := hamount x.expectedAmount
  obtain ⟨actual, hactual⟩ := hamount x.actualAmount
  obtain ⟨variance, hvariance⟩ := hamount x.variance
  simp [toValue, Value.jsonValue, Value.jsonMembers, hj, hexpected, hactual, hvariance]

theorem optionalText_isSome (a : Option Text) :
    ∃ j, (Value.optional .text a).jsonValue = some j := by
  rcases a with _ | a <;> exact ⟨_, rfl⟩

theorem SourceReportStatus.json_isSome (s : SourceReportStatus) : s.toValue.jsonValue.isSome := by
  obtain ⟨batchId, hbatchId⟩ := optionalText_isSome s.batchId
  obtain ⟨reason, hreason⟩ := optionalText_isSome s.reason
  simp [toValue, Value.jsonValue, Value.jsonMembers, hbatchId, hreason]

theorem QuarantinedRecord.json_isSome (q : QuarantinedRecord) : q.toValue.jsonValue.isSome := by
  obtain ⟨sourceId, hsourceId⟩ := optionalText_isSome q.sourceId
  simp [toValue, Value.jsonValue, Value.jsonMembers, hsourceId]

/-- Every result has a JSON form. -/
theorem ReconciliationResult.json_isSome (r : ReconciliationResult) :
    ∃ document, r.toValue.jsonValue = some document := by
  have hrows : ∀ {α : Type} {f : α → Value} (xs : List α), (∀ x, (f x).jsonValue.isSome) →
      ∃ rows, Value.jsonItems (xs.map f) = some rows := fun xs h =>
    Option.isSome_iff_exists.mp (Value.jsonItems_isSome h)
  obtain ⟨transactions, htransactions⟩ := hrows r.transactions TransactionReconciliation.json_isSome
  obtain ⟨movements, hmovements⟩ := hrows r.expectedMovements ExpectedMovement.json_isSome
  obtain ⟨payouts, hpayouts⟩ := hrows r.payouts PayoutReconciliation.json_isSome
  obtain ⟨exceptions, hexceptions⟩ := hrows r.exceptions ReconciliationException.json_isSome
  obtain ⟨reports, hreports⟩ := hrows r.sourceCompleteness SourceReportStatus.json_isSome
  obtain ⟨quarantine, hquarantine⟩ := hrows r.quarantineRecords QuarantinedRecord.json_isSome
  refine Option.isSome_iff_exists.mp ?_
  simp [toValue, Value.jsonValue, Value.jsonMembers, htransactions, hmovements, hpayouts,
    hexceptions, hreports, hquarantine]

/-! ## Arithmetic of the document -/

theorem cents_sub {a b c : ℤ} (h : a = b - c) : (a : ℚ) / 100 = (b : ℚ) / 100 - (c : ℚ) / 100 := by
  rw [h, Int.cast_sub, sub_div]

theorem checkTransaction_ok {t : TransactionReconciliation} {row : Json}
    (h : t.toValue.jsonValue = some row)
    (hcollection : t.collectionVariance = t.capturedTotal - t.expectedCollection)
    (hnet : t.lifetimeNetCollection =
      t.capturedTotal - t.successfulRefundTotal - t.expectedFeeTotal) :
    checkTransaction row = .ok () := by
  have hnet : ((t.lifetimeNetCollection : ℚ) / 100) = (t.capturedTotal : ℚ) / 100 -
      (t.successfulRefundTotal : ℚ) / 100 - (t.expectedFeeTotal : ℚ) / 100 := by
    rw [cents_sub hnet, Int.cast_sub, sub_div]
  unfold checkTransaction
  simp only [bind_eq_ok, require_eq_ok, exists_const]
  exact ⟨_, amountOf_money h (txt "collection_variance") rfl,
    _, amountOf_money h (txt "captured_total") rfl,
    _, amountOf_money h (txt "expected_collection") rfl, cents_sub hcollection,
    _, amountOf_money h (txt "lifetime_net_collection") rfl,
    _, amountOf_money h (txt "successful_refund_total") rfl,
    _, amountOf_money h (txt "expected_fee_total") rfl, hnet⟩

theorem checkPayout_ok {p : PayoutReconciliation} {row : Json} (h : p.toValue.jsonValue = some row)
    (hprovider : p.providerReportVariance = p.reportedNetAmount - p.reportedLineTotal)
    (hendToEnd : p.endToEndPayoutVariance = p.reportedNetAmount - p.expectedPayout) :
    checkPayout row = .ok () := by
  unfold checkPayout
  simp only [bind_eq_ok, require_eq_ok, exists_const]
  exact ⟨_, amountOf_money h (txt "provider_report_variance") rfl,
    _, amountOf_money h (txt "reported_net_amount") rfl,
    _, amountOf_money h (txt "reported_line_total") rfl, cents_sub hprovider,
    _, amountOf_money h (txt "end_to_end_payout_variance") rfl,
    _, amountOf_money h (txt "expected_payout") rfl, cents_sub hendToEnd⟩

/-- Rows with one text field have its values. -/
theorem mapM_item {α : Type} {f : α → Value} {xs : List α} {rows : List Json} {key : Text}
    {id : α → Text} (h : List.Forall₂ (fun x row => (f x).jsonValue = some row) xs rows)
    (hid : ∀ x, (f x).field? key = some (.text (id x))) :
    rows.mapM (fun row => item row key) = .ok (xs.map fun x => Json.str (id x)) := by
  rw [mapM_eq_ok, List.forall₂_map_right_iff]
  exact (h.imp fun x row hx => textOf_field hx key (hid x)).flip

theorem forall_of_forall₂ {α β : Type*} {R : α → β → Prop} {p : β → Prop} {xs : List α}
    {ys : List β} (h : List.Forall₂ R xs ys) (hp : ∀ x ∈ xs, ∀ y, R x y → p y) :
    ∀ y ∈ ys, p y := by
  induction h with
  | nil => simp
  | cons hxy _ ih =>
    rw [List.forall_mem_cons]
    exact ⟨hp _ List.mem_cons_self _ hxy, ih fun x hx => hp x (List.mem_cons_of_mem _ hx)⟩

/-- Distinct rows whose variances are differences pass as a document. -/
theorem validateArithmetic_ok {r : ReconciliationResult} {document : Json}
    (h : r.toValue.jsonValue = some document)
    (horders : (r.transactions.map TransactionReconciliation.orderId).Nodup)
    (hpayouts : (r.payouts.map PayoutReconciliation.payoutId).Nodup)
    (htransaction : ∀ t ∈ r.transactions,
      t.collectionVariance = t.capturedTotal - t.expectedCollection ∧
        t.lifetimeNetCollection = t.capturedTotal - t.successfulRefundTotal - t.expectedFeeTotal)
    (hpayout : ∀ p ∈ r.payouts,
      p.providerReportVariance = p.reportedNetAmount - p.reportedLineTotal ∧
        p.endToEndPayoutVariance = p.reportedNetAmount - p.expectedPayout) :
    validateArithmetic document = .ok () := by
  obtain ⟨transactionRows, htransactions, htrows⟩ := items_of_field h (txt "transactions") rfl
  obtain ⟨payoutRows, hpayoutItems, hprows⟩ := items_of_field h (txt "payouts") rfl
  have hnodup : ∀ {α : Type} {id : α → Text} {xs : List α}, (xs.map id).Nodup →
      (xs.map fun x => Json.str (id x)).Nodup := by
    intro α id xs hn
    have hs := hn.map (f := Json.str) fun a b => Json.str.inj
    rwa [List.map_map] at hs
  unfold validateArithmetic
  simp only [bind_eq_ok, require_eq_ok, forM_eq_ok, exists_const]
  exact ⟨_, htransactions, _, hpayoutItems, _, mapM_item htrows fun _ => rfl,
    _, mapM_item hprows fun _ => rfl, hnodup horders, hnodup hpayouts,
    forall_of_forall₂ htrows fun t ht row hrow =>
      checkTransaction_ok hrow (htransaction t ht).1 (htransaction t ht).2,
    forall_of_forall₂ hprows fun p hp row hrow =>
      checkPayout_ok hrow (hpayout p hp).1 (hpayout p hp).2⟩

end Threadline
