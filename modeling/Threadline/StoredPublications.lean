import Threadline.LogicalForm
import Threadline.RecoveryBehavior

/-!
# Stored publications

A published document is stored as JSON, which keeps its values and not the order
of its members. Whatever order the members come back in, the document has the
logical rows of the result, and the stored fingerprint verifies.
-/

open PyText PyJson PyCalendar PySorted PyExcept UnorderedTree

namespace Threadline

/-! ## Documents that differ in the order of members -/

/-- The items of two arrays with one canonical text. -/
theorem canonItems_eq {xs ys : List Json} (h : canonItems xs = canonItems ys) :
    List.Forall₂ (fun x y => canon x = canon y) xs ys := by
  rw [canonItems_eq_map, canonItems_eq_map] at h
  exact List.forall₂_map_left_iff.mp (List.forall₂_map_right_iff.mp (List.forall₂_eq_eq_eq ▸ h))

/-- The members of two objects with one canonical text. -/
theorem canonMembers_perm {ms ns : List (Text × Json)}
    (h : canon (.obj ms) = canon (.obj ns)) : (canonMembers ms).Perm (canonMembers ns) := by
  rw [canon, canon] at h
  exact ((sortedBy_perm _ _).symm.trans (List.Perm.of_eq (Json.obj.inj h))).trans
    (sortedBy_perm _ _)

theorem exactCents_of_canon {j j' : Json} (h : canon j = canon j') :
    (jsonToValue j').exactCents = (jsonToValue j).exactCents := by
  cases j <;> cases j' <;> simp only [canon, reduceCtorEq] at h <;>
    first | rfl | rw [h]

/-- What is left of one field. -/
def erasedField (k : Text) (v : Value) : Option (List (Text × LogicalTree)) :=
  if k ∈ auditFields then some []
  else (if k ∈ moneyFields then v.exactCents.map fun cents => .scalar (centsScalar cents)
    else v.tree).map fun t => [(k, t)]

theorem treeMembers_cons (k : Text) (v : Value) (members : List (Text × Value)) :
    Value.treeMembers ((k, v) :: members) =
      (erasedField k v).bind fun m => (Value.treeMembers members).map (m ++ ·) := by
  rw [Value.treeMembers, erasedField]
  split_ifs with haudit hmoney
  · cases Value.treeMembers members <;> rfl
  · cases v.exactCents <;> cases Value.treeMembers members <;> rfl
  · cases v.tree <;> cases Value.treeMembers members <;> rfl

theorem treeMembers_append (ms ns : List (Text × Value)) :
    Value.treeMembers (ms ++ ns) =
      (Value.treeMembers ms).bind fun ts => (Value.treeMembers ns).map (ts ++ ·) := by
  induction ms with
  | nil =>
    rw [Value.treeMembers, List.nil_append, Option.bind_some]
    cases Value.treeMembers ns <;> rfl
  | cons m ms ih =>
    obtain ⟨k, v⟩ := m
    rw [List.cons_append, treeMembers_cons, treeMembers_cons, ih]
    cases erasedField k v <;> cases Value.treeMembers ms <;> cases Value.treeMembers ns <;> simp

theorem jsonToFields_eq_map (ms : List (Text × Json)) :
    jsonToFields ms = ms.map fun m => (m.1, jsonToValue m.2) := by
  induction ms with
  | nil => rfl
  | cons m ms ih =>
    obtain ⟨k, j⟩ := m
    rw [jsonToFields, ih, List.map_cons]

mutual

/-- A document with the same canonical text has the same rows. -/
theorem tree_of_canon : ∀ (j j' : Json) {t : LogicalTree}, canon j = canon j' →
    (jsonToValue j).tree = some t → ∃ t', (jsonToValue j').tree = some t' ∧ Same t t'
  | .arr xs, .arr ys, t, h, ht => by
    rw [jsonToValue, Value.tree, Option.map_eq_some_iff] at ht
    obtain ⟨ts, hts, rfl⟩ := ht
    rw [canon, canon] at h
    obtain ⟨ts', hts', hsame⟩ := treeItems_of_canon xs ys (Json.arr.inj h) hts
    exact ⟨.list ts', by rw [jsonToValue, Value.tree, hts', Option.map_some],
      .list (SameItems.of_forall₂ hsame)⟩
  | .obj ms, .obj ns, t, h, ht => by
    rw [jsonToValue, Value.tree, Option.map_eq_some_iff] at ht
    obtain ⟨ts, hts, rfl⟩ := ht
    obtain ⟨ts', hts', hsame⟩ := treeMembers_of_canon ms ns (canonMembers_perm h) hts
    exact ⟨.record ts', by rw [jsonToValue, Value.tree, hts', Option.map_some], .record hsame⟩
  | .null, j', t, h, ht | .bool _, j', t, h, ht | .num _, j', t, h, ht | .str _, j', t, h, ht => by
    -- A scalar is its own canonical form.
    cases j' <;> simp only [canon, reduceCtorEq] at h
    exact ⟨t, by simpa only [h] using ht, .refl t⟩
  | .arr _, .null, _, h, _ | .arr _, .bool _, _, h, _ | .arr _, .num _, _, h, _
  | .arr _, .str _, _, h, _ | .arr _, .obj _, _, h, _ | .obj _, .null, _, h, _
  | .obj _, .bool _, _, h, _ | .obj _, .num _, _, h, _ | .obj _, .str _, _, h, _
  | .obj _, .arr _, _, h, _ => by
    simp only [canon, reduceCtorEq] at h

theorem treeItems_of_canon : ∀ (xs ys : List Json) {ts : List LogicalTree},
    canonItems xs = canonItems ys → Value.treeItems (jsonToValues xs) = some ts →
    ∃ ts', Value.treeItems (jsonToValues ys) = some ts' ∧ List.Forall₂ Same ts ts'
  | [], [], ts, _, hts => by
    obtain rfl := Option.some.inj hts
    exact ⟨[], rfl, .nil⟩
  | x :: xs, y :: ys, ts, h, hts => by
    simp only [jsonToValues, Value.treeItems, Option.bind_eq_bind, Option.bind_eq_some_iff,
      Option.pure_def, Option.some.injEq] at hts ⊢
    obtain ⟨t, ht, ts, hts, rfl⟩ := hts
    rw [canonItems, canonItems] at h
    obtain ⟨hx, hxs⟩ := List.cons.inj h
    obtain ⟨t', ht', hsame⟩ := tree_of_canon x y hx ht
    obtain ⟨ts', hts', hsames⟩ := treeItems_of_canon xs ys hxs hts
    exact ⟨t' :: ts', ⟨t', ht', ts', hts', rfl⟩, .cons hsame hsames⟩

theorem treeMembers_of_canon : ∀ (ms ns : List (Text × Json)) {ts : List (Text × LogicalTree)},
    (canonMembers ms).Perm (canonMembers ns) →
    Value.treeMembers (jsonToFields ms) = some ts →
    ∃ ts', Value.treeMembers (jsonToFields ns) = some ts' ∧ SameMembers ts ts'
  | [], ns, ts, h, hts => by
    rw [canonMembers_eq_map, canonMembers_eq_map] at h
    obtain rfl := List.map_eq_nil_iff.mp h.nil_eq.symm
    obtain rfl := Option.some.inj hts
    exact ⟨[], rfl, .nil⟩
  | (k, v) :: ms, ns, ts, h, hts => by
    rw [canonMembers, canonMembers_eq_map ns] at h
    obtain ⟨⟨k', v'⟩, hmem, hmember⟩ := List.mem_map.mp (h.subset List.mem_cons_self)
    obtain ⟨rfl, hv⟩ : k' = k ∧ canon v' = canon v := Prod.mk.inj hmember
    obtain ⟨ns₁, ns₂, rfl⟩ := List.append_of_mem hmem
    rw [List.map_append, List.map_cons, hmember] at h
    have hrest : (canonMembers ms).Perm (canonMembers (ns₁ ++ ns₂)) := by
      rw [canonMembers_eq_map (ns₁ ++ ns₂), List.map_append]
      exact (h.trans List.perm_middle).cons_inv
    simp only [jsonToFields, treeMembers_cons, Option.bind_eq_some_iff, Option.map_eq_some_iff]
      at hts
    obtain ⟨m, hm, rest, hms, rfl⟩ := hts
    obtain ⟨rest', hns, hsame⟩ := treeMembers_of_canon ms _ hrest hms
    have hfield : ∃ m', erasedField k' (jsonToValue v') = some m' ∧
        (m = [] ∧ m' = [] ∨ ∃ t t', m = [(k', t)] ∧ m' = [(k', t')] ∧ Same t t') := by
      unfold erasedField at hm ⊢
      rw [exactCents_of_canon hv.symm]
      split_ifs at hm ⊢ with haudit hmoney
      · exact ⟨[], rfl, .inl ⟨(Option.some.inj hm).symm, rfl⟩⟩
      · obtain ⟨t, ht, rfl⟩ := Option.map_eq_some_iff.mp hm
        exact ⟨_, by rw [ht, Option.map_some], .inr ⟨t, t, rfl, rfl, .refl t⟩⟩
      · obtain ⟨t, ht, rfl⟩ := Option.map_eq_some_iff.mp hm
        obtain ⟨t', ht', hsame⟩ := tree_of_canon v v' hv.symm ht
        exact ⟨_, by rw [ht', Option.map_some], .inr ⟨t, t', rfl, rfl, hsame⟩⟩
    obtain ⟨m', hm', hmm'⟩ := hfield
    simp only [jsonToFields_eq_map, List.map_append, List.map_cons, treeMembers_append,
      treeMembers_cons, Option.bind_eq_some_iff, Option.map_eq_some_iff, hm', Option.bind_some]
      at hns ⊢
    obtain ⟨ts₁, hts₁, ts₂, hts₂, rfl⟩ := hns
    refine ⟨ts₁ ++ (m' ++ ts₂), ⟨ts₁, hts₁, m' ++ ts₂, ⟨ts₂, hts₂, rfl⟩, rfl⟩, ?_⟩
    obtain ⟨rfl, rfl⟩ | ⟨t, t', rfl, rfl, ht⟩ := hmm'
    · exact hsame
    · exact .cons ht hsame

end

/-! ## Fields of documents -/

theorem jsonMembers_keys {members : List (Text × Value)} {js : List (Text × Json)}
    (h : Value.jsonMembers members = some js) : js.map Prod.fst = members.map Prod.fst := by
  induction members generalizing js with
  | nil =>
    obtain rfl := Option.some.inj h
    rfl
  | cons m members ih =>
    simp only [Value.jsonMembers, Option.bind_eq_bind, Option.bind_eq_some_iff, Option.pure_def,
      Option.some.injEq] at h
    obtain ⟨j, -, js, hjs, rfl⟩ := h
    rw [List.map_cons, List.map_cons, ih hjs]

mutual

/-- A document has the field names of its value. -/
theorem Distinct.reread : ∀ {v : Value} {j : Json}, v.Distinct → v.jsonValue = some j →
    (jsonToValue j).Distinct
  | .list items, _, hv, h => by
    rw [Value.jsonValue, Option.map_eq_some_iff] at h
    obtain ⟨js, hjs, rfl⟩ := h
    exact DistinctItems.reread hv hjs
  | .fields members, _, hv, h => by
    rw [Value.jsonValue, Option.map_eq_some_iff] at h
    obtain ⟨js, hjs, rfl⟩ := h
    refine ⟨?_, DistinctMembers.reread hv.2 hjs⟩
    rw [jsonToFields_eq_map, List.map_map]
    exact jsonMembers_keys hjs ▸ hv.1
  | .number (.int _), _, _, h | .none, _, _, h | .bool _, _, _, h | .text _, _, _, h
  | .decimal _, _, _, h | .datetime _, _, _, h | .date _, _, _, h => by
    obtain rfl := Option.some.inj h
    exact trivial
  | .number (.float _), _, _, h | .number (.infinity _), _, _, h => nomatch h

theorem DistinctItems.reread : ∀ {items : List Value} {js : List Json},
    Value.DistinctItems items → Value.jsonItems items = some js →
    Value.DistinctItems (jsonToValues js)
  | [], _, _, h => by
    obtain rfl := Option.some.inj h
    exact trivial
  | v :: items, _, hv, h => by
    simp only [Value.jsonItems, Option.bind_eq_bind, Option.bind_eq_some_iff, Option.pure_def,
      Option.some.injEq] at h
    obtain ⟨j, hj, js, hjs, rfl⟩ := h
    exact ⟨Distinct.reread hv.1 hj, DistinctItems.reread hv.2 hjs⟩

theorem DistinctMembers.reread : ∀ {members : List (Text × Value)} {js : List (Text × Json)},
    Value.DistinctMembers members → Value.jsonMembers members = some js →
    Value.DistinctMembers (jsonToFields js)
  | [], _, _, h => by
    obtain rfl := Option.some.inj h
    exact trivial
  | (k, v) :: members, _, hv, h => by
    simp only [Value.jsonMembers, Option.bind_eq_bind, Option.bind_eq_some_iff, Option.pure_def,
      Option.some.injEq] at h
    obtain ⟨j, hj, js, hjs, rfl⟩ := h
    exact ⟨Distinct.reread hv.1 hj, DistinctMembers.reread hv.2 hjs⟩

end

/-- A field of a document is found in every order of its members. -/
theorem field?_of_canon {j j' : Json} {v : Value} {key : Text} (hj : (jsonToValue j).Distinct)
    (h : canon j = canon j') (hfield : (jsonToValue j).field? key = some v) :
    ∃ w w', v = jsonToValue w ∧ (jsonToValue j').field? key = some (jsonToValue w') ∧
      canon w = canon w' := by
  cases j with
  | obj ms =>
    cases j' with
    | obj ns =>
      have hperm := canonMembers_perm h
      rw [canonMembers_eq_map, canonMembers_eq_map] at hperm
      have hkeys : (ns.map Prod.fst).Nodup := by
        have hms := hj.1
        rw [jsonToFields_eq_map, List.map_map] at hms
        have hfst := hperm.map Prod.fst
        rw [List.map_map, List.map_map] at hfst
        exact hfst.nodup_iff.mp hms
      rw [jsonToValue, Value.field?, Value.find?_jsonToFields, Option.map_map] at hfield
      obtain ⟨m, hm, rfl⟩ := Option.map_eq_some_iff.mp hfield
      have hkey : m.1 = key := by simpa using List.find?_some hm
      obtain ⟨n, hn, hmn⟩ := List.mem_map.mp (hperm.subset
        (List.mem_map_of_mem (f := fun m : Text × Json => (m.1, canon m.2))
          (List.mem_of_find?_eq_some hm)))
      obtain ⟨hname, hvalue⟩ := Prod.mk.inj hmn
      have hfind : (ns.find? fun n => n.1 = key) = some n := by
        obtain ⟨n', hn'⟩ := Option.isSome_iff_exists.mp (List.find?_isSome.mpr
          (⟨n, hn, by simpa using hname.trans hkey⟩ : ∃ n ∈ ns, decide (n.1 = key) = true))
        have hkey' : n'.1 = key := by simpa using List.find?_some hn'
        rw [hn', List.inj_on_of_nodup_map hkeys (List.mem_of_find?_eq_some hn') hn
          (hkey'.trans (hname.trans hkey).symm)]
      exact ⟨m.2, n.2, rfl, by
        rw [jsonToValue, Value.field?, Value.find?_jsonToFields, hfind]
        rfl, hvalue.symm⟩
    | _ => simp only [canon, reduceCtorEq] at h
  | _ => cases hfield

/-- The logical document does not show the order of members. -/
theorem logicalDocument_of_canon {j j' logical : Json} {version : Text}
    (hj : (jsonToValue j).Distinct) (h : canon j = canon j')
    (hversion : (jsonToValue j).field? (txt "contract_version") = some (.text version))
    (hl : logicalDocument (jsonToValue j) = some logical) :
    ∃ logical', logicalDocument (jsonToValue j') = some logical' ∧
      canon logical' = canon logical := by
  obtain ⟨written, sections, hwritten, hsections, rfl⟩ := Value.logicalDocument_eq_some.mp hl
  have hsame : ∀ {name t}, (jsonToValue j).section? name = some t →
      ∃ t', (jsonToValue j').section? name = some t' ∧ canon (treeJson t') = canon (treeJson t) := by
    intro name t ht
    obtain ⟨v, hv, htree⟩ := Option.bind_eq_some_iff.mp ht
    obtain ⟨w, w', rfl, hw', hcanon⟩ := field?_of_canon hj h hv
    obtain ⟨t', ht', hsame⟩ := tree_of_canon w w' hcanon htree
    have hdistinct := hj.section? ht
    exact ⟨t', by rw [Value.section?, hw', Option.bind_some, ht'],
      (treeForm_canonical.form_eq _ _ hdistinct (hsame.distinct _ _ hdistinct) hsame).symm⟩
  have hrest : ∃ sections', List.Forall₂ (fun name m =>
      ∃ t, (jsonToValue j').section? name = some t ∧ m = (name, treeJson t))
      logicalSections sections' ∧ canonMembers sections' = canonMembers sections := by
    clear hl
    generalize logicalSections = names at hsections
    induction hsections with
    | nil => exact ⟨[], .nil, rfl⟩
    | @cons name m _ _ hm _ ih =>
      obtain ⟨t, ht, rfl⟩ := hm
      obtain ⟨t', ht', hcanon⟩ := hsame ht
      obtain ⟨sections', hsections', hcanons⟩ := ih
      exact ⟨_, .cons ⟨t', ht', rfl⟩ hsections', by
        rw [canonMembers, canonMembers, hcanon, hcanons]⟩
  obtain ⟨sections', hsections', hcanon⟩ := hrest
  refine ⟨_, Value.logicalDocument_eq_some.mpr ⟨written, sections', ?_, hsections', rfl⟩, ?_⟩
  · obtain ⟨w, w', hw, hw', hcanon⟩ := field?_of_canon hj h hversion
    cases w with
    | str s =>
      cases w' <;> simp only [canon, reduceCtorEq] at hcanon
      obtain rfl := Json.str.inj hcanon
      rw [Value.contractVersion?, hw', ← hw, ← hversion]
      exact hwritten
    | _ => cases hw
  · rw [canon, canon, canonMembers, canonMembers, canonMembers, canonMembers, hcanon]

/-! ## Verification -/

/-- What `verify_stored_financial_result` raises. -/
inductive StoredResultError
  | notAnObject
  | unsupportedVersion (version : Json)
  | unreadable
  | mismatch

/-- `verify_stored_financial_result`. -/
def RecoveryResult.verifyStoredFinancialResult (sha256 : Bytes → Text) (stored : RecoveryResult) :
    Except StoredResultError Text :=
  match fingerprintVersion stored.resultPayload with
  | .error _ => .error .notAnObject
  | .ok version =>
    if equalsInt version financialFingerprintVersion then
      match Threadline.logicalFingerprint sha256 (jsonToValue stored.resultPayload) with
      | none => .error .unreadable
      | some calculated =>
        if calculated = stored.logicalFingerprint then .ok calculated else .error .mismatch
    else .error (.unsupportedVersion version)

theorem storedValue_distinct (r : ReconciliationResult) : r.storedValue.Distinct := by
  have hr := r.toValue_distinct
  refine ⟨?_, Value.distinctMembers_iff.mpr fun m hm => ?_⟩
  · simp only [List.map_cons, List.map_nil, List.cons_append, List.nil_append]
    decide +kernel
  · rcases List.mem_append.mp hm with hm | hm
    · exact Value.distinctMembers_iff.mp hr.2 m hm
    · rw [List.mem_singleton.mp hm]
      exact trivial

theorem jsonMembers_concat {members : List (Text × Value)} {js : List (Text × Json)} {k : Text}
    {v : Value} {j : Json} (h : Value.jsonMembers members = some js) (hv : v.jsonValue = some j) :
    Value.jsonMembers (members ++ [(k, v)]) = some (js ++ [(k, j)]) := by
  induction members generalizing js with
  | nil =>
    obtain rfl := Option.some.inj h
    simp [Value.jsonMembers, hv]
  | cons m members ih =>
    simp only [Value.jsonMembers, Option.bind_eq_bind, Option.bind_eq_some_iff, Option.pure_def,
      Option.some.injEq, List.cons_append] at h ⊢
    obtain ⟨i, hi, is, his, rfl⟩ := h
    exact ⟨i, hi, _, ih his, rfl⟩

/-- Every result can be stored. -/
theorem exists_storedDocument (r : ReconciliationResult) :
    ∃ document, r.storedValue.jsonValue = some document := by
  obtain ⟨document, hdocument⟩ := r.json_isSome
  rw [ReconciliationResult.toValue, Value.jsonValue, Option.map_eq_some_iff] at hdocument
  obtain ⟨js, hjs, -⟩ := hdocument
  exact ⟨_, by
    rw [ReconciliationResult.storedValue, ReconciliationResult.toValue]
    rw [Value.jsonValue, jsonMembers_concat hjs rfl, Option.map_some]⟩

mutual

/-- No result holds an infinity. -/
theorem finite_of_jsonValue : ∀ {v : Value} {j : Json}, v.jsonValue = some j → finite j = true
  | .list items, _, h => by
    rw [Value.jsonValue, Option.map_eq_some_iff] at h
    obtain ⟨js, hjs, rfl⟩ := h
    exact finiteItems_of_jsonItems hjs
  | .fields members, _, h => by
    rw [Value.jsonValue, Option.map_eq_some_iff] at h
    obtain ⟨js, hjs, rfl⟩ := h
    exact finiteMembers_of_jsonMembers hjs
  | .number (.int _), _, h | .none, _, h | .bool _, _, h | .text _, _, h
  | .decimal _, _, h | .datetime _, _, h | .date _, _, h => by
    obtain rfl := Option.some.inj h
    rfl
  | .number (.float _), _, h | .number (.infinity _), _, h => nomatch h

theorem finiteItems_of_jsonItems : ∀ {items : List Value} {js : List Json},
    Value.jsonItems items = some js → finiteItems js = true
  | [], _, h => by
    obtain rfl := Option.some.inj h
    rfl
  | v :: items, _, h => by
    simp only [Value.jsonItems, Option.bind_eq_bind, Option.bind_eq_some_iff, Option.pure_def,
      Option.some.injEq] at h
    obtain ⟨j, hj, js, hjs, rfl⟩ := h
    rw [finiteItems, finite_of_jsonValue hj, finiteItems_of_jsonItems hjs, Bool.and_self]

theorem finiteMembers_of_jsonMembers : ∀ {members : List (Text × Value)} {js : List (Text × Json)},
    Value.jsonMembers members = some js → finiteMembers js = true
  | [], _, h => by
    obtain rfl := Option.some.inj h
    rfl
  | (k, v) :: members, _, h => by
    simp only [Value.jsonMembers, Option.bind_eq_bind, Option.bind_eq_some_iff, Option.pure_def,
      Option.some.injEq] at h
    obtain ⟨j, hj, js, hjs, rfl⟩ := h
    rw [finiteMembers, finite_of_jsonValue hj, finiteMembers_of_jsonMembers hjs, Bool.and_self]

end

/-- The version is found in every order of the members. -/
theorem fingerprintVersion_of_canon {document payload : Json} {r : ReconciliationResult}
    (hdocument : r.storedValue.jsonValue = some document) (h : canon payload = canon document) :
    fingerprintVersion payload = .ok (.num (.int financialFingerprintVersion)) := by
  obtain ⟨j, hj, hfield⟩ := @Value.field?_reread _ (.number (.int financialFingerprintVersion)) _
    (txt "financial_fingerprint_version") hdocument rfl
  obtain rfl := Option.some.inj hj
  obtain ⟨w, w', hw, hw', hcanon⟩ :=
    field?_of_canon (Distinct.reread (storedValue_distinct r) hdocument) h.symm hfield
  cases w with
  | num n =>
    cases w' <;> simp only [canon, reduceCtorEq] at hcanon
    obtain rfl := Json.num.inj hcanon
    rw [← hw] at hw'
    cases payload with
    | obj members =>
      simp only [jsonToValue, Value.field?, Value.find?_jsonToFields, Option.map_map] at hw'
      obtain ⟨m, hm, hvalue⟩ := Option.map_eq_some_iff.mp hw'
      rw [fingerprintVersion, hm]
      obtain ⟨key, j⟩ := m
      cases j with
      | num n =>
        obtain rfl := Value.number.inj hvalue
        rfl
      | _ => cases hvalue
    | _ => cases hw'
  | _ => cases hw

variable {sha256 : Bytes → Text} {r : ReconciliationResult} {fingerprint : Text}

/-- A document that is read back has the logical document of the result. -/
theorem logicalDocument_payload {v : Value} {document payload logical : Json} {version : Text}
    (hv : v.Distinct) (hversion : v.field? (txt "contract_version") = some (.text version))
    (hdocument : v.jsonValue = some document) (hpayload : canon payload = canon document)
    (hl : logicalDocument v = some logical) :
    ∃ logical', logicalDocument (jsonToValue payload) = some logical' ∧
      canon logical' = canon logical := by
  obtain ⟨j, hj, hfield⟩ := Value.field?_reread hdocument hversion
  obtain rfl := Option.some.inj hj
  exact logicalDocument_of_canon (Distinct.reread hv hdocument) hpayload.symm hfield
    (logicalDocument_reread hversion hdocument hl)

/-- The fingerprint verifies in whatever order the members come back. -/
theorem verify_storedValue {document payload : Json}
    (hf : logicalFingerprint sha256 r.toValue = some fingerprint)
    (hdocument : r.storedValue.jsonValue = some document) (hpayload : canon payload = canon document)
    (evidence : Text) :
    RecoveryResult.verifyStoredFinancialResult sha256 ⟨evidence, fingerprint, payload⟩ =
      .ok fingerprint := by
  obtain ⟨logical, hl, hdigest⟩ := Option.bind_eq_some_iff.mp hf
  obtain ⟨logical', hl', hcanon⟩ :=
    logicalDocument_payload (storedValue_distinct r) rfl hdocument hpayload hl
  have hcalculated : logicalFingerprint sha256 (jsonToValue payload) = some fingerprint := by
    rw [logicalFingerprint, hl', Option.bind_eq_bind, Option.bind_some,
      documentFingerprint_of_canon hcanon, hdigest]
  have hequals : equalsInt (.num (.int financialFingerprintVersion)) financialFingerprintVersion =
      true := rfl
  rw [RecoveryResult.verifyStoredFinancialResult]
  simp only [fingerprintVersion_of_canon hdocument hpayload, hequals, hcalculated, if_true]

/-- Stored publications verify: the decoded document of a result has its logical document, and the
artifact that is stored with it verifies and gives its fingerprint, in every state of the tables. -/
theorem stored_publications_verify (berlinToUtc : Date → ℕ → UtcDateTime) (sha256 : Bytes → Text) :
    (∀ (r : ReconciliationResult) (fingerprint : Text),
      logicalFingerprint sha256 r.toValue = some fingerprint →
      (∃ document text logical, r.toValue.jsonValue = some document ∧ dumps document = some text ∧
        logicalDocument r.toValue = some logical ∧ ∀ decoded, dumps decoded = some text →
          ∃ logical', logicalDocument (jsonToValue decoded) = some logical' ∧
            canon logical' = canon logical) ∧
      ∃ document, r.storedValue.jsonValue = some document ∧ ∀ payload evidence,
        canon payload = canon document →
        RecoveryResult.verifyStoredFinancialResult sha256 ⟨evidence, fingerprint, payload⟩ =
          .ok fingerprint) ∧
    ∀ events runId stored,
      (PublicationState.after berlinToUtc sha256 events).results.get? runId = some stored →
      ∃ r : ReconciliationResult, r.runId = runId ∧
        logicalFingerprint sha256 r.toValue = some stored.logicalFingerprint ∧
        ∀ payload, canon payload = canon stored.resultPayload →
          RecoveryResult.verifyStoredFinancialResult sha256
            { stored with resultPayload := payload } = .ok stored.logicalFingerprint := by
  refine ⟨fun r fingerprint hf => ⟨?_, ?_⟩, fun events runId stored hstored => ?_⟩
  · obtain ⟨document, hdocument⟩ := r.json_isSome
    obtain ⟨logical, hl, -⟩ := Option.bind_eq_some_iff.mp hf
    have hdumps : dumps document = some (render (canon document)) :=
      if_pos (finite_of_jsonValue hdocument)
    refine ⟨document, _, logical, hdocument, hdumps, hl, fun decoded hdecoded => ?_⟩
    exact logicalDocument_payload r.toValue_distinct rfl hdocument
      (canon_eq_of_dumps hdecoded hdumps) hl
  · obtain ⟨document, hdocument⟩ := exists_storedDocument r
    exact ⟨document, hdocument, fun payload evidence hpayload =>
      verify_storedValue hf hdocument hpayload evidence⟩
  · have hsound : (PublicationState.after berlinToUtc sha256 events).Sound berlinToUtc sha256 :=
      PublicationState.sound_after events
    obtain ⟨row, hrow⟩ := Option.isSome_iff_exists.mp
      (hsound.results runId (by rw [hstored]; rfl))
    obtain ⟨stored', r, hrecorded⟩ := hsound.runs runId row hrow
    obtain rfl := Option.some.inj (hrecorded.found.symm.trans hstored)
    exact ⟨r, hrecorded.named, hrecorded.hash, fun payload hpayload =>
      verify_storedValue hrecorded.hash hrecorded.payload hpayload _⟩

/-- The stored document of a capture and its fee verifies. -/
theorem stored_publications_verify_movements :
    ∃ document fingerprint,
      (LogicalResult.movementsOnly
        [LogicalResult.capture, LogicalResult.expectedFee]).storedValue.jsonValue = some document ∧
      RecoveryResult.verifyStoredFinancialResult LogicalResult.movementsDigest
        ⟨txt "evidence", fingerprint, document⟩ = .ok fingerprint := by
  obtain ⟨fingerprint, hf⟩ := Option.isSome_iff_exists.mp
    (show (logicalFingerprint LogicalResult.movementsDigest (LogicalResult.movementsOnly
      [LogicalResult.capture, LogicalResult.expectedFee]).toValue).isSome by decide +kernel)
  obtain ⟨document, hdocument, hverify⟩ :=
    ((stored_publications_verify (fun day _ => ⟨day, 0⟩) LogicalResult.movementsDigest).1 _ _ hf).2
  exact ⟨document, fingerprint, hdocument, hverify document _ rfl⟩

end Threadline
