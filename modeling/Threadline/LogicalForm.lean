import Threadline.RecoveryFingerprint
import Threadline.UnorderedTree

/-!
# The logical document as a canonical form

What is left of a result without its audit fields, its amounts as exact cents,
is a tree in which order does not count. Two results have the same logical
document exactly when these trees are the same.
-/

open PyText PyJson PyCalendar PySorted UnorderedTree

namespace Threadline

/-! ## Erasure -/

inductive LogicalScalar
  | null
  | bool (b : Bool)
  | int (n : ℤ)
  | text (s : Text)
  deriving DecidableEq

abbrev LogicalTree := UnorderedTree Text LogicalScalar

namespace Value

/-- The amount of a Decimal, an integer or a decimal string. -/
def amount? : Value → Option ℚ
  | .decimal a => some a.value
  | .number (.int n) => some n
  | .text s => decimalText? s
  | _ => Option.none

/-- The exact cents of a monetary value, which may be absent. -/
def exactCents (v : Value) : Option (Option ℤ) :=
  match v with
  | .none => some Option.none
  | v => v.amount?.bind fun amount =>
    if |amount * 100| ≤ maxMoney ∧ (amount * 100).den = 1 then some (some (amount * 100).num)
    else Option.none

def scalar? : Value → Option LogicalScalar
  | .none => some .null
  | .bool b => some (.bool b)
  | .number (.int n) => some (.int n)
  | .text s => some (.text s)
  | .decimal a => some (.text a.text)
  | .datetime t => some (.text t.isoformat)
  | .date d => some (.text d.isoformat)
  | _ => Option.none

end Value

/-- An amount is written with two decimals. -/
def centsScalar : Option ℤ → LogicalScalar
  | none => .null
  | some cents => .text (moneyText cents)

namespace Value

mutual

/-- A value without its audit fields, and with the exact amounts of its money fields. -/
def tree : Value → Option LogicalTree
  | .list items => (treeItems items).map .list
  | .fields members => (treeMembers members).map .record
  | v => v.scalar?.map .scalar

def treeItems : List Value → Option (List LogicalTree)
  | [] => some []
  | v :: items => do
    let t ← tree v
    let ts ← treeItems items
    pure (t :: ts)

def treeMembers : List (Text × Value) → Option (List (Text × LogicalTree))
  | [] => some []
  | (k, v) :: members =>
    if k ∈ auditFields then treeMembers members
    else do
      let t ← if k ∈ moneyFields then v.exactCents.map fun cents => .scalar (centsScalar cents)
        else tree v
      let ts ← treeMembers members
      pure ((k, t) :: ts)

end

mutual

/-- Every dataclass and every mapping has distinct field names. -/
def Distinct : Value → Prop
  | .list items => DistinctItems items
  | .fields members => (members.map Prod.fst).Nodup ∧ DistinctMembers members
  | _ => True

def DistinctItems : List Value → Prop
  | [] => True
  | v :: items => Distinct v ∧ DistinctItems items

def DistinctMembers : List (Text × Value) → Prop
  | [] => True
  | (_, v) :: members => Distinct v ∧ DistinctMembers members

end

end Value

theorem Value.distinctItems_iff {items : List Value} :
    DistinctItems items ↔ ∀ v ∈ items, v.Distinct := by
  induction items with
  | nil => simp [DistinctItems]
  | cons v items ih => simp [DistinctItems, ih]

theorem Value.distinctMembers_iff {members : List (Text × Value)} :
    DistinctMembers members ↔ ∀ m ∈ members, m.2.Distinct := by
  induction members with
  | nil => simp [DistinctMembers]
  | cons m members ih => simp [DistinctMembers, ih]

/-! ## Documents of trees -/

def LogicalScalar.json : LogicalScalar → Json
  | .null => .null
  | .bool b => .bool b
  | .int n => .num (.int n)
  | .text s => .str s

mutual

def treeJson : LogicalTree → Json
  | .scalar a => a.json
  | .list xs => .arr (sortedBy (fun j => render (canon j)) (treeJsonItems xs))
  | .record ms => .obj (treeJsonMembers ms)

def treeJsonItems : List LogicalTree → List Json
  | [] => []
  | x :: xs => treeJson x :: treeJsonItems xs

def treeJsonMembers : List (Text × LogicalTree) → List (Text × Json)
  | [] => []
  | (k, x) :: ms => (k, treeJson x) :: treeJsonMembers ms

end

theorem treeJsonItems_eq_map (xs : List LogicalTree) : treeJsonItems xs = xs.map treeJson := by
  induction xs with
  | nil => rfl
  | cons x xs ih => rw [treeJsonItems, ih, List.map_cons]

theorem treeJsonMembers_eq_map (ms : List (Text × LogicalTree)) :
    treeJsonMembers ms = ms.map fun m => (m.1, treeJson m.2) := by
  induction ms with
  | nil => rfl
  | cons m ms ih =>
    obtain ⟨k, x⟩ := m
    rw [treeJsonMembers, ih, List.map_cons]

/-- `_money_string` writes the exact cents. -/
theorem moneyString_eq (v : Value) :
    moneyString v = v.exactCents.map fun cents => (centsScalar cents).json := by
  have hamount : ∀ o : Option ℚ, (do
      let amount ← o
      if |amount * 100| ≤ maxMoney ∧ (amount * 100).den = 1 then
        some (Json.str (moneyText (amount * 100).num)) else none) =
      (o.bind fun amount =>
        if |amount * 100| ≤ maxMoney ∧ (amount * 100).den = 1 then some (some (amount * 100).num)
        else none).map fun cents => (centsScalar cents).json := by
    intro o
    cases o with
    | none => rfl
    | some amount =>
      simp only [Option.bind_eq_bind, Option.bind_some]
      split_ifs <;> rfl
  cases v with
  | none => rfl
  | number n =>
    cases n with
    | int n => exact hamount (some (n : ℚ))
    | float r => rfl
    | infinity negative => rfl
  | text s => exact hamount (decimalText? s)
  | decimal a => exact hamount (some a.value)
  | bool b => rfl
  | datetime t => rfl
  | date d => rfl
  | list items => rfl
  | fields members => rfl

namespace Value

mutual

/-- `_logical_value` writes the tree of a value. -/
theorem logicalValue_eq : ∀ v : Value, v.logicalValue = v.tree.map treeJson
  | .list items => by
    rw [logicalValue, tree, logicalItems_eq items, Option.map_map, Option.map_map]
    rfl
  | .fields members => by
    rw [logicalValue, tree, logicalMembers_eq members, Option.map_map, Option.map_map]
    rfl
  | .none => rfl
  | .bool b => rfl
  | .number (.int n) => rfl
  | .number (.float r) => rfl
  | .number (.infinity negative) => rfl
  | .text s => rfl
  | .decimal a => rfl
  | .datetime t => rfl
  | .date d => rfl

theorem logicalItems_eq : ∀ items : List Value,
    logicalItems items = (treeItems items).map treeJsonItems
  | [] => rfl
  | v :: items => by
    rw [logicalItems, treeItems, logicalValue_eq v, logicalItems_eq items]
    cases tree v with
    | none => rfl
    | some t => cases treeItems items <;> rfl

theorem logicalMembers_eq : ∀ members : List (Text × Value),
    logicalMembers members = (treeMembers members).map treeJsonMembers
  | [] => rfl
  | (k, v) :: members => by
    rw [logicalMembers, treeMembers]
    split_ifs with haudit hmoney
    · exact logicalMembers_eq members
    · rw [moneyString_eq, logicalMembers_eq members]
      cases exactCents v with
      | none => rfl
      | some cents => cases treeMembers members <;> rfl
    · rw [logicalValue_eq v, logicalMembers_eq members]
      cases tree v with
      | none => rfl
      | some t => cases treeMembers members <;> rfl

end

end Value

/-! ## Canonical text -/

/-- The form of a tree that its canonical text shows. -/
def treeForm (t : LogicalTree) : Json := canon (treeJson t)

theorem canon_scalar (a : LogicalScalar) : canon a.json = a.json := by
  cases a <;> rfl

theorem LogicalScalar.json_injective : Function.Injective LogicalScalar.json := by
  intro a b h
  cases a <;> cases b <;> cases h <;> rfl

/-- A list is written in the order of the canonical texts of its items. -/
theorem treeForm_list (xs : List LogicalTree) :
    treeForm (.list xs) = .arr (sortedBy render (xs.map treeForm)) := by
  rw [treeForm, treeJson, canon, canonItems_eq_map, treeJsonItems_eq_map]
  have hmap : xs.map treeForm = (xs.map treeJson).map canon := by
    rw [List.map_map]
    rfl
  rw [hmap, sortedBy_map render canon (xs.map treeJson)]
  rfl

theorem treeForm_record (ms : List (Text × LogicalTree)) :
    treeForm (.record ms) = .obj (sortedBy Prod.fst (ms.map fun m => (m.1, treeForm m.2))) := by
  rw [treeForm, treeJson, canon, canonMembers_eq_map, treeJsonMembers_eq_map, List.map_map]
  rfl

/-- The canonical text keeps the multisets, and nothing else. -/
theorem treeForm_canonical : CanonicalForm treeForm where
  scalar a b := by
    rw [treeForm, treeForm, treeJson, treeJson, canon_scalar, canon_scalar]
    exact LogicalScalar.json_injective.eq_iff
  list xs ys := by
    rw [treeForm_list, treeForm_list, Json.arr.injEq]
    constructor
    · intro h
      exact ((sortedBy_perm _ _).symm.trans (List.Perm.of_eq h)).trans (sortedBy_perm _ _)
    · intro h
      exact sortedBy_eq_of_perm _ h fun a _ b _ hab => render_injective hab
  record ms ns hms hns := by
    rw [treeForm_record, treeForm_record, Json.obj.injEq]
    constructor
    · intro h
      exact ((sortedBy_perm _ _).symm.trans (List.Perm.of_eq h)).trans (sortedBy_perm _ _)
    · intro h
      have hkeys : ((ms.map fun m => (m.1, treeForm m.2)).map Prod.fst).Nodup := by
        rwa [List.map_map]
      exact sortedBy_eq_of_perm _ h fun a ha b hb hab => List.inj_on_of_nodup_map hkeys ha hb hab
  scalar_ne_list a xs h := by
    rw [treeForm_list, treeForm, treeJson, canon_scalar] at h
    cases a <;> cases h
  scalar_ne_record a ms h := by
    rw [treeForm_record, treeForm, treeJson, canon_scalar] at h
    cases a <;> cases h
  list_ne_record xs ms h := by
    rw [treeForm_list, treeForm_record] at h
    cases h

/-! ## Distinct field names -/

namespace Value

/-- A field that is no audit field is kept. -/
theorem treeMembers_cons {k : Text} {v : Value} {members : List (Text × Value)}
    {ts : List (Text × LogicalTree)} (hk : k ∉ auditFields)
    (h : treeMembers ((k, v) :: members) = some ts) :
    ∃ t rest, (if k ∈ moneyFields then v.exactCents.map fun cents => .scalar (centsScalar cents)
      else v.tree) = some t ∧ treeMembers members = some rest ∧ ts = (k, t) :: rest := by
  rw [treeMembers, if_neg hk] at h
  simp only [Option.bind_eq_bind] at h
  split_ifs at h ⊢ with hmoney <;>
  · obtain ⟨t, ht, h⟩ := Option.bind_eq_some_iff.mp h
    obtain ⟨rest, hrest, h⟩ := Option.bind_eq_some_iff.mp h
    exact ⟨t, rest, ht, hrest, (Option.some.inj h).symm⟩

/-- Erasure renames no field. -/
theorem treeMembers_keys {members : List (Text × Value)} {ts : List (Text × LogicalTree)}
    (h : treeMembers members = some ts) :
    (ts.map Prod.fst).Sublist (members.map Prod.fst) := by
  induction members generalizing ts with
  | nil =>
    obtain rfl := Option.some.inj h
    exact .slnil
  | cons m members ih =>
    obtain ⟨k, v⟩ := m
    by_cases haudit : k ∈ auditFields
    · rw [treeMembers, if_pos haudit] at h
      exact (ih h).cons k
    · obtain ⟨t, rest, -, hrest, rfl⟩ := treeMembers_cons haudit h
      exact (ih hrest).cons_cons k

mutual

theorem Distinct.tree : ∀ {v : Value} {t : LogicalTree}, v.Distinct → v.tree = some t →
    UnorderedTree.Distinct t
  | .list items, _, hv, h => by
    rw [Value.tree, Option.map_eq_some_iff] at h
    obtain ⟨ts, hts, rfl⟩ := h
    exact DistinctItems.tree hv hts
  | .fields members, _, hv, h => by
    rw [Value.tree, Option.map_eq_some_iff] at h
    obtain ⟨ts, hts, rfl⟩ := h
    exact ⟨(treeMembers_keys hts).nodup hv.1, DistinctMembers.tree hv.2 hts⟩
  | .none, _, _, h | .bool _, _, _, h | .number _, _, _, h | .text _, _, _, h
  | .decimal _, _, _, h | .datetime _, _, _, h | .date _, _, _, h => by
    rw [Value.tree, Option.map_eq_some_iff] at h
    · obtain ⟨a, -, rfl⟩ := h
      exact trivial
    all_goals nofun

theorem DistinctItems.tree : ∀ {items : List Value} {ts : List LogicalTree},
    DistinctItems items → treeItems items = some ts → UnorderedTree.DistinctItems ts
  | [], _, _, h => by
    obtain rfl := Option.some.inj h
    exact trivial
  | v :: items, _, hv, h => by
    simp only [treeItems, Option.bind_eq_bind, Option.bind_eq_some_iff, Option.pure_def,
      Option.some.injEq] at h
    obtain ⟨t, ht, ts, hts, rfl⟩ := h
    exact ⟨Distinct.tree hv.1 ht, DistinctItems.tree hv.2 hts⟩

theorem DistinctMembers.tree : ∀ {members : List (Text × Value)} {ts : List (Text × LogicalTree)},
    DistinctMembers members → treeMembers members = some ts → UnorderedTree.DistinctMembers ts
  | [], _, _, h => by
    obtain rfl := Option.some.inj h
    exact trivial
  | (k, v) :: members, _, hv, h => by
    by_cases haudit : k ∈ auditFields
    · rw [treeMembers, if_pos haudit] at h
      exact DistinctMembers.tree hv.2 h
    · obtain ⟨t, rest, ht, hrest, rfl⟩ := treeMembers_cons haudit h
      refine ⟨?_, DistinctMembers.tree hv.2 hrest⟩
      split_ifs at ht with hmoney
      · obtain ⟨cents, -, rfl⟩ := Option.map_eq_some_iff.mp ht
        exact trivial
      · exact Distinct.tree hv.1 ht

end

end Value

/-! ## Equality of logical documents -/

namespace Value

variable {a b r : Value}

def contractVersion? (r : Value) : Option Json :=
  (r.field? (txt "contract_version")).bind jsonValue

/-- A section without its audit fields and with exact amounts. -/
def section? (r : Value) (name : Text) : Option LogicalTree :=
  (r.field? name).bind tree

def SameVersion (a b : Value) : Prop :=
  ∃ v w, a.contractVersion? = some v ∧ b.contractVersion? = some w ∧ canon v = canon w

/-- The rows of a section are the same multiset, with every list below them read as one. -/
def SameSection (a b : Value) (name : Text) : Prop :=
  ∃ t t', a.section? name = some t ∧ b.section? name = some t' ∧ Same t t'

theorem Distinct.section? {name : Text} {t : LogicalTree} (hr : r.Distinct)
    (h : r.section? name = some t) : UnorderedTree.Distinct t := by
  obtain ⟨v, hv, ht⟩ := Option.bind_eq_some_iff.mp h
  refine Distinct.tree ?_ ht
  cases r with
  | fields members =>
    obtain ⟨m, hm, rfl⟩ := Option.map_eq_some_iff.mp hv
    exact distinctMembers_iff.mp hr.2 m (List.mem_of_find?_eq_some hm)
  | _ => cases hv

theorem logicalDocument_eq_some {d : Json} :
    logicalDocument r = some d ↔ ∃ version sections, r.contractVersion? = some version ∧
      List.Forall₂ (fun name m => ∃ t, r.section? name = some t ∧ m = (name, treeJson t))
        logicalSections sections ∧
      d = .obj ((txt "fingerprint_version", .num (.int financialFingerprintVersion)) ::
        (txt "contract_version", version) :: sections) := by
  have hsection : ∀ (name : Text) (m : Text × Json),
      (∃ v, r.field? name = some v ∧ ∃ j, v.logicalValue = some j ∧ (name, j) = m) ↔
        ∃ t, r.section? name = some t ∧ m = (name, treeJson t) := by
    intro name m
    simp only [section?, Option.bind_eq_some_iff, logicalValue_eq, Option.map_eq_some_iff]
    constructor
    · rintro ⟨v, hv, -, ⟨t, ht, rfl⟩, rfl⟩
      exact ⟨t, ⟨v, hv, ht⟩, rfl⟩
    · rintro ⟨t, ⟨v, hv, ht⟩, rfl⟩
      exact ⟨v, hv, _, ⟨t, ht, rfl⟩, rfl⟩
  simp only [logicalDocument, contractVersion?, Option.bind_eq_bind, Option.bind_eq_some_iff,
    Option.pure_def, Option.some.injEq, PyExcept.mapM_eq_some, hsection]
  constructor
  · rintro ⟨v, hv, version, hversion, sections, hsections, rfl⟩
    exact ⟨version, sections, ⟨v, hv, hversion⟩, hsections, rfl⟩
  · rintro ⟨version, sections, ⟨v, hv, hversion⟩, hsections, rfl⟩
    exact ⟨v, hv, version, hversion, sections, hsections, rfl⟩

theorem sections_names {names : List Text} {sections : List (Text × Json)}
    (h : List.Forall₂ (fun name m => ∃ t, r.section? name = some t ∧ m = (name, treeJson t))
      names sections) : sections.map Prod.fst = names := by
  induction h with
  | nil => rfl
  | cons hm _ ih =>
    obtain ⟨t, -, rfl⟩ := hm
    rw [List.map_cons, ih]

/-- A result that has a logical document has all its sections. -/
theorem exists_section {d : Json} {name : Text} (h : logicalDocument r = some d)
    (hname : name ∈ logicalSections) : ∃ t, r.section? name = some t := by
  obtain ⟨version, sections, -, hsections, -⟩ := logicalDocument_eq_some.mp h
  generalize logicalSections = names at hname hsections
  induction hsections with
  | nil => cases hname
  | cons hm _ ih =>
    rcases List.mem_cons.mp hname with rfl | hname
    · obtain ⟨t, ht, -⟩ := hm
      exact ⟨t, ht⟩
    · exact ih hname

/-- Sections are written alike exactly when they have the same rows. -/
theorem canonMembers_sections (ha : a.Distinct) (hb : b.Distinct) {names : List Text}
    {ms ns : List (Text × Json)}
    (hms : List.Forall₂ (fun name m => ∃ t, a.section? name = some t ∧ m = (name, treeJson t))
      names ms)
    (hns : List.Forall₂ (fun name m => ∃ t, b.section? name = some t ∧ m = (name, treeJson t))
      names ns) :
    canonMembers ms = canonMembers ns ↔ ∀ name ∈ names, SameSection a b name := by
  induction names generalizing ms ns with
  | nil =>
    cases hms
    cases hns
    simp
  | cons name names ih =>
    obtain _ | ⟨⟨t, ht, rfl⟩, hms⟩ := hms
    obtain _ | ⟨⟨t', ht', rfl⟩, hns⟩ := hns
    have hsame : SameSection a b name ↔ canon (treeJson t) = canon (treeJson t') := by
      have hform := treeForm_canonical.eq_iff_same (ha.section? ht) (hb.section? ht')
      constructor
      · rintro ⟨s, s', hs, hs', h⟩
        obtain rfl := Option.some.inj (ht.symm.trans hs)
        obtain rfl := Option.some.inj (ht'.symm.trans hs')
        exact hform.mpr h
      · intro h
        exact ⟨t, t', ht, ht', hform.mp h⟩
    rw [canonMembers, canonMembers, List.forall_mem_cons, ← ih hms hns, hsame, List.cons.injEq,
      Prod.mk.injEq]
    simp only [true_and]

theorem logicalDocument_eq_iff (hda : a.Distinct) (hdb : b.Distinct) {da db : Json}
    (ha : logicalDocument a = some da) (hb : logicalDocument b = some db) :
    canon da = canon db ↔ SameVersion a b ∧ ∀ name ∈ logicalSections, SameSection a b name := by
  obtain ⟨v, ms, hv, hms, rfl⟩ := logicalDocument_eq_some.mp ha
  obtain ⟨w, ns, hw, hns, rfl⟩ := logicalDocument_eq_some.mp hb
  have hversion : SameVersion a b ↔ canon v = canon w := by
    constructor
    · rintro ⟨v', w', hv', hw', h⟩
      obtain rfl := Option.some.inj (hv.symm.trans hv')
      obtain rfl := Option.some.inj (hw.symm.trans hw')
      exact h
    · intro h
      exact ⟨v, w, hv, hw, h⟩
  rw [hversion, ← canonMembers_sections hda hdb hms hns]
  constructor
  · intro h
    have hkeys : (txt "fingerprint_version" :: txt "contract_version" :: logicalSections).Nodup := by
      decide
    have hmembers := canonMembers_eq_of_canon (by simp [sections_names hms, sections_names hns])
      (by rwa [List.map_cons, List.map_cons, sections_names hms]) h
    simp only [canonMembers, List.cons.injEq, Prod.mk.injEq, true_and] at hmembers
    exact hmembers
  · rintro ⟨hv, hsections⟩
    rw [canon, canon]
    simp only [canonMembers, hv, hsections]

/-- The rows of a section, in the order in which the result lists them. -/
def HasRows (r : Value) (name : Text) (rows : List Value) : Prop :=
  r.field? name = some (.list rows)

theorem HasRows.section?_eq {name : Text} {rows : List Value} {t : LogicalTree}
    (h : r.HasRows name rows) (ht : r.section? name = some t) :
    t = .list (rows.filterMap tree) ∧ rows.length = (rows.filterMap tree).length := by
  have hrows : ∀ {rows : List Value} {ts}, treeItems rows = some ts →
      ts = rows.filterMap tree ∧ rows.length = ts.length := by
    intro rows
    induction rows with
    | nil =>
      intro ts h
      obtain rfl := Option.some.inj h
      exact ⟨rfl, rfl⟩
    | cons v rows ih =>
      intro ts h
      simp only [treeItems, Option.bind_eq_bind, Option.bind_eq_some_iff, Option.pure_def,
        Option.some.injEq] at h
      obtain ⟨t, ht, ts, hts, rfl⟩ := h
      obtain ⟨hfilter, hlength⟩ := ih hts
      rw [List.filterMap_cons_some ht, ← hfilter, List.length_cons, List.length_cons, hlength]
      exact ⟨rfl, rfl⟩
  rw [section?, h, Option.bind_some, tree, Option.map_eq_some_iff] at ht
  obtain ⟨ts, hts, rfl⟩ := ht
  obtain ⟨rfl, hlength⟩ := hrows hts
  exact ⟨rfl, hlength⟩

end Value

/-- The fingerprint of a document does not show the order of members. -/
theorem documentFingerprint_of_canon {sha256 : Bytes → Text} {da db : Json}
    (h : canon da = canon db) : documentFingerprint sha256 da = documentFingerprint sha256 db := by
  rw [documentFingerprint, documentFingerprint, documentBytes, documentBytes, dumps_eq_of_canon h]

/-- Two documents with one canonical text have one fingerprint, and no others have. -/
theorem documentFingerprint_eq_iff {sha256 : Bytes → Text} {da db : Json} {f g : Text}
    (hsha : Set.InjOn sha256 {bytes | bytes ∈ documentBytes da ∨ bytes ∈ documentBytes db})
    (hf : documentFingerprint sha256 da = some f) (hg : documentFingerprint sha256 db = some g) :
    f = g ↔ canon da = canon db := by
  constructor
  · intro h
    obtain ⟨bytes, hbytes, rfl⟩ := Option.map_eq_some_iff.mp hf
    obtain ⟨bytes', hbytes', rfl⟩ := Option.map_eq_some_iff.mp hg
    obtain rfl := hsha (.inl hbytes) (.inr hbytes') h
    obtain ⟨text, htext, hencode⟩ := Option.bind_eq_some_iff.mp hbytes
    obtain ⟨text', htext', hencode'⟩ := Option.bind_eq_some_iff.mp hbytes'
    obtain rfl := encodeUtf8_injective hencode hencode'
    exact canon_eq_of_dumps htext htext'
  · intro h
    rw [documentFingerprint_of_canon h] at hf
    exact Option.some.inj (hf.symm.trans hg)

/-! ## Results of the engine -/

namespace Value

theorem strings_distinct (items : List Text) : (strings items).Distinct :=
  distinctItems_iff.mpr fun v hv => by
    obtain ⟨s, -, rfl⟩ := List.mem_map.mp hv
    exact trivial

theorem optional_distinct {α : Type} {f : α → Value} (hf : ∀ a, (f a).Distinct) (o : Option α) :
    (optional f o).Distinct := by
  cases o with
  | none => exact trivial
  | some a => exact hf a

theorem list_distinct {α : Type} {f : α → Value} (hf : ∀ a, (f a).Distinct) (rows : List α) :
    (Value.list (rows.map f)).Distinct :=
  distinctItems_iff.mpr fun v hv => by
    obtain ⟨a, -, rfl⟩ := List.mem_map.mp hv
    exact hf a

end Value

section

open Value

/-- The rows of a result have fixed field names. -/
theorem ExpectedMovement.toValue_distinct (m : ExpectedMovement) : m.toValue.Distinct := by
  refine ⟨?_, ?_⟩
  · simp only [List.map_cons, List.map_nil]
    decide
  · simp [Value.DistinctMembers, Value.Distinct, strings_distinct]

theorem ReconciliationException.toValue_distinct (x : ReconciliationException) :
    x.toValue.Distinct := by
  refine ⟨?_, ?_⟩
  · simp only [List.map_cons, List.map_nil]
    decide
  · have hamount : ∀ o : Option Amount, (optional .decimal o).Distinct :=
      optional_distinct fun _ => trivial
    simp [Value.DistinctMembers, Value.Distinct, strings_distinct, hamount]

theorem TransactionReconciliation.toValue_distinct (t : TransactionReconciliation) :
    t.toValue.Distinct := by
  refine ⟨?_, ?_⟩
  · simp only [List.map_cons, List.map_nil]
    decide
  · simp [Value.DistinctMembers, Value.Distinct, strings_distinct]

theorem PayoutReconciliation.toValue_distinct (p : PayoutReconciliation) :
    p.toValue.Distinct := by
  refine ⟨?_, ?_⟩
  · simp only [List.map_cons, List.map_nil]
    decide
  · simp [Value.DistinctMembers, Value.Distinct, strings_distinct]

theorem SourceReportStatus.toValue_distinct (s : SourceReportStatus) : s.toValue.Distinct := by
  refine ⟨?_, ?_⟩
  · simp only [List.map_cons, List.map_nil]
    decide
  · have htext : ∀ o : Option Text, (optional .text o).Distinct :=
      optional_distinct fun _ => trivial
    simp [Value.DistinctMembers, Value.Distinct, htext]

theorem QuarantinedRecord.toValue_distinct (q : QuarantinedRecord) : q.toValue.Distinct := by
  refine ⟨?_, ?_⟩
  · simp only [List.map_cons, List.map_nil]
    decide
  · have htext : ∀ o : Option Text, (optional .text o).Distinct :=
      optional_distinct fun _ => trivial
    simp [Value.DistinctMembers, Value.Distinct, htext]

theorem ReconciliationResult.toValue_distinct (r : ReconciliationResult) :
    r.toValue.Distinct := by
  refine ⟨?_, ?_⟩
  · simp only [List.map_cons, List.map_nil]
    decide
  · exact ⟨trivial, trivial, trivial,
      list_distinct TransactionReconciliation.toValue_distinct _,
      list_distinct ExpectedMovement.toValue_distinct _,
      list_distinct PayoutReconciliation.toValue_distinct _,
      list_distinct ReconciliationException.toValue_distinct _,
      list_distinct SourceReportStatus.toValue_distinct _,
      list_distinct QuarantinedRecord.toValue_distinct _, trivial⟩

end

/-- A result in which no dataclass and no mapping has two fields of one name. -/
structure LogicalResult where
  value : Value
  distinct : value.Distinct

def ReconciliationResult.logical (r : ReconciliationResult) : LogicalResult :=
  ⟨r.toValue, r.toValue_distinct⟩

/-! ## The canonical form -/

namespace LogicalResult

open Value

/-- The logical document is a canonical form of the rows of a result: two documents are equal
exactly when the versions agree and every section has the same multiset of rows. Their order
changes no fingerprint, and another number of rows always does. -/
theorem logicalDocument_canonical_form (a b : LogicalResult) (sha256 : Bytes → Text) {da db : Json}
    (ha : logicalDocument a.value = some da) (hb : logicalDocument b.value = some db) :
    (canon da = canon db ↔
      SameVersion a.value b.value ∧ ∀ name ∈ logicalSections, SameSection a.value b.value name) ∧
    (SameVersion a.value b.value → (∀ name ∈ logicalSections, ∃ xs ys, a.value.HasRows name xs ∧
        b.value.HasRows name ys ∧ xs.Perm ys) →
      canon da = canon db ∧
        logicalFingerprint sha256 a.value = logicalFingerprint sha256 b.value) ∧
    ∀ name ∈ logicalSections, ∀ xs ys, a.value.HasRows name xs → b.value.HasRows name ys →
      xs.length ≠ ys.length → canon da ≠ canon db ∧
        (Set.InjOn sha256 {bytes | bytes ∈ documentBytes da ∨ bytes ∈ documentBytes db} →
          ∀ f g, logicalFingerprint sha256 a.value = some f →
            logicalFingerprint sha256 b.value = some g → f ≠ g) := by
  have hiff := logicalDocument_eq_iff a.distinct b.distinct ha hb
  have hfingerprint : ∀ {r : LogicalResult} {d}, logicalDocument r.value = some d →
      logicalFingerprint sha256 r.value = documentFingerprint sha256 d := by
    intro r d h
    rw [logicalFingerprint, h]
    rfl
  refine ⟨hiff, ?_, ?_⟩
  · intro hversion hrows
    have hcanon : canon da = canon db := by
      refine hiff.mpr ⟨hversion, fun name hname => ?_⟩
      obtain ⟨xs, ys, hxs, hys, hperm⟩ := hrows name hname
      obtain ⟨t, ht⟩ := exists_section ha hname
      obtain ⟨t', ht'⟩ := exists_section hb hname
      obtain ⟨rfl, -⟩ := hxs.section?_eq ht
      obtain ⟨rfl, -⟩ := hys.section?_eq ht'
      exact ⟨_, _, ht, ht', .list (SameItems.of_perm (hperm.filterMap _))⟩
    refine ⟨hcanon, ?_⟩
    rw [hfingerprint ha, hfingerprint hb, documentFingerprint_of_canon hcanon]
  · intro name hname xs ys hxs hys hlength
    have hne : canon da ≠ canon db := by
      intro hcanon
      obtain ⟨t, t', ht, ht', hsame⟩ := (hiff.mp hcanon).2 name hname
      obtain ⟨rfl, hx⟩ := hxs.section?_eq ht
      obtain ⟨rfl, hy⟩ := hys.section?_eq ht'
      cases hsame with
      | list hitems => exact hlength (hx.trans (hitems.length_eq.trans hy.symm))
    refine ⟨hne, fun hsha f g hf hg h => hne ?_⟩
    rw [hfingerprint ha] at hf
    rw [hfingerprint hb] at hg
    exact (documentFingerprint_eq_iff hsha hf hg).mp h

theorem sixteenth_valid : (Date.ofYmd? 2026 9 16).isSome := rfl

def sixteenth : Date := (Date.ofYmd? 2026 9 16).get sixteenth_valid

/-- A day whose only rows are movements. -/
def movementsOnly (movements : List ExpectedMovement) : ReconciliationResult where
  runId := txt "run-1"
  contractVersion := contractVersion
  detectedAtUtc := ⟨sixteenth, 36000000000⟩
  transactions := []
  expectedMovements := movements
  payouts := []
  exceptions := []
  sourceCompleteness := []
  quarantineRecords := []

def capture : ExpectedMovement where
  movementType := .capture
  movementId := txt "PAY-1"
  availableOn := sixteenth
  signedAmount := 10000
  supportingSourceRecordIds := [txt "PAYMENT:PAY-1"]

def expectedFee : ExpectedMovement where
  movementType := .fee
  movementId := txt "expected-fee:PAY-1"
  availableOn := sixteenth
  signedAmount := -200
  supportingSourceRecordIds := [txt "PAYMENT:PAY-1"]

/-- The digest of the document of the capture and its fee. -/
def movementsDigest : Bytes → Text := fun _ =>
  txt "a44571e7a5c26758fb7b2bcd3821637a864111d4049351f033dec9b0329ac54b"

/-- The order of the movements counts for nothing, their number does. -/
theorem logicalDocument_canonical_form_movements :
    ∃ da db dc, logicalDocument (movementsOnly [capture, expectedFee]).toValue = some da ∧
      logicalDocument (movementsOnly [expectedFee, capture]).toValue = some db ∧
      logicalDocument (movementsOnly [capture]).toValue = some dc ∧
      canon da = canon db ∧ canon da ≠ canon dc ∧
      logicalFingerprint movementsDigest (movementsOnly [capture, expectedFee]).toValue =
        logicalFingerprint movementsDigest (movementsOnly [expectedFee, capture]).toValue := by
  obtain ⟨da, ha⟩ := Option.isSome_iff_exists.mp
    (show (logicalDocument (movementsOnly [capture, expectedFee]).toValue).isSome by decide +kernel)
  obtain ⟨db, hb⟩ := Option.isSome_iff_exists.mp
    (show (logicalDocument (movementsOnly [expectedFee, capture]).toValue).isSome by decide +kernel)
  obtain ⟨dc, hc⟩ := Option.isSome_iff_exists.mp
    (show (logicalDocument (movementsOnly [capture]).toValue).isSome by decide +kernel)
  have hrows : ∀ ms, (movementsOnly ms).toValue.HasRows (txt "expected_movements")
      (ms.map ExpectedMovement.toValue) := fun _ => rfl
  have hreordered := (logicalDocument_canonical_form (movementsOnly [capture, expectedFee]).logical
    (movementsOnly [expectedFee, capture]).logical movementsDigest ha hb).2.1
    ⟨_, _, rfl, rfl, rfl⟩ fun name hname => by
      simp only [logicalSections, List.mem_cons, List.not_mem_nil, or_false] at hname
      rcases hname with rfl | rfl | rfl | rfl | rfl
      · exact ⟨[], [], rfl, rfl, .nil⟩
      · exact ⟨_, _, hrows _, hrows _, .swap _ _ _⟩
      · exact ⟨[], [], rfl, rfl, .nil⟩
      · exact ⟨[], [], rfl, rfl, .nil⟩
      · exact ⟨[], [], rfl, rfl, .nil⟩
  have hdropped := (logicalDocument_canonical_form (movementsOnly [capture, expectedFee]).logical
    (movementsOnly [capture]).logical movementsDigest ha hc).2.2
    (txt "expected_movements") (by decide +kernel) _ _ (hrows _) (hrows _) (by decide)
  exact ⟨da, db, dc, ha, hb, hc, hreordered.1, hdropped.1, hreordered.2⟩

end LogicalResult

end Threadline
