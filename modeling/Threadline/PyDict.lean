import Mathlib.Data.List.Induction
import Mathlib.Data.List.Nodup
import Mathlib.Tactic.Common

/-!
# Python dictionaries

A `dict` keeps its keys in insertion order and holds each of them once. Setting
a present key keeps its place. `collect` is the accumulation loop over a
`defaultdict`.
-/

/-- An insertion-ordered dictionary. -/
structure PyDict (κ β : Type*) where
  items : List (κ × β)
  keys_nodup : (items.map Prod.fst).Nodup

namespace PyDict

variable {κ β α : Type*} [DecidableEq κ]

def empty : PyDict κ β := ⟨[], List.nodup_nil⟩

instance : EmptyCollection (PyDict κ β) := ⟨empty⟩

def keys (d : PyDict κ β) : List κ := d.items.map Prod.fst

def values (d : PyDict κ β) : List β := d.items.map Prod.snd

def getItems (k : κ) : List (κ × β) → Option β
  | [] => none
  | (k', v) :: rest => if k' = k then some v else getItems k rest

def get? (d : PyDict κ β) (k : κ) : Option β := getItems k d.items

/-- `d.get(k, default)`. -/
def getD (d : PyDict κ β) (k : κ) (default : β) : β := (d.get? k).getD default

def setItems (k : κ) (v : β) : List (κ × β) → List (κ × β)
  | [] => [(k, v)]
  | (k', v') :: rest => if k' = k then (k, v) :: rest else (k', v') :: setItems k v rest

theorem mem_keys_setItems {k k' : κ} {v : β} {l : List (κ × β)} :
    k' ∈ (setItems k v l).map Prod.fst ↔ k' = k ∨ k' ∈ l.map Prod.fst := by
  induction l with
  | nil => simp [setItems]
  | cons p l ih =>
    obtain ⟨a, b⟩ := p
    by_cases h : a = k
    · subst h
      simp [setItems]
    · simp only [setItems, if_neg h, List.map_cons, List.mem_cons, ih]
      tauto

theorem setItems_nodup {k : κ} {v : β} {l : List (κ × β)} (h : (l.map Prod.fst).Nodup) :
    ((setItems k v l).map Prod.fst).Nodup := by
  induction l with
  | nil => simp [setItems]
  | cons p l ih =>
    obtain ⟨a, b⟩ := p
    obtain ⟨ha, hl⟩ := List.nodup_cons.mp h
    by_cases hk : a = k
    · subst hk
      rw [setItems, if_pos rfl]
      exact h
    · simp only [setItems, if_neg hk, List.map_cons, List.nodup_cons]
      refine ⟨fun hm => ?_, ih hl⟩
      rcases mem_keys_setItems.mp hm with hm | hm
      · exact hk hm
      · exact ha hm

/-- `d[k] = v`. -/
def set (d : PyDict κ β) (k : κ) (v : β) : PyDict κ β :=
  ⟨setItems k v d.items, setItems_nodup d.keys_nodup⟩

/-- `d[k] = f(d[k])` on a `defaultdict` with the given default. -/
def modify (d : PyDict κ β) (k : κ) (default : β) (f : β → β) : PyDict κ β :=
  d.set k (f (d.getD k default))

/-- `d` without the key `k`. -/
def erase (d : PyDict κ β) (k : κ) : PyDict κ β :=
  ⟨d.items.filter fun p => p.1 ≠ k, d.keys_nodup.sublist (List.filter_sublist.map Prod.fst)⟩

/-- `{key: value for key, value in pairs}`. -/
def ofPairs (pairs : List (κ × β)) : PyDict κ β := pairs.foldl (fun d p => d.set p.1 p.2) ∅

/-- Update every value where it stands. -/
def mapItems {γ : Type*} (d : PyDict κ β) (f : κ → β → γ) : PyDict κ γ :=
  ⟨d.items.map fun p => (p.1, f p.1 p.2), by
    simpa [Function.comp_def] using d.keys_nodup⟩

theorem get?_mapItems {γ : Type*} (d : PyDict κ β) (f : κ → β → γ) (k : κ) :
    (d.mapItems f).get? k = (d.get? k).map (f k) := by
  obtain ⟨items, hn⟩ := d
  unfold mapItems get?
  simp only
  clear hn
  induction items with
  | nil => rfl
  | cons p items ih =>
    simp only [List.map_cons, getItems]
    split_ifs with hk
    · rw [Option.map_some, hk]
    · exact ih

theorem getItems_setItems (k k' : κ) (v : β) (l : List (κ × β)) :
    getItems k' (setItems k v l) = if k = k' then some v else getItems k' l := by
  induction l with
  | nil => rfl
  | cons p l ih =>
    obtain ⟨a, b⟩ := p
    by_cases ha : a = k
    · subst ha
      by_cases hk : a = k' <;> simp [setItems, getItems, hk]
    · by_cases hk : k = k'
      · subst hk
        simp [setItems, getItems, ha, ih]
      · simp [setItems, getItems, ha, ih, hk]

@[simp] theorem get?_empty (k : κ) : (∅ : PyDict κ β).get? k = none := rfl

@[simp] theorem get?_set (d : PyDict κ β) (k k' : κ) (v : β) :
    (d.set k v).get? k' = if k = k' then some v else d.get? k' := getItems_setItems k k' v d.items

@[simp] theorem get?_erase (d : PyDict κ β) (k k' : κ) :
    (d.erase k).get? k' = if k = k' then none else d.get? k' := by
  obtain ⟨items, hn⟩ := d
  unfold erase get?
  simp only [ne_eq, decide_not]
  clear hn
  induction items with
  | nil => simp [getItems]
  | cons p items ih =>
    obtain ⟨a, b⟩ := p
    by_cases ha : a = k
    · subst ha
      by_cases hk : a = k' <;> simpa [getItems, hk] using ih
    · by_cases hk : k = k'
      · subst hk
        simp [getItems, ha, ih]
      · simp [getItems, ha, ih, hk]

theorem setItems_setItems (k : κ) (v w : β) (l : List (κ × β)) :
    setItems k w (setItems k v l) = setItems k w l := by
  induction l with
  | nil => simp [setItems]
  | cons p l ih =>
    obtain ⟨a, b⟩ := p
    by_cases h : a = k
    · simp [setItems, h]
    · simp [setItems, h, ih]

/-- The later of two values set at one key is the one that stays. -/
@[simp] theorem set_set (d : PyDict κ β) (k : κ) (v w : β) : (d.set k v).set k w = d.set k w := by
  unfold set
  congr 1
  exact setItems_setItems k v w d.items

theorem getD_modify (d : PyDict κ β) (k k' : κ) (default : β) (f : β → β) :
    (d.modify k default f).getD k' default =
      if k = k' then f (d.getD k default) else d.getD k' default := by
  unfold modify
  by_cases h : k = k' <;> simp [getD, h]

theorem mem_items_iff {d : PyDict κ β} {k : κ} {v : β} : (k, v) ∈ d.items ↔ d.get? k = some v := by
  obtain ⟨l, hl⟩ := d
  change _ ↔ getItems k l = some v
  induction l with
  | nil => simp [getItems]
  | cons p l ih =>
    obtain ⟨a, b⟩ := p
    obtain ⟨ha, hl⟩ := List.nodup_cons.mp hl
    by_cases h : a = k
    · subst h
      have hn : (a, v) ∉ l := fun hm => ha (List.mem_map.mpr ⟨(a, v), hm, rfl⟩)
      simp [getItems, hn, eq_comm]
    · simp [getItems, h, Ne.symm h, ih hl]

theorem mem_keys_iff {d : PyDict κ β} {k : κ} : k ∈ d.keys ↔ ∃ v, d.get? k = some v := by
  simp only [keys, List.mem_map, Prod.exists, exists_and_right, exists_eq_right, mem_items_iff]

theorem mem_values_iff {d : PyDict κ β} {v : β} : v ∈ d.values ↔ ∃ k, d.get? k = some v := by
  simp only [values, List.mem_map, Prod.exists, exists_eq_right, mem_items_iff]

omit [DecidableEq κ] in
theorem nodup_keys (d : PyDict κ β) : d.keys.Nodup := d.keys_nodup

theorem values_eq_map (d : PyDict κ β) (default : β) :
    d.values = d.keys.map fun k => d.getD k default := by
  rw [values, keys, List.map_map]
  apply List.map_congr_left
  intro p hp
  have hget : d.get? p.1 = some p.2 := mem_items_iff.mp hp
  simp [getD, hget]

theorem mem_keys_modify {d : PyDict κ β} {k k' : κ} {default : β} {f : β → β} :
    k' ∈ (d.modify k default f).keys ↔ k' = k ∨ k' ∈ d.keys := mem_keys_setItems

theorem items_set_of_get?_none {d : PyDict κ β} {k : κ} {v : β} (h : d.get? k = none) :
    (d.set k v).items = d.items ++ [(k, v)] := by
  obtain ⟨l, hl⟩ := d
  change getItems k l = none at h
  change setItems k v l = l ++ [(k, v)]
  clear hl
  induction l with
  | nil => rfl
  | cons p l ih =>
    obtain ⟨a, b⟩ := p
    by_cases ha : a = k
    · simp [getItems, ha] at h
    · simp only [getItems, if_neg ha] at h
      simp [setItems, ha, ih h]

/-! ## Accumulation loops -/

/-- `for x in xs: d[key(x)] = f(x, d[key(x)])` on an empty `defaultdict`. -/
def collect (key : α → κ) (default : β) (f : α → β → β) (xs : List α) : PyDict κ β :=
  xs.foldl (fun d x => d.modify (key x) default (f x)) ∅

/-- The value at a key is the loop run on the items with that key. -/
theorem getD_collect (key : α → κ) (default : β) (f : α → β → β) (xs : List α) (k : κ) :
    (collect key default f xs).getD k default =
      (xs.filter fun x => key x = k).foldl (fun b x => f x b) default := by
  induction xs using List.reverseRecOn with
  | nil => rfl
  | append_singleton xs x ih =>
    rw [collect, List.foldl_concat, ← collect, getD_modify, List.filter_append, List.foldl_append]
    by_cases h : key x = k
    · subst h
      simp [ih]
    · simp [h, ih]

theorem mem_keys_collect {key : α → κ} {default : β} {f : α → β → β} {xs : List α} {k : κ} :
    k ∈ (collect key default f xs).keys ↔ ∃ x ∈ xs, key x = k := by
  induction xs using List.reverseRecOn with
  | nil => simp [collect, keys, EmptyCollection.emptyCollection, empty]
  | append_singleton xs x ih =>
    rw [collect, List.foldl_concat, ← collect, mem_keys_modify, ih]
    constructor
    · rintro (rfl | ⟨y, hy, rfl⟩)
      · exact ⟨x, by simp, rfl⟩
      · exact ⟨y, by simp [hy], rfl⟩
    · rintro ⟨y, hy, rfl⟩
      rcases List.mem_append.mp hy with hy | hy
      · exact .inr ⟨y, hy, rfl⟩
      · obtain rfl := List.mem_singleton.mp hy
        exact .inl rfl

/-- `groups[key(x)].append(x)` for every `x`. -/
def groupBy (key : α → κ) (xs : List α) : PyDict κ (List α) :=
  collect key [] (fun x group => group ++ [x]) xs

theorem foldl_append_singleton (acc xs : List α) :
    xs.foldl (fun group x => group ++ [x]) acc = acc ++ xs := by
  induction xs generalizing acc with
  | nil => simp
  | cons x xs ih => simp [ih]

@[simp] theorem getD_groupBy (key : α → κ) (xs : List α) (k : κ) :
    (groupBy key xs).getD k [] = xs.filter fun x => key x = k := by
  rw [groupBy, getD_collect, foldl_append_singleton, List.nil_append]

theorem mem_keys_groupBy {key : α → κ} {xs : List α} {k : κ} :
    k ∈ (groupBy key xs).keys ↔ ∃ x ∈ xs, key x = k := mem_keys_collect

/-- The groups are the items of each key that occurs. -/
theorem mem_items_groupBy {key : α → κ} {xs group : List α} {k : κ} :
    (k, group) ∈ (groupBy key xs).items ↔
      (∃ x ∈ xs, key x = k) ∧ group = xs.filter fun x => key x = k := by
  rw [mem_items_iff, ← mem_keys_groupBy, mem_keys_iff, ← getD_groupBy, getD]
  cases (groupBy key xs).get? k <;> simp [eq_comm]

/-- The groups of the items whose keys are listed hold every item once. -/
theorem flatMap_filter_perm (key : α → κ) {ks : List κ} {xs : List α} (hn : ks.Nodup)
    (hk : ∀ x ∈ xs, key x ∈ ks) : (ks.flatMap fun k => xs.filter fun x => key x = k).Perm xs := by
  induction ks generalizing xs with
  | nil =>
    have hxs : xs = [] := List.eq_nil_iff_forall_not_mem.mpr fun x hx => by simpa using hk x hx
    rw [hxs]
    exact List.Perm.refl _
  | cons k ks ih =>
    obtain ⟨hkn, hn⟩ := List.nodup_cons.mp hn
    -- the other groups see only the items whose key is not `k`
    have hrest : (ks.flatMap fun k' => xs.filter fun x => key x = k') =
        ks.flatMap fun k' => (xs.filter fun x => !decide (key x = k)).filter fun x => key x = k' := by
      refine List.flatMap_congr fun k' hk' => ?_
      rw [List.filter_filter]
      refine List.filter_congr fun x _ => ?_
      by_cases hx : key x = k'
      · have hne : k' ≠ k := fun h => hkn (h ▸ hk')
        simp [hx, hne]
      · simp [hx]
    rw [List.flatMap_cons, hrest]
    refine (List.Perm.append_left _ (ih hn ?_)).trans (List.filter_append_perm _ xs)
    intro x hx
    obtain ⟨hx, hne⟩ := List.mem_filter.mp hx
    rcases List.mem_cons.mp (hk x hx) with h | h
    · simp [h] at hne
    · exact h

/-- Where keys are distinct, the group of an item is the item. -/
theorem filter_key_eq_singleton {key : α → κ} {xs : List α} (hn : (xs.map key).Nodup) {a : α}
    (ha : a ∈ xs) : (xs.filter fun x => key x = key a) = [a] := by
  refine List.perm_singleton.mp ((List.perm_ext_iff_of_nodup ((hn.of_map key).filter _)
    (List.nodup_singleton a)).mpr fun x => ?_)
  simp only [List.mem_filter, decide_eq_true_eq, List.mem_singleton]
  constructor
  · rintro ⟨hx, hk⟩
    exact List.inj_on_of_nodup_map hn hx ha hk
  · rintro rfl
    exact ⟨ha, rfl⟩

/-- A condition that holds of the item under one key only. -/
theorem filter_items_eq_singleton {d : PyDict κ β} {k : κ} {v : β} (h : d.get? k = some v)
    {p : κ × β → Prop} [DecidablePred p] (hp : ∀ q ∈ d.items, p q ↔ q.1 = k) :
    (d.items.filter fun q => p q) = [(k, v)] := by
  rw [← filter_key_eq_singleton d.nodup_keys (mem_items_iff.mpr h)]
  exact List.filter_congr fun q hq => decide_eq_decide.mpr (hp q hq)

theorem setItems_map {γ : Type*} (f : β → γ) (k : κ) (v : β) (l : List (κ × β)) :
    setItems k (f v) (l.map (Prod.map id f)) = (setItems k v l).map (Prod.map id f) := by
  induction l with
  | nil => rfl
  | cons p l ih =>
    obtain ⟨a, b⟩ := p
    by_cases ha : a = k <;> simp [setItems, ha, ih]

theorem items_ofPairs_concat (pairs : List (κ × β)) (p : κ × β) :
    (ofPairs (pairs ++ [p])).items = setItems p.1 p.2 (ofPairs pairs).items := by
  rw [ofPairs, List.foldl_concat]
  rfl

/-- A function on the values does not change which pair of a key stays. -/
theorem values_ofPairs_map {γ : Type*} (f : β → γ) (pairs : List (κ × β)) :
    (ofPairs (pairs.map (Prod.map id f))).values = (ofPairs pairs).values.map f := by
  have hitems : (ofPairs (pairs.map (Prod.map id f))).items =
      (ofPairs pairs).items.map (Prod.map id f) := by
    induction pairs using List.reverseRecOn with
    | nil => rfl
    | append_singleton pairs p ih =>
      rw [List.map_append, List.map_singleton, items_ofPairs_concat, items_ofPairs_concat, ih]
      exact setItems_map f p.1 p.2 _
  rw [values, values, hitems, List.map_map, List.map_map]
  rfl

/-- The last pair with a key decides. -/
theorem get?_ofPairs_concat (pairs : List (κ × β)) (p : κ × β) (k : κ) :
    (ofPairs (pairs ++ [p])).get? k = if p.1 = k then some p.2 else (ofPairs pairs).get? k := by
  rw [ofPairs, List.foldl_concat, ← ofPairs, get?_set]

theorem mem_of_get?_ofPairs {pairs : List (κ × β)} {k : κ} {v : β}
    (h : (ofPairs pairs).get? k = some v) : (k, v) ∈ pairs := by
  induction pairs using List.reverseRecOn with
  | nil => simp [ofPairs] at h
  | append_singleton pairs p ih =>
    rw [get?_ofPairs_concat] at h
    split_ifs at h with hk
    · obtain rfl := Option.some.inj h
      subst hk
      simp
    · exact List.mem_append_left _ (ih h)

theorem get?_ofPairs_isSome {pairs : List (κ × β)} {k : κ} {v : β} (h : (k, v) ∈ pairs) :
    ∃ v', (ofPairs pairs).get? k = some v' := by
  induction pairs using List.reverseRecOn with
  | nil => simp at h
  | append_singleton pairs p ih =>
    rw [get?_ofPairs_concat]
    by_cases hk : p.1 = k
    · exact ⟨p.2, by simp [hk]⟩
    · rw [if_neg hk]
      rcases List.mem_append.mp h with h | h
      · exact ih h
      · obtain rfl := List.mem_singleton.mp h
        exact absurd rfl hk

/-- Pairs of other keys do not matter. -/
theorem get?_ofPairs_filter {q : κ → Bool} (pairs : List (κ × β)) {k : κ} (hk : q k) :
    (ofPairs (pairs.filter fun p => q p.1)).get? k = (ofPairs pairs).get? k := by
  induction pairs using List.reverseRecOn with
  | nil => rfl
  | append_singleton pairs p ih =>
    rw [List.filter_append, get?_ofPairs_concat]
    by_cases hp : q p.1 = true
    · have hfilter : [p].filter (fun p => q p.1) = [p] := by simp [hp]
      rw [hfilter, get?_ofPairs_concat, ih]
    · have hfilter : [p].filter (fun p => q p.1) = [] := by simp [hp]
      have hne : p.1 ≠ k := fun he => hp (he ▸ hk)
      rw [hfilter, List.append_nil, ih, if_neg hne]

omit [DecidableEq κ] in
theorem items_injective : Function.Injective (items : PyDict κ β → List (κ × β)) := by
  rintro ⟨a, ha⟩ ⟨b, hb⟩ h
  obtain rfl : a = b := h
  rfl

theorem items_ofPairs {pairs : List (κ × β)} (hn : (pairs.map Prod.fst).Nodup) :
    (ofPairs pairs).items = pairs := by
  induction pairs using List.reverseRecOn with
  | nil => rfl
  | append_singleton pairs p ih =>
    rw [List.map_append, List.nodup_append] at hn
    obtain ⟨hpairs, -, hdisjoint⟩ := hn
    have hfresh : (ofPairs pairs).get? p.1 = none := by
      rw [Option.eq_none_iff_forall_not_mem]
      intro v hv
      have hmem : (p.1, v) ∈ pairs := mem_of_get?_ofPairs hv
      have hkey : p.1 ∈ pairs.map Prod.fst := List.mem_map.mpr ⟨_, hmem, rfl⟩
      exact hdisjoint p.1 hkey p.1 (by simp) rfl
    rw [ofPairs, List.foldl_concat, ← ofPairs, items_set_of_get?_none hfresh, ih hpairs]

/-- A dictionary is rebuilt from its items. -/
theorem ofPairs_items (d : PyDict κ β) : ofPairs d.items = d :=
  items_injective (items_ofPairs d.keys_nodup)

/-- Over pairs in order, the value of a key is the greatest one. -/
theorem le_of_get?_ofPairs {r : β → β → Prop} (hrefl : ∀ v, r v v) {pairs : List (κ × β)}
    (hsorted : pairs.Pairwise fun p q => r p.2 q.2) {k : κ} {v w : β}
    (h : (ofPairs pairs).get? k = some v) (hw : (k, w) ∈ pairs) : r w v := by
  induction pairs using List.reverseRecOn with
  | nil => cases hw
  | append_singleton pairs p ih =>
    rw [List.pairwise_append] at hsorted
    obtain ⟨hpairs, -, hlast⟩ := hsorted
    rw [get?_ofPairs_concat] at h
    rcases List.mem_append.mp hw with hw | hw
    · split_ifs at h with hk
      · obtain rfl := Option.some.inj h
        exact hlast _ hw p (List.mem_singleton_self p)
      · exact ih hpairs h hw
    · obtain rfl := List.mem_singleton.mp hw
      rw [if_pos rfl] at h
      exact Option.some.inj h ▸ hrefl w

theorem get?_ofPairs_iff {pairs : List (κ × β)} (hn : (pairs.map Prod.fst).Nodup) {k : κ} {v : β} :
    (ofPairs pairs).get? k = some v ↔ (k, v) ∈ pairs := by
  refine ⟨mem_of_get?_ofPairs, fun h => ?_⟩
  obtain ⟨v', hv'⟩ := get?_ofPairs_isSome h
  have hm := mem_of_get?_ofPairs hv'
  have he := List.inj_on_of_nodup_map hn h hm rfl
  rw [hv', (Prod.mk.inj he).2]

/-! ## Filtering -/

/-- The items that satisfy `p`, in their order. -/
def filter (d : PyDict κ β) (p : κ → β → Bool) : PyDict κ β :=
  ⟨d.items.filter fun q => p q.1 q.2, d.keys_nodup.sublist (List.filter_sublist.map Prod.fst)⟩

theorem get?_filter (d : PyDict κ β) (p : κ → β → Bool) (k : κ) :
    (d.filter p).get? k = (d.get? k).filter (p k) := by
  apply Option.ext
  intro v
  rw [← mem_items_iff, Option.filter_eq_some_iff, ← mem_items_iff]
  exact List.mem_filter

/-- A predicate on the keys commutes with an update. -/
theorem filter_set (d : PyDict κ β) (p : κ → Bool) (k : κ) (v : β) :
    (d.set k v).filter (fun k _ => p k) =
      if p k then (d.filter fun k _ => p k).set k v else d.filter fun k _ => p k := by
  obtain ⟨l, hl⟩ := d
  have hitems : (setItems k v l).filter (fun q => p q.1) =
      if p k then setItems k v (l.filter fun q => p q.1) else l.filter fun q => p q.1 := by
    clear hl
    induction l with
    | nil => cases hk : p k <;> simp [setItems, hk]
    | cons q l ih =>
      obtain ⟨a, b⟩ := q
      by_cases ha : a = k
      · subst ha
        cases hk : p a <;> simp [setItems, hk]
      · cases hk : p k <;> cases hq : p a <;> simp [setItems, ha, hk, hq, ih]
  apply items_injective
  split_ifs with hk
  · exact hitems.trans (if_pos hk)
  · exact hitems.trans (if_neg hk)

/-- A new item is filtered by itself. -/
theorem filter_set_of_get?_none {d : PyDict κ β} {p : κ → β → Bool} {k : κ} {v : β}
    (h : d.get? k = none) :
    (d.set k v).filter p = if p k v then (d.filter p).set k v else d.filter p := by
  have hfilter : (d.filter p).get? k = none := by rw [get?_filter, h, Option.filter_none]
  apply items_injective
  cases hk : p k v with
  | true =>
    rw [if_pos rfl, items_set_of_get?_none hfilter]
    simp [filter, items_set_of_get?_none h, hk]
  | false => simp [filter, items_set_of_get?_none h, hk]

omit [DecidableEq κ] in
theorem filter_mapItems {d : PyDict κ β} {f : κ → β → β} {p : κ → β → Bool}
    (h : ∀ k v, p k (f k v) = p k v) : (d.mapItems f).filter p = (d.filter p).mapItems f := by
  apply items_injective
  change (d.items.map fun q => (q.1, f q.1 q.2)).filter (fun q => p q.1 q.2) = _
  rw [List.filter_map]
  refine congrArg (List.map _) (List.filter_congr fun q _ => ?_)
  exact h q.1 q.2

omit [DecidableEq κ] in
theorem mapItems_congr {d : PyDict κ β} {f g : κ → β → β}
    (h : ∀ q ∈ d.items, f q.1 q.2 = g q.1 q.2) : d.mapItems f = d.mapItems g := by
  apply items_injective
  exact List.map_congr_left fun q hq => congrArg (Prod.mk q.1) (h q hq)

end PyDict
