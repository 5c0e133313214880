import Mathlib.Data.List.Perm.Basic
import Mathlib.Data.List.Forall2

/-!
# Trees without order

Trees of scalars, lists and records, in which the order of items and members does
not count. A form of the trees is canonical if it keeps, at every node, exactly
the multiset of the forms below it: two trees whose records have distinct labels
then have the same form exactly when they are the same up to order.
-/

/-- Scalars, lists, and records with labels. -/
inductive UnorderedTree (κ σ : Type)
  | scalar (a : σ)
  | list (items : List (UnorderedTree κ σ))
  | record (members : List (κ × UnorderedTree κ σ))

namespace UnorderedTree

variable {κ σ : Type}

mutual

/-- Equality up to the order of items and members at every depth. -/
inductive Same : UnorderedTree κ σ → UnorderedTree κ σ → Prop
  | scalar (a : σ) : Same (.scalar a) (.scalar a)
  | list {xs ys : List (UnorderedTree κ σ)} : SameItems xs ys → Same (.list xs) (.list ys)
  | record {ms ns : List (κ × UnorderedTree κ σ)} : SameMembers ms ns →
      Same (.record ms) (.record ns)

/-- Equality as multisets. -/
inductive SameItems : List (UnorderedTree κ σ) → List (UnorderedTree κ σ) → Prop
  | nil : SameItems [] []
  | cons {x y : UnorderedTree κ σ} {xs ys ys' : List (UnorderedTree κ σ)} : Same x y →
      SameItems xs (ys ++ ys') → SameItems (x :: xs) (ys ++ y :: ys')

inductive SameMembers : List (κ × UnorderedTree κ σ) → List (κ × UnorderedTree κ σ) → Prop
  | nil : SameMembers [] []
  | cons {k : κ} {x y : UnorderedTree κ σ} {ms ns ns' : List (κ × UnorderedTree κ σ)} : Same x y →
      SameMembers ms (ns ++ ns') → SameMembers ((k, x) :: ms) (ns ++ (k, y) :: ns')

end

/-! ## Multisets of trees -/

/-- The trees match one to one in some order. -/
theorem sameItems_iff {xs ys : List (UnorderedTree κ σ)} :
    SameItems xs ys ↔ ∃ zs, List.Forall₂ Same xs zs ∧ zs.Perm ys := by
  constructor
  · intro h
    induction xs generalizing ys with
    | nil =>
      cases h
      exact ⟨[], .nil, .nil⟩
    | cons x xs ih =>
      cases h with
      | cons hxy hrest =>
        obtain ⟨zs, hzs, hperm⟩ := ih hrest
        exact ⟨_ :: zs, .cons hxy hzs, (hperm.cons _).trans List.perm_middle.symm⟩
  · rintro ⟨zs, hzs, hperm⟩
    induction hzs generalizing ys with
    | nil =>
      obtain rfl := hperm.nil_eq
      exact .nil
    | cons hxz _ ih =>
      obtain ⟨ys₁, ys₂, rfl⟩ := List.append_of_mem (hperm.subset List.mem_cons_self)
      exact .cons hxz (ih (hperm.trans List.perm_middle).cons_inv)

theorem SameItems.length_eq {xs ys : List (UnorderedTree κ σ)} (h : SameItems xs ys) :
    xs.length = ys.length := by
  obtain ⟨zs, hzs, hperm⟩ := sameItems_iff.mp h
  rw [hzs.length_eq, hperm.length_eq]

mutual

theorem Same.refl : ∀ t : UnorderedTree κ σ, Same t t
  | .scalar a => .scalar a
  | .list xs => .list (SameItems.refl xs)
  | .record ms => .record (SameMembers.refl ms)

theorem SameItems.refl : ∀ xs : List (UnorderedTree κ σ), SameItems xs xs
  | [] => .nil
  | x :: xs => @SameItems.cons κ σ x x xs [] xs (Same.refl x) (SameItems.refl xs)

theorem SameMembers.refl : ∀ ms : List (κ × UnorderedTree κ σ), SameMembers ms ms
  | [] => .nil
  | (k, x) :: ms => @SameMembers.cons κ σ k x x ms [] ms (Same.refl x) (SameMembers.refl ms)

end

theorem SameItems.of_forall₂ {xs ys : List (UnorderedTree κ σ)} (h : List.Forall₂ Same xs ys) :
    SameItems xs ys :=
  sameItems_iff.mpr ⟨ys, h, .refl ys⟩

/-- Reordered items are the same. -/
theorem SameItems.of_perm {xs ys : List (UnorderedTree κ σ)} (h : xs.Perm ys) : SameItems xs ys :=
  sameItems_iff.mpr ⟨xs, List.forall₂_same.mpr fun x _ => Same.refl x, h⟩

/-! ## Distinct labels -/

mutual

/-- Every record has distinct labels. -/
def Distinct : UnorderedTree κ σ → Prop
  | .scalar _ => True
  | .list items => DistinctItems items
  | .record members => (members.map Prod.fst).Nodup ∧ DistinctMembers members

def DistinctItems : List (UnorderedTree κ σ) → Prop
  | [] => True
  | x :: items => Distinct x ∧ DistinctItems items

def DistinctMembers : List (κ × UnorderedTree κ σ) → Prop
  | [] => True
  | (_, x) :: members => Distinct x ∧ DistinctMembers members

end

theorem distinctItems_iff {xs : List (UnorderedTree κ σ)} :
    DistinctItems xs ↔ ∀ x ∈ xs, Distinct x := by
  induction xs with
  | nil => simp [DistinctItems]
  | cons x xs ih => simp [DistinctItems, ih]

theorem distinctMembers_iff {ms : List (κ × UnorderedTree κ σ)} :
    DistinctMembers ms ↔ ∀ m ∈ ms, Distinct m.2 := by
  induction ms with
  | nil => simp [DistinctMembers]
  | cons m ms ih =>
    obtain ⟨k, x⟩ := m
    simp [DistinctMembers, ih]

theorem distinctItems_middle {y : UnorderedTree κ σ} {ys ys' : List (UnorderedTree κ σ)} :
    DistinctItems (ys ++ y :: ys') ↔ Distinct y ∧ DistinctItems (ys ++ ys') := by
  simp only [distinctItems_iff, List.mem_append, List.mem_cons]
  grind

theorem distinctMembers_middle {m : κ × UnorderedTree κ σ}
    {ns ns' : List (κ × UnorderedTree κ σ)} :
    DistinctMembers (ns ++ m :: ns') ↔ Distinct m.2 ∧ DistinctMembers (ns ++ ns') := by
  simp only [distinctMembers_iff, List.mem_append, List.mem_cons]
  grind

theorem SameMembers.labels_perm {ms ns : List (κ × UnorderedTree κ σ)} (h : SameMembers ms ns) :
    (ms.map Prod.fst).Perm (ns.map Prod.fst) := by
  induction ms generalizing ns with
  | nil =>
    cases h
    exact .nil
  | cons m ms ih =>
    cases h with
    | cons hxy hrest =>
      rw [List.map_append, List.map_cons, List.map_cons]
      refine ((ih hrest).cons _).trans ?_
      rw [List.map_append]
      exact List.perm_middle.symm

mutual

/-- A tree that is the same up to order has distinct labels too. -/
theorem Same.distinct : ∀ t t' : UnorderedTree κ σ, Same t t' → Distinct t → Distinct t'
  | .scalar _, _, .scalar _, _ => trivial
  | .list xs, _, .list hitems, ht => SameItems.distinct xs _ hitems ht
  | .record ms, _, .record hmembers, ht =>
    ⟨hmembers.labels_perm.nodup_iff.mp ht.1, SameMembers.distinct ms _ hmembers ht.2⟩

theorem SameItems.distinct : ∀ xs ys : List (UnorderedTree κ σ), SameItems xs ys →
    DistinctItems xs → DistinctItems ys
  | [], _, .nil, _ => trivial
  | x :: xs, _, .cons hxy hrest, hx =>
    distinctItems_middle.mpr ⟨Same.distinct x _ hxy hx.1, SameItems.distinct xs _ hrest hx.2⟩

theorem SameMembers.distinct : ∀ ms ns : List (κ × UnorderedTree κ σ), SameMembers ms ns →
    DistinctMembers ms → DistinctMembers ns
  | [], _, .nil, _ => trivial
  | (_, x) :: ms, _, .cons hxy hrest, hx =>
    distinctMembers_middle.mpr
      ⟨Same.distinct x _ hxy hx.1, SameMembers.distinct ms _ hrest hx.2⟩

end

/-! ## Canonical forms -/

section

variable {α : Type} (form : UnorderedTree κ σ → α)

/-- A form that keeps at every node the multiset of the forms below it. -/
structure CanonicalForm : Prop where
  scalar : ∀ a b, form (.scalar a) = form (.scalar b) ↔ a = b
  list : ∀ xs ys, form (.list xs) = form (.list ys) ↔ (xs.map form).Perm (ys.map form)
  record : ∀ ms ns, (ms.map Prod.fst).Nodup → (ns.map Prod.fst).Nodup →
    (form (.record ms) = form (.record ns) ↔
      (ms.map fun m => (m.1, form m.2)).Perm (ns.map fun m => (m.1, form m.2)))
  scalar_ne_list : ∀ a xs, form (.scalar a) ≠ form (.list xs)
  scalar_ne_record : ∀ a ms, form (.scalar a) ≠ form (.record ms)
  list_ne_record : ∀ xs ms, form (.list xs) ≠ form (.record ms)

variable {form}

namespace CanonicalForm

mutual

theorem form_eq (h : CanonicalForm form) : ∀ t t' : UnorderedTree κ σ, Distinct t →
    Distinct t' → Same t t' → form t = form t'
  | .scalar _, _, _, _, .scalar _ => rfl
  | .list xs, _, ht, ht', .list hitems => (h.list _ _).mpr (forms_perm h xs _ ht ht' hitems)
  | .record ms, _, ht, ht', .record hmembers =>
    (h.record _ _ ht.1 ht'.1).mpr (members_perm h ms _ ht.2 ht'.2 hmembers)

theorem forms_perm (h : CanonicalForm form) : ∀ xs ys : List (UnorderedTree κ σ),
    DistinctItems xs → DistinctItems ys → SameItems xs ys → (xs.map form).Perm (ys.map form)
  | [], _, _, _, .nil => .nil
  | x :: xs, _, hx, hy, .cons hxy hrest => by
    have hperm := forms_perm h xs _ hx.2 (distinctItems_middle.mp hy).2 hrest
    rw [List.map_append] at hperm
    rw [List.map_cons, List.map_append, List.map_cons,
      form_eq h x _ hx.1 (distinctItems_middle.mp hy).1 hxy]
    exact (hperm.cons _).trans List.perm_middle.symm

theorem members_perm (h : CanonicalForm form) : ∀ ms ns : List (κ × UnorderedTree κ σ),
    DistinctMembers ms → DistinctMembers ns → SameMembers ms ns →
    (ms.map fun m => (m.1, form m.2)).Perm (ns.map fun m => (m.1, form m.2))
  | [], _, _, _, .nil => .nil
  | (k, x) :: ms, _, hm, hn, .cons hxy hrest => by
    have hperm := members_perm h ms _ hm.2 (distinctMembers_middle.mp hn).2 hrest
    rw [List.map_append] at hperm
    rw [List.map_cons, List.map_append, List.map_cons,
      form_eq h x _ hm.1 (distinctMembers_middle.mp hn).1 hxy]
    exact (hperm.cons _).trans List.perm_middle.symm

end

mutual

theorem same_of_eq (h : CanonicalForm form) : ∀ t t' : UnorderedTree κ σ, Distinct t →
    Distinct t' → form t = form t' → Same t t'
  | .scalar a, .scalar b, _, _, heq => by
    obtain rfl := (h.scalar a b).mp heq
    exact .scalar a
  | .list xs, .list ys, ht, ht', heq =>
    .list (same_of_perm h xs ys ht ht' ((h.list xs ys).mp heq))
  | .record ms, .record ns, ht, ht', heq =>
    .record (same_of_members h ms ns ht.2 ht'.2 ((h.record ms ns ht.1 ht'.1).mp heq))
  | .scalar a, .list ys, _, _, heq => absurd heq (h.scalar_ne_list a ys)
  | .scalar a, .record ns, _, _, heq => absurd heq (h.scalar_ne_record a ns)
  | .list xs, .scalar b, _, _, heq => absurd heq.symm (h.scalar_ne_list b xs)
  | .list xs, .record ns, _, _, heq => absurd heq (h.list_ne_record xs ns)
  | .record ms, .scalar b, _, _, heq => absurd heq.symm (h.scalar_ne_record b ms)
  | .record ms, .list ys, _, _, heq => absurd heq.symm (h.list_ne_record ys ms)

theorem same_of_perm (h : CanonicalForm form) : ∀ xs ys : List (UnorderedTree κ σ),
    DistinctItems xs → DistinctItems ys →
    (xs.map form).Perm (ys.map form) → SameItems xs ys
  | [], ys, _, _, hperm => by
    obtain rfl := List.map_eq_nil_iff.mp hperm.nil_eq.symm
    exact .nil
  | x :: xs, ys, hx, hy, hperm => by
    obtain ⟨y, hmem, hxy⟩ := List.mem_map.mp (hperm.subset List.mem_cons_self)
    obtain ⟨ys₁, ys₂, rfl⟩ := List.append_of_mem hmem
    rw [List.map_append, List.map_cons, List.map_cons, hxy] at hperm
    refine .cons (same_of_eq h x y hx.1 (distinctItems_middle.mp hy).1 hxy.symm)
      (same_of_perm h xs _ hx.2 (distinctItems_middle.mp hy).2 ?_)
    rw [List.map_append]
    exact (hperm.trans List.perm_middle).cons_inv

theorem same_of_members (h : CanonicalForm form) : ∀ ms ns : List (κ × UnorderedTree κ σ),
    DistinctMembers ms → DistinctMembers ns →
    (ms.map fun m => (m.1, form m.2)).Perm (ns.map fun m => (m.1, form m.2)) → SameMembers ms ns
  | [], ns, _, _, hperm => by
    obtain rfl := List.map_eq_nil_iff.mp hperm.nil_eq.symm
    exact .nil
  | (k, x) :: ms, ns, hm, hn, hperm => by
    obtain ⟨⟨k', y⟩, hmem, hxy⟩ := List.mem_map.mp (hperm.subset List.mem_cons_self)
    obtain ⟨rfl, hform⟩ : k' = k ∧ form y = form x := Prod.mk.inj hxy
    obtain ⟨ns₁, ns₂, rfl⟩ := List.append_of_mem hmem
    rw [List.map_append, List.map_cons, List.map_cons, hxy] at hperm
    refine .cons (same_of_eq h x y hm.1 (distinctMembers_middle.mp hn).1 hform.symm)
      (same_of_members h ms _ hm.2 (distinctMembers_middle.mp hn).2 ?_)
    rw [List.map_append]
    exact (hperm.trans List.perm_middle).cons_inv

end

/-- Two trees have one canonical form exactly when they are the same up to order. -/
theorem eq_iff_same (h : CanonicalForm form) {t t' : UnorderedTree κ σ} (ht : Distinct t)
    (ht' : Distinct t') :
    form t = form t' ↔ Same t t' :=
  ⟨same_of_eq h t t' ht ht', form_eq h t t' ht ht'⟩

end CanonicalForm

end

end UnorderedTree
