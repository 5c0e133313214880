import Mathlib.Data.List.Sort
import Mathlib.Data.List.Dedup
import Mathlib.Data.Prod.Lex

/-!
# Python sorting

`sorted(xs, key=key)` is a stable sort by a key, and `sorted(set(xs))` lists the
distinct values of `xs` in order. Insertion sort is stable and evaluates in the
kernel.
-/

namespace PySorted

variable {α β κ : Type*} [LinearOrder κ]

/-- `sorted(xs, key=key)`. -/
def sortedBy (key : α → κ) (xs : List α) : List α := xs.insertionSort fun a b => key a ≤ key b

section SortedBy

variable (key : α → κ)

@[simp] theorem sortedBy_nil : sortedBy key [] = [] := rfl

theorem sortedBy_perm (xs : List α) : (sortedBy key xs).Perm xs := List.perm_insertionSort _ xs

@[simp] theorem mem_sortedBy {a : α} {xs : List α} : a ∈ sortedBy key xs ↔ a ∈ xs :=
  (sortedBy_perm key xs).mem_iff

@[simp] theorem sortedBy_length (xs : List α) : (sortedBy key xs).length = xs.length :=
  (sortedBy_perm key xs).length_eq

theorem sortedBy_nodup {xs : List α} (h : xs.Nodup) : (sortedBy key xs).Nodup :=
  (sortedBy_perm key xs).nodup_iff.mpr h

theorem sortedBy_pairwise (xs : List α) :
    (sortedBy key xs).Pairwise fun a b => key a ≤ key b := by
  have : Std.Total fun a b : α => key a ≤ key b := ⟨fun a b => le_total _ _⟩
  have : IsTrans α fun a b => key a ≤ key b := ⟨fun a b c => le_trans⟩
  exact List.pairwise_insertionSort _ xs

/-- The head of a sorted list has the least key. -/
theorem sortedBy_head_le {xs : List α} {a : α} {rest : List α} (h : sortedBy key xs = a :: rest) :
    ∀ b ∈ xs, key a ≤ key b := by
  intro b hb
  have hp := sortedBy_pairwise key xs
  rw [h] at hp
  have hm : b ∈ a :: rest := h ▸ (mem_sortedBy key).mpr hb
  rcases List.mem_cons.mp hm with rfl | hr
  · exact le_rfl
  · exact List.rel_of_pairwise_cons hp hr

/-- Where the key tells the elements apart, the order of arrival does not matter. -/
theorem sortedBy_eq_of_perm {xs ys : List α} (h : xs.Perm ys)
    (hinj : ∀ a ∈ xs, ∀ b ∈ xs, key a = key b → a = b) : sortedBy key xs = sortedBy key ys := by
  refine List.Perm.eq_of_pairwise ?_ (sortedBy_pairwise key xs) (sortedBy_pairwise key ys)
    (((sortedBy_perm key xs).trans h).trans (sortedBy_perm key ys).symm)
  intro a b ha hb hab hba
  exact hinj a ((mem_sortedBy key).mp ha) b (h.mem_iff.mpr ((mem_sortedBy key).mp hb))
    (le_antisymm hab hba)

/-- Sorted lists with distinct keys and the same elements are equal. -/
theorem sortedBy_eq_of_mem {xs ys : List α}
    (hx : (xs.map key).Nodup) (hy : (ys.map key).Nodup) (h : ∀ a, a ∈ xs ↔ a ∈ ys) :
    sortedBy key xs = sortedBy key ys := by
  apply sortedBy_eq_of_perm
  · exact (List.perm_ext_iff_of_nodup (List.Nodup.of_map key hx) (List.Nodup.of_map key hy)).mpr h
  · exact fun a ha b hb => List.inj_on_of_nodup_map hx ha hb

theorem sortedBy_eq_self {xs : List α} (h : xs.Pairwise fun a b => key a ≤ key b) :
    sortedBy key xs = xs := List.Pairwise.insertionSort_eq h

theorem orderedInsert_filter (p : α → Bool) (a : α) {xs : List α}
    (h : xs.Pairwise fun a b => key a ≤ key b) :
    (xs.orderedInsert (fun a b => key a ≤ key b) a).filter p =
      if p a then (xs.filter p).orderedInsert (fun a b => key a ≤ key b) a else xs.filter p := by
  induction xs with
  | nil => cases hp : p a <;> simp [hp]
  | cons x xs ih =>
    obtain ⟨hx, hxs⟩ := List.pairwise_cons.mp h
    have ih := ih hxs
    by_cases hle : key a ≤ key x
    · rw [List.orderedInsert_cons_of_le (fun a b => key a ≤ key b) _ hle]
      cases hp : p a with
      | false => simp [List.filter_cons, hp]
      | true =>
        cases hpx : p x with
        | true => simp [hp, hpx, hle]
        | false =>
          -- everything behind `x` is at least `a`, so `a` stays in front
          have hall : ∀ b ∈ xs.filter p, key a ≤ key b := fun b hb =>
            hle.trans (hx b (List.mem_of_mem_filter hb))
          cases hf : xs.filter p with
          | nil => simp [hp, hpx, hf]
          | cons y ys =>
            have hy : key a ≤ key y := hall y (by rw [hf]; exact List.mem_cons_self)
            simp [hp, hpx, hf, hy]
    · rw [List.orderedInsert_of_not_le (fun a b => key a ≤ key b) _ hle, List.filter_cons, ih]
      cases hpx : p x <;> cases hp : p a <;> simp [hpx, hle]

theorem filter_sortedBy (p : α → Bool) (xs : List α) :
    (sortedBy key xs).filter p = sortedBy key (xs.filter p) := by
  induction xs with
  | nil => rfl
  | cons x xs ih =>
    have hstep : sortedBy key (x :: xs) =
        (sortedBy key xs).orderedInsert (fun a b => key a ≤ key b) x := rfl
    rw [hstep, orderedInsert_filter key p x (sortedBy_pairwise key xs), ih]
    cases hp : p x <;> simp [sortedBy, hp]

/-- Two arrivals of one key that may swap without effect are the same. -/
theorem eq_of_sortedBy_swap {a b : α} {xs : List α} (hkey : key a = key b)
    (h : sortedBy key (a :: b :: xs) = sortedBy key (b :: a :: xs)) : a = b := by
  -- the sort is stable, so the items of this key keep their order of arrival
  have hsame : ∀ ys : List α, (sortedBy key ys).filter (fun c => key c = key a) =
      ys.filter fun c => key c = key a := by
    intro ys
    rw [filter_sortedBy, sortedBy_eq_self]
    refine List.pairwise_of_forall_mem_list fun c hc d hd => ?_
    have hc := of_decide_eq_true (List.mem_filter.mp hc).2
    have hd := of_decide_eq_true (List.mem_filter.mp hd).2
    exact (hc.trans hd.symm).le
  have hfilter := congrArg (List.filter fun c => key c = key a) h
  rw [hsame, hsame] at hfilter
  simp only [List.filter_cons, hkey, decide_true, if_true] at hfilter
  exact (List.cons.inj hfilter).1

theorem sortedBy_map {γ : Type*} (f : γ → α) (xs : List γ) :
    sortedBy key (xs.map f) = (sortedBy (key ∘ f) xs).map f :=
  (List.map_insertionSort _ _ f xs (fun _ _ _ _ => Iff.rfl)).symm

end SortedBy

/-- `sorted(set(xs))`. -/
def sortedSet (xs : List κ) : List κ := sortedBy id xs.dedup

@[simp] theorem mem_sortedSet {a : κ} {xs : List κ} : a ∈ sortedSet xs ↔ a ∈ xs := by
  simp [sortedSet]

theorem sortedSet_nodup (xs : List κ) : (sortedSet xs).Nodup :=
  sortedBy_nodup _ (List.nodup_dedup xs)

theorem sortedSet_pairwise (xs : List κ) : (sortedSet xs).Pairwise (· < ·) := by
  apply ((sortedBy_pairwise id xs.dedup).and (sortedSet_nodup xs)).imp
  intro a b hab
  exact lt_of_le_of_ne hab.1 hab.2

theorem sortedSet_eq_of_mem {xs ys : List κ} (h : ∀ a, a ∈ xs ↔ a ∈ ys) :
    sortedSet xs = sortedSet ys := by
  apply sortedBy_eq_of_perm
  · exact (List.perm_ext_iff_of_nodup (List.nodup_dedup _) (List.nodup_dedup _)).mpr (by simpa using h)
  · intro a _ b _ hab
    exact hab

theorem sortedBy_id_eq_sortedSet {ks xs : List κ} (hn : ks.Nodup) (h : ∀ k, k ∈ ks ↔ k ∈ xs) :
    sortedBy id ks = sortedSet xs := by
  apply sortedBy_eq_of_perm
  · exact (List.perm_ext_iff_of_nodup hn (List.nodup_dedup _)).mpr (by simpa using h)
  · intro a _ b _ hab
    exact hab

theorem sortedSet_eq_nil {xs : List κ} : sortedSet xs = [] ↔ xs = [] := by
  constructor
  · intro h
    rw [List.eq_nil_iff_forall_not_mem] at h ⊢
    intro a ha
    exact h a (mem_sortedSet.mpr ha)
  · rintro rfl
    rfl

end PySorted
