import Mathlib.Algebra.BigOperators.Group.List.Basic
import Mathlib.Data.Set.Function
import Threadline.PyDict

/-!
# Keyed lists

Entries are collected in a dictionary under a key, and the last one of a key
stands. Nothing is lost when the key tells the entries apart.
-/

namespace KeyedLists

variable {α β κ : Type*} {key : α → κ} {xs ys : List α}

/-- Entries of one key are equal. -/
def Separates (key : α → κ) (xs : List α) : Prop := Set.InjOn key {x | x ∈ xs}

theorem separates_congr (h : ∀ x, x ∈ xs ↔ x ∈ ys) : Separates key xs ↔ Separates key ys := by
  have hset : {x | x ∈ xs} = {x | x ∈ ys} := Set.ext h
  rw [Separates, Separates, hset]

theorem Separates.of_subset (h : Separates key ys) (hsub : xs ⊆ ys) : Separates key xs :=
  Set.InjOn.mono hsub h

theorem separates_of_length_le_one (h : xs.length ≤ 1) : Separates key xs := by
  intro x hx y hy _
  match xs, h with
  | [z], _ => exact (List.mem_singleton.mp hx).trans (List.mem_singleton.mp hy).symm

/-- Lists whose keys differ are told apart separately. -/
theorem separates_append {P : κ → Prop} (hxs : ∀ x ∈ xs, P (key x)) (hys : ∀ y ∈ ys, ¬ P (key y)) :
    Separates key (xs ++ ys) ↔ Separates key xs ∧ Separates key ys := by
  constructor
  · intro h
    exact ⟨h.of_subset (List.subset_append_left xs ys), h.of_subset (List.subset_append_right xs ys)⟩
  · intro h x hx y hy hkey
    rcases List.mem_append.mp hx with hx | hx
    · rcases List.mem_append.mp hy with hy | hy
      · exact h.1 hx hy hkey
      · exact absurd (hkey ▸ hxs x hx) (hys y hy)
    · rcases List.mem_append.mp hy with hy | hy
      · exact absurd (hkey ▸ hxs y hy) (hys x hx)
      · exact h.2 hx hy hkey

/-- Entries of different sources are told apart when the key tells the sources. -/
theorem separates_flatMap {sources : List β} {entries : β → List α}
    (hown : ∀ a ∈ sources, Separates key (entries a))
    (hacross : ∀ a ∈ sources, ∀ b ∈ sources, ∀ x ∈ entries a, ∀ y ∈ entries b,
      key x = key y → a = b) :
    Separates key (sources.flatMap entries) := by
  intro x hx y hy hkey
  obtain ⟨a, ha, hx⟩ := List.mem_flatMap.mp hx
  obtain ⟨b, hb, hy⟩ := List.mem_flatMap.mp hy
  obtain rfl := hacross a ha b hb x hx y hy hkey
  exact hown a ha hx hy hkey

theorem separates_map {sources : List β} {entry : β → α} : Separates key (sources.map entry) ↔
    ∀ a ∈ sources, ∀ b ∈ sources, key (entry a) = key (entry b) → entry a = entry b := by
  constructor
  · intro h a ha b hb hkey
    exact h (List.mem_map_of_mem ha) (List.mem_map_of_mem hb) hkey
  · intro h x hx y hy hkey
    obtain ⟨a, ha, rfl⟩ := List.mem_map.mp hx
    obtain ⟨b, hb, rfl⟩ := List.mem_map.mp hy
    exact h a ha b hb hkey

/-- A dictionary keeps the entries that its keys tell apart. -/
theorem mem_values_ofPairs [DecidableEq κ] (h : Separates key xs) {x : α} (hx : x ∈ xs) :
    x ∈ (PyDict.ofPairs (xs.map fun x => (key x, x))).values := by
  have hpair : (key x, x) ∈ xs.map fun x => (key x, x) := List.mem_map_of_mem hx
  obtain ⟨y, hy⟩ := PyDict.get?_ofPairs_isSome hpair
  obtain ⟨z, hz, he⟩ := List.mem_map.mp (PyDict.mem_of_get?_ofPairs hy)
  obtain ⟨hkey, rfl⟩ := Prod.mk.inj he
  obtain rfl := h hz hx hkey
  exact PyDict.mem_values_iff.mpr ⟨_, hy⟩

/-- Where only one element has entries, they are all there is. -/
theorem flatMap_eq_of_others {entries : α → List β} (hn : (xs.map key).Nodup) {a : α} (ha : a ∈ xs)
    (hothers : ∀ x ∈ xs, key x ≠ key a → entries x = []) : xs.flatMap entries = entries a := by
  induction xs with
  | nil => cases ha
  | cons x xs ih =>
    rw [List.map_cons, List.nodup_cons] at hn
    rw [List.flatMap_cons]
    by_cases hx : a = x
    · have hrest : xs.flatMap entries = [] := by
        apply List.flatMap_eq_nil_iff.mpr
        intro y hy
        apply hothers y (List.mem_cons_of_mem x hy)
        intro hkey
        exact hn.1 (hx ▸ hkey ▸ List.mem_map_of_mem hy)
      rw [hrest, List.append_nil, hx]
    · have ha : a ∈ xs := (List.mem_cons.mp ha).resolve_left hx
      have hkey : key x ≠ key a := fun hkey => hn.1 (hkey ▸ List.mem_map_of_mem ha)
      rw [hothers x List.mem_cons_self hkey, List.nil_append]
      exact ih hn.2 ha fun y hy => hothers y (List.mem_cons_of_mem x hy)

/-! ## Sums by key -/

section Sums

variable {M : Type*} [AddCommMonoid M] {f : α → M}

theorem sum_filter_flatMap (ks : List κ) (entries : κ → List α) (p : α → Prop) [DecidablePred p] :
    (((ks.flatMap entries).filter p).map f).sum =
      (ks.map fun k => (((entries k).filter p).map f).sum).sum := by
  rw [List.filter_flatMap, List.map_flatMap, List.flatMap, List.sum_flatten, List.map_map]
  rfl

/-- What belongs to one key at most is counted once over all keys. -/
theorem sum_filter_exists {ks : List κ} (hn : ks.Nodup) (p : κ → α → Prop)
    [∀ k, DecidablePred (p k)]
    (hunique : ∀ x ∈ xs, ∀ k ∈ ks, ∀ k' ∈ ks, p k x → p k' x → k = k') :
    (ks.map fun k => ((xs.filter fun x => p k x).map f).sum).sum =
      ((xs.filter fun x => ∃ k ∈ ks, p k x).map f).sum := by
  induction ks with
  | nil => simp
  | cons k ks ih =>
    obtain ⟨hk, hn⟩ := List.nodup_cons.mp hn
    have hrest := ih hn fun x hx a ha b hb =>
      hunique x hx a (List.mem_cons_of_mem k ha) b (List.mem_cons_of_mem k hb)
    -- The entries of the first key, and those of the others.
    have hsplit := List.sum_map_filter_add_sum_map_filter_not (p k) f
      (xs.filter fun x => ∃ k' ∈ k :: ks, p k' x)
    have hfirst : ((xs.filter fun x => ∃ k' ∈ k :: ks, p k' x).filter fun x => p k x) =
        xs.filter fun x => p k x := by
      rw [List.filter_filter]
      apply List.filter_congr
      intro x _
      by_cases hx : p k x <;> simp [hx]
    have hothers : ((xs.filter fun x => ∃ k' ∈ k :: ks, p k' x).filter fun x => ¬ p k x) =
        xs.filter fun x => ∃ k' ∈ ks, p k' x := by
      rw [List.filter_filter]
      apply List.filter_congr
      intro x hx
      have hnot : p k x → ¬ ∃ k' ∈ ks, p k' x := by
        intro hpk hother
        obtain ⟨k', hk', hpk'⟩ := hother
        have heq := hunique x hx k List.mem_cons_self k' (List.mem_cons_of_mem k hk') hpk hpk'
        exact hk (heq ▸ hk')
      by_cases hpk : p k x
      · simp [hpk, hnot hpk]
      · simp [hpk]
    rw [hfirst, hothers] at hsplit
    rw [List.map_cons, List.sum_cons, hrest, hsplit]

end Sums

end KeyedLists
