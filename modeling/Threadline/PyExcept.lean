import Mathlib.Data.List.Forall2
import Mathlib.Data.List.Perm.Basic
import Mathlib.Tactic.Common

/-!
# Computations that may raise

Elimination rules for the outcomes of sequencing, `mapM` and `foldlM` in
`Except`.
-/

namespace PyExcept

universe u v

variable {α β : Type u} {ε : Type v}

theorem bind_eq_ok {x : Except ε α} {f : α → Except ε β} {b : β} :
    x >>= f = .ok b ↔ ∃ a, x = .ok a ∧ f a = .ok b := by
  cases x <;> simp [bind, Except.bind]

theorem map_eq_ok {x : Except ε α} {f : α → β} {b : β} :
    f <$> x = .ok b ↔ ∃ a, x = .ok a ∧ f a = b := by
  cases x <;> simp [Functor.map, Except.map]

theorem eq_ok_of_isSome {x : Except ε α} (h : x.toOption.isSome) : x = .ok (x.toOption.get h) := by
  cases x with
  | ok a => rfl
  | error err => cases h

theorem toOption_eq_some {x : Except ε α} {a : α} : x.toOption = some a ↔ x = .ok a := by
  cases x <;> simp [Except.toOption]

theorem bind_eq_error {x : Except ε α} {f : α → Except ε β} {err : ε} :
    x >>= f = .error err ↔ x = .error err ∨ ∃ a, x = .ok a ∧ f a = .error err := by
  cases x <;> simp [bind, Except.bind]

theorem mapError_eq_ok {ε' : Type*} {f : ε → ε'} {x : Except ε α} {a : α} :
    x.mapError f = .ok a ↔ x = .ok a := by
  cases x <;> simp [Except.mapError]

theorem mapM_eq_ok {f : α → Except ε β} {xs : List α} {ys : List β} :
    xs.mapM f = .ok ys ↔ List.Forall₂ (fun x y => f x = .ok y) xs ys := by
  induction xs generalizing ys with
  | nil => cases ys <;> simp [pure, Except.pure]
  | cons x xs ih =>
    rw [List.mapM_cons, bind_eq_ok]
    simp only [bind_eq_ok, ih, pure, Except.pure, Except.ok.injEq]
    constructor
    · rintro ⟨y, hy, ys', hys, rfl⟩
      exact .cons hy hys
    · intro h
      cases h with
      | cons hy hys => exact ⟨_, hy, _, hys, rfl⟩

/-- `mapM` over a rearranged list rearranges its results. -/
theorem mapM_eq_some {f : α → Option β} {xs : List α} {ys : List β} :
    xs.mapM f = some ys ↔ List.Forall₂ (fun x y => f x = some y) xs ys := by
  induction xs generalizing ys with
  | nil => cases ys <;> simp
  | cons x xs ih =>
    rw [List.mapM_cons]
    simp only [Option.bind_eq_bind, Option.bind_eq_some_iff, ih, Option.pure_def,
      Option.some.injEq]
    constructor
    · rintro ⟨y, hy, ys, hys, rfl⟩
      exact .cons hy hys
    · intro h
      cases h with
      | cons hy hys => exact ⟨_, hy, _, hys, rfl⟩

theorem mapM_eq_ok_perm {f : α → Except ε β} {xs xs' : List α} {ys : List β} (hp : xs'.Perm xs)
    (h : xs.mapM f = .ok ys) : ∃ ys', xs'.mapM f = .ok ys' ∧ ys'.Perm ys := by
  obtain ⟨ys', hys', hperm⟩ := List.perm_comp_forall₂ hp (mapM_eq_ok.mp h)
  exact ⟨ys', mapM_eq_ok.mpr hys', hperm⟩

/-- The results of `mapM` are the results of its items. -/
theorem mem_of_mapM_eq_ok {f : α → Except ε β} {xs : List α} {ys : List β}
    (h : xs.mapM f = .ok ys) {y : β} : y ∈ ys ↔ ∃ x ∈ xs, f x = .ok y := by
  rw [mapM_eq_ok] at h
  induction h with
  | nil => simp
  | @cons x y' xs ys hy _ ih =>
    rw [List.mem_cons, ih, List.exists_mem_cons_iff, hy, Except.ok.injEq, eq_comm]

theorem mem_of_mapM_eq_some {f : α → Option β} {xs : List α} {ys : List β}
    (h : xs.mapM f = some ys) {y : β} : y ∈ ys ↔ ∃ x ∈ xs, f x = some y := by
  rw [mapM_eq_some] at h
  induction h with
  | nil => simp
  | @cons x y' xs ys hy _ ih =>
    rw [List.mem_cons, ih, List.exists_mem_cons_iff, hy, Option.some.injEq, eq_comm]

theorem exists_of_mapM_eq_ok {f : α → Except ε β} {xs : List α} {ys : List β}
    (h : xs.mapM f = .ok ys) {x : α} (hx : x ∈ xs) : ∃ y, f x = .ok y := by
  rw [mapM_eq_ok] at h
  induction h with
  | nil => cases hx
  | cons hy _ ih =>
    rcases List.mem_cons.mp hx with rfl | hx
    · exact ⟨_, hy⟩
    · exact ih hx

theorem exists_of_mapM_eq_some {f : α → Option β} {xs : List α} {ys : List β}
    (h : xs.mapM f = some ys) {x : α} (hx : x ∈ xs) : ∃ y ∈ ys, f x = some y := by
  rw [mapM_eq_some] at h
  induction h with
  | nil => cases hx
  | @cons x' y xs ys hy _ ih =>
    rcases List.mem_cons.mp hx with rfl | hx
    · exact ⟨y, List.mem_cons_self, hy⟩
    · obtain ⟨y', hy', hfy⟩ := ih hx
      exact ⟨y', List.mem_cons_of_mem _ hy', hfy⟩

theorem exists_of_mapM_eq_none {f : α → Option β} {xs : List α} (h : xs.mapM f = none) :
    ∃ x ∈ xs, f x = none := by
  induction xs with
  | nil => cases h
  | cons x xs ih =>
    cases hx : f x with
    | none => exact ⟨x, List.mem_cons_self, hx⟩
    | some y =>
      cases hxs : xs.mapM f with
      | none =>
        obtain ⟨x', hmem, hx'⟩ := ih hxs
        exact ⟨x', List.mem_cons_of_mem _ hmem, hx'⟩
      | some ys => simp [List.mapM_cons, hx, hxs] at h

/-- `mapM` returns when each of its items does. -/
theorem exists_mapM_eq_ok {f : α → Except ε β} {xs : List α} (h : ∀ x ∈ xs, ∃ y, f x = .ok y) :
    ∃ ys, xs.mapM f = .ok ys := by
  induction xs with
  | nil => exact ⟨[], rfl⟩
  | cons x xs ih =>
    obtain ⟨y, hy⟩ := h x List.mem_cons_self
    obtain ⟨ys, hys⟩ := ih fun x hx => h x (List.mem_cons_of_mem _ hx)
    exact ⟨y :: ys, by rw [mapM_eq_ok] at hys ⊢; exact .cons hy hys⟩

/-- A loop of checks passes when each check does. -/
theorem forM_eq_ok {α : Type u} {f : α → Except ε PUnit} {xs : List α} {u : PUnit} :
    forM xs f = .ok u ↔ ∀ x ∈ xs, f x = .ok ⟨⟩ := by
  induction xs with
  | nil => simp [pure, Except.pure]
  | cons x xs ih =>
    rw [List.forM_cons, bind_eq_ok, List.forall_mem_cons, ih]
    exact ⟨fun ⟨_, h⟩ => h, fun h => ⟨⟨⟩, h⟩⟩

/-- `mapM` of a partial function. -/
theorem mapM_eq_ok_iff_filterMap {f : α → Except ε β} {g : α → Option β}
    (hf : ∀ a b, f a = .ok b ↔ g a = some b) {xs : List α} {ys : List β} :
    xs.mapM f = .ok ys ↔ (∀ a ∈ xs, (g a).isSome) ∧ ys = xs.filterMap g := by
  rw [mapM_eq_ok]
  induction xs generalizing ys with
  | nil => cases ys <;> simp
  | cons a xs ih =>
    rw [List.forall₂_cons_left_iff, List.forall_mem_cons]
    constructor
    · rintro ⟨b, ys', hb, hys, rfl⟩
      obtain ⟨hsome, rfl⟩ := ih.mp hys
      have hb := (hf a b).mp hb
      exact ⟨⟨by rw [hb]; rfl, hsome⟩, (List.filterMap_cons_some hb).symm⟩
    · rintro ⟨⟨ha, hsome⟩, rfl⟩
      obtain ⟨b, hb⟩ := Option.isSome_iff_exists.mp ha
      exact ⟨b, xs.filterMap g, (hf a b).mpr hb, ih.mpr ⟨hsome, rfl⟩, List.filterMap_cons_some hb⟩

/-- `mapM` of a function with a check. -/
theorem mapM_eq_ok_iff_map {f : α → Except ε β} {p : α → Prop} {g : α → β}
    (hf : ∀ a b, f a = .ok b ↔ p a ∧ b = g a) {xs : List α} {ys : List β} :
    xs.mapM f = .ok ys ↔ (∀ a ∈ xs, p a) ∧ ys = xs.map g := by
  simp only [mapM_eq_ok, hf, List.forall₂_and_left]
  refine and_congr_right fun _ => ?_
  rw [← List.forall₂_map_left_iff (f := g) (R := fun b c => c = b)]
  have hflip : (fun b c : β => c = b) = Eq := by
    funext b c
    exact propext eq_comm
  rw [hflip, List.forall₂_eq_eq_eq, eq_comm]

/-- The results of a loop are counted by what they come from. -/
theorem countP_of_mapM_eq_ok {f : α → Except ε β} {xs : List α} {ys : List β} {p : α → Bool}
    {q : β → Bool} (h : xs.mapM f = .ok ys) (hpq : ∀ x y, f x = .ok y → q y = p x) :
    ys.countP q = xs.countP p := by
  have hall := mapM_eq_ok.mp h
  clear h
  induction hall with
  | nil => rfl
  | cons hx _ ih => rw [List.countP_cons, List.countP_cons, hpq _ _ hx, ih]

/-! ## Exceptions -/

/-- Only exceptions that satisfy `P` are raised. -/
def Raises (P : ε → Prop) (x : Except ε α) : Prop := ∀ err, x = .error err → P err

theorem Raises.bind {P : ε → Prop} {x : Except ε α} {f : α → Except ε β} (hx : Raises P x)
    (hf : ∀ a, x = .ok a → Raises P (f a)) : Raises P (x >>= f) := by
  intro err h
  obtain h | ⟨a, ha, h⟩ := bind_eq_error.mp h
  · exact hx err h
  · exact hf a ha err h

theorem raises_ok {P : ε → Prop} (a : α) : Raises P (.ok a : Except ε α) := fun _ h => nomatch h

theorem raises_error {P : ε → Prop} {err : ε} (h : P err) : Raises P (.error err : Except ε α) :=
  fun _ herr => Except.error.inj herr ▸ h

theorem raises_mapM {P : ε → Prop} {f : α → Except ε β} {xs : List α}
    (h : ∀ x ∈ xs, Raises P (f x)) : Raises P (xs.mapM f) := by
  induction xs with
  | nil => exact raises_ok []
  | cons x xs ih =>
    obtain ⟨hx, hxs⟩ := List.forall_mem_cons.mp h
    rw [List.mapM_cons]
    exact hx.bind fun y _ => (ih hxs).bind fun ys _ => raises_ok (y :: ys)

theorem raises_foldlM {P : ε → Prop} {f : β → α → Except ε β} {xs : List α} {b : β}
    (h : ∀ b, ∀ x ∈ xs, Raises P (f b x)) : Raises P (xs.foldlM f b) := by
  induction xs generalizing b with
  | nil => exact raises_ok b
  | cons x xs ih =>
    rw [List.foldlM_cons]
    exact (h b x List.mem_cons_self).bind fun b' _ =>
      ih fun b x hx => h b x (List.mem_cons_of_mem _ hx)

/-! ## Loops -/

/-- What every turn of a loop keeps. -/
theorem foldlM_invariant {f : β → α → Except ε β} {P : β → Prop} {xs : List α} {init b : β}
    (hstep : ∀ b x b', x ∈ xs → P b → f b x = .ok b' → P b') (hinit : P init)
    (h : xs.foldlM f init = .ok b) : P b := by
  induction xs generalizing init with
  | nil => exact Except.ok.inj h ▸ hinit
  | cons x xs ih =>
    rw [List.foldlM_cons, bind_eq_ok] at h
    obtain ⟨b', hb', h⟩ := h
    exact ih (fun b x b' hx => hstep b x b' (List.mem_cons_of_mem _ hx))
      (hstep init x b' List.mem_cons_self hinit hb') h

/-- A loop follows another one from turn to turn. -/
theorem foldlM_simulation {γ : Type u} {f : β → α → Except ε β} {g : γ → α → Except ε γ}
    {R : β → γ → Prop} {xs : List α} {b b' : β} {c : γ}
    (hstep : ∀ b c x b', R b c → f b x = .ok b' → ∃ c', g c x = .ok c' ∧ R b' c') (hR : R b c)
    (h : xs.foldlM f b = .ok b') : ∃ c', xs.foldlM g c = .ok c' ∧ R b' c' := by
  induction xs generalizing b c with
  | nil =>
    obtain rfl := Except.ok.inj h
    exact ⟨c, rfl, hR⟩
  | cons x xs ih =>
    rw [List.foldlM_cons, bind_eq_ok] at h
    obtain ⟨b₁, hb₁, h⟩ := h
    obtain ⟨c₁, hc₁, hR₁⟩ := hstep b c x b₁ hR hb₁
    obtain ⟨c', hc', hR'⟩ := ih hR₁ h
    exact ⟨c', by rw [List.foldlM_cons, bind_eq_ok]; exact ⟨c₁, hc₁, hc'⟩, hR'⟩

/-- The last step of a loop that did not raise. -/
theorem foldlM_concat_eq_ok {f : β → α → Except ε β} {init b : β} {xs : List α} {x : α} :
    (xs ++ [x]).foldlM f init = .ok b ↔ ∃ b', xs.foldlM f init = .ok b' ∧ f b' x = .ok b := by
  simp [bind_eq_ok, pure, Except.pure]

theorem foldlM_concat_eq_error {f : β → α → Except ε β} {init : β} {xs : List α} {x : α} {err : ε} :
    (xs ++ [x]).foldlM f init = .error err ↔
      xs.foldlM f init = .error err ∨ ∃ b', xs.foldlM f init = .ok b' ∧ f b' x = .error err := by
  simp [bind_eq_error, pure, Except.pure]

end PyExcept
