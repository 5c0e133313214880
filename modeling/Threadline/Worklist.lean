import Mathlib.Algebra.BigOperators.Group.List.Basic
import Mathlib.Algebra.GroupWithZero.Nat
import Mathlib.Tactic.Common

/-!
# Worklists

The loop that pops a pending key, skips it if it was visited, and otherwise
visits it and pushes more keys. A run ends once the fuel covers the pending
keys and what the unvisited keys can still push.
-/

namespace Worklist

variable {κ σ : Type*} [DecidableEq κ]

/-- `while pending`: the keys that were visited and the state they left. -/
def run (visit : σ → κ → σ × List κ) :
    ℕ → List κ → List κ → σ → Option (List κ × σ)
  | _, [], visited, s => some (visited, s)
  | 0, _ :: _, _, _ => none
  | fuel + 1, k :: pending, visited, s =>
    if k ∈ visited then run visit fuel pending visited s
    else run visit fuel ((visit s k).2 ++ pending) (k :: visited) (visit s k).1

variable {visit : σ → κ → σ × List κ}

/-- What every round preserves holds at the end, with nothing pending. -/
theorem run_invariant {Inv : List κ → List κ → σ → Prop}
    (hskip : ∀ {k pending visited s}, k ∈ visited → Inv (k :: pending) visited s →
      Inv pending visited s)
    (hvisit : ∀ {k pending visited s}, k ∉ visited → Inv (k :: pending) visited s →
      Inv ((visit s k).2 ++ pending) (k :: visited) (visit s k).1)
    {fuel : ℕ} {pending visited : List κ} {s : σ} {result : List κ × σ}
    (hrun : run visit fuel pending visited s = some result) (h : Inv pending visited s) :
    Inv [] result.1 result.2 := by
  induction fuel generalizing pending visited s with
  | zero =>
    cases pending with
    | nil =>
      obtain rfl := Option.some.inj hrun
      exact h
    | cons k pending => cases hrun
  | succ fuel ih =>
    cases pending with
    | nil =>
      obtain rfl := Option.some.inj hrun
      exact h
    | cons k pending =>
      rw [run] at hrun
      split_ifs at hrun with hk
      · exact ih hrun (hskip hk h)
      · exact ih hrun (hvisit hk h)

/-- A run that has ended is the same with more fuel. -/
theorem run_of_le {fuel fuel' : ℕ} {pending visited : List κ} {s : σ} {result : List κ × σ}
    (hrun : run visit fuel pending visited s = some result) (hle : fuel ≤ fuel') :
    run visit fuel' pending visited s = some result := by
  induction fuel generalizing fuel' pending visited s with
  | zero =>
    cases pending with
    | nil =>
      rw [← hrun]
      cases fuel' <;> rfl
    | cons k pending => cases hrun
  | succ fuel ih =>
    cases pending with
    | nil =>
      rw [← hrun]
      cases fuel' <;> rfl
    | cons k pending =>
      obtain ⟨more, rfl⟩ : ∃ more, fuel' = more + 1 := ⟨fuel' - 1, by omega⟩
      rw [run] at hrun ⊢
      split_ifs at hrun ⊢
      · exact ih hrun (by omega)
      · exact ih hrun (by omega)

/-- What the unvisited keys can still push. -/
def weight (cost : κ → ℕ) (keys visited : List κ) : ℕ :=
  ((keys.filter fun k => k ∉ visited).map cost).sum

theorem weight_cons_le (cost : κ → ℕ) (keys visited : List κ) (k : κ) :
    weight cost keys (k :: visited) ≤ weight cost keys visited := by
  induction keys with
  | nil => simp [weight]
  | cons a keys ih =>
    simp only [weight, List.filter_cons, List.mem_cons] at ih ⊢
    split_ifs with hk hv hv
    · simpa using ih
    · simp_all
    · simp only [List.map_cons, List.sum_cons]
      omega
    · exact ih

/-- A visit takes its own cost off the weight. -/
theorem weight_visit (cost : κ → ℕ) {keys visited : List κ} {k : κ} (hk : k ∉ visited)
    (hkeys : k ∈ keys ∨ cost k = 0) :
    cost k + weight cost keys (k :: visited) ≤ weight cost keys visited := by
  induction keys with
  | nil =>
    rcases hkeys with hkeys | hkeys
    · cases hkeys
    · simp [weight, hkeys]
  | cons a keys ih =>
    by_cases ha : a = k
    · subst ha
      have hle := weight_cons_le cost keys visited a
      simp only [weight, List.filter_cons, List.mem_cons, hk, true_or, not_true_eq_false,
        decide_false, Bool.false_eq_true, if_false, not_false_eq_true, decide_true, if_true,
        List.map_cons, List.sum_cons] at hle ⊢
      omega
    · have ih := ih (hkeys.imp_left fun h => (List.mem_cons.mp h).resolve_left (Ne.symm ha))
      simp only [weight, List.filter_cons] at ih ⊢
      by_cases hv : a ∈ visited
      · simpa [ha, hv] using ih
      · simp only [ha, hv, List.mem_cons, or_self, not_false_eq_true, decide_true, if_true,
          List.map_cons, List.sum_cons] at ih ⊢
        omega

/-- Enough fuel: the pending keys, and all that the keys can push. -/
theorem run_isSome {cost : κ → ℕ} {keys : List κ} (hcost : ∀ s k, (visit s k).2.length ≤ cost k)
    (hkeys : ∀ k, k ∈ keys ∨ cost k = 0) {fuel : ℕ} {pending visited : List κ} {s : σ}
    (hfuel : pending.length + weight cost keys visited ≤ fuel) :
    (run visit fuel pending visited s).isSome := by
  induction fuel generalizing pending visited s with
  | zero =>
    cases pending with
    | nil => rfl
    | cons k pending =>
      rw [List.length_cons] at hfuel
      omega
  | succ fuel ih =>
    cases pending with
    | nil => rfl
    | cons k pending =>
      rw [List.length_cons] at hfuel
      rw [run]
      split_ifs with hk
      · exact ih (by omega)
      · apply ih
        have hpushed := hcost s k
        have hweight := weight_visit cost hk (hkeys k)
        rw [List.length_append]
        omega

end Worklist
