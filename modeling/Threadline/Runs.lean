import Mathlib.Data.List.Induction
import Mathlib.Tactic.Common

/-!
# Runs of a step function

The states a system passes through under a list of operations, and what is
observed on the way.
-/

namespace Runs

variable {σ α ω : Type*} {step : σ → α → σ} {s : σ}

/-- The state after the operations `ops`. -/
def run (step : σ → α → σ) (s : σ) (ops : List α) : σ := ops.foldl step s

/-- The observations `obs` makes along a run. -/
def observed (step : σ → α → σ) (obs : σ → α → List ω) : σ → List α → List ω
  | _, [] => []
  | s, a :: ops => obs s a ++ observed step obs (step s a) ops

@[simp] theorem run_nil : run step s [] = s := rfl

@[simp] theorem run_cons (a : α) (ops : List α) : run step s (a :: ops) = run step (step s a) ops :=
  rfl

theorem run_append (ops ops' : List α) : run step s (ops ++ ops') = run step (run step s ops) ops' :=
  List.foldl_append

@[simp] theorem run_concat (ops : List α) (a : α) :
    run step s (ops ++ [a]) = step (run step s ops) a := by
  rw [run_append, run_cons, run_nil]

theorem observed_append {obs : σ → α → List ω} (ops ops' : List α) :
    observed step obs s (ops ++ ops') =
      observed step obs s ops ++ observed step obs (run step s ops) ops' := by
  induction ops generalizing s with
  | nil => rfl
  | cons a ops ih => rw [List.cons_append, observed, observed, ih, run_cons, List.append_assoc]

@[simp] theorem observed_concat {obs : σ → α → List ω} (ops : List α) (a : α) :
    observed step obs s (ops ++ [a]) = observed step obs s ops ++ obs (run step s ops) a := by
  rw [observed_append, observed, observed, List.append_nil]

/-- What every step preserves holds after every run. -/
theorem run_invariant {Inv : σ → Prop} (hstep : ∀ s a, Inv s → Inv (step s a)) (h : Inv s)
    (ops : List α) : Inv (run step s ops) := by
  induction ops generalizing s with
  | nil => exact h
  | cons a ops ih => exact ih (hstep s a h)

/-- What holds after a run and not before it was brought about by one of its steps. -/
theorem exists_step_of_run (P : σ → Prop) (hbefore : ¬ P s) {ops : List α}
    (hafter : P (run step s ops)) : ∃ pre a post, ops = pre ++ a :: post ∧
      ¬ P (run step s pre) ∧ P (run step s (pre ++ [a])) := by
  induction ops using List.reverseRecOn with
  | nil => exact absurd hafter hbefore
  | append_singleton ops a ih =>
    by_cases hops : P (run step s ops)
    · obtain ⟨pre, b, post, hsplit, hpre, hb⟩ := ih hops
      exact ⟨pre, b, post ++ [a], by simp [hsplit], hpre, hb⟩
    · exact ⟨ops, a, [], rfl, hops, hafter⟩

/-- An invariant of the state together with the observations made so far. -/
theorem observed_invariant {obs : σ → α → List ω} {Inv : σ → List ω → Prop}
    (hstep : ∀ s seen a, Inv s seen → Inv (step s a) (seen ++ obs s a)) (h : Inv s [])
    (ops : List α) : Inv (run step s ops) (observed step obs s ops) := by
  induction ops using List.reverseRecOn with
  | nil => exact h
  | append_singleton ops a ih =>
    rw [run_concat, observed_concat]
    exact hstep _ _ a ih

/-- A relation that each step from a good state respects relates the state to every later one. -/
theorem run_rel {Inv : σ → Prop} {R : σ → σ → Prop} (hrefl : ∀ s, R s s)
    (htrans : ∀ s t u, R s t → R t u → R s u) (hinv : ∀ s a, Inv s → Inv (step s a))
    (hstep : ∀ s a, Inv s → R s (step s a)) (h : Inv s) (ops : List α) : R s (run step s ops) := by
  induction ops generalizing s with
  | nil => exact hrefl s
  | cons a ops ih => exact htrans _ _ _ (hstep s a h) (ih (hinv s a h))

/-- A run of a system is matched by a run of another, which makes the same observations: each
operation stands for the operations that match it. -/
theorem exists_simulation {τ β : Type*} {step' : τ → β → τ} {obs : σ → α → List ω}
    {obs' : τ → β → List ω} {R : σ → τ → Prop} {Matches : α → List β → Prop}
    (hstep : ∀ s t a, R s t → ∃ bs, Matches a bs ∧ R (step s a) (run step' t bs) ∧
      obs s a = observed step' obs' t bs)
    {t : τ} (h : R s t) (ops : List α) :
    ∃ matched, List.Forall₂ Matches ops matched ∧
      R (run step s ops) (run step' t matched.flatten) ∧
      observed step obs s ops = observed step' obs' t matched.flatten := by
  induction ops generalizing s t with
  | nil => exact ⟨[], .nil, h, rfl⟩
  | cons a ops ih =>
    obtain ⟨bs, hmatches, hR, hobs⟩ := hstep s t a h
    obtain ⟨matched, hall, hrun, hobserved⟩ := ih hR
    refine ⟨bs :: matched, .cons hmatches hall, ?_, ?_⟩
    · rwa [List.flatten_cons, run_append]
    · rw [observed, List.flatten_cons, observed_append, hobs, hobserved]

end Runs
