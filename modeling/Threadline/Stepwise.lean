import Threadline.Runs
import Mathlib.Logic.Function.Basic
import Mathlib.Logic.Relation

/-!
# Programs in steps

A program over a shared state takes one step at a time. Others may change the
state before a step, a step may meet a fault, and a program that takes no more
steps has crashed. Its correctness is what it guarantees of each of its steps and
of its result, relying on what others do.
-/

open Runs Relation

namespace Stepwise

/-- A program that returns `α` or raises `ε`. A step may meet a fault in `φ`. -/
inductive Program (σ φ ε α : Type) where
  | done (result : Except ε α)
  | step (effect : Option φ → σ → σ) (next : Option φ → σ → Program σ φ ε α)

namespace Program

variable {σ φ ε α β : Type}

/-- One operation on the state, which raises the fault that it meets instead. -/
def op (raise : φ → ε) (f : σ → Except ε α × σ) : Program σ φ ε α :=
  .step
    (fun fault s => match fault with
      | some _ => s
      | none => (f s).2)
    (fun fault s => match fault with
      | some e => .done (.error (raise e))
      | none => .done (f s).1)

def bind : Program σ φ ε α → (α → Program σ φ ε β) → Program σ φ ε β
  | .done (.ok a), f => f a
  | .done (.error e), _ => .done (.error e)
  | .step effect next, f => .step effect fun fault s => (next fault s).bind f

instance : Monad (Program σ φ ε) where
  pure a := .done (.ok a)
  bind := bind

/-- What an exception handler does with the exceptions of a program. -/
def tryCatch : Program σ φ ε α → (ε → Program σ φ ε α) → Program σ φ ε α
  | .done (.ok a), _ => .done (.ok a)
  | .done (.error e), handler => handler e
  | .step effect next, handler => .step effect fun fault s => (next fault s).tryCatch handler

/-- Run the last part however the program ends. -/
def tryFinally : Program σ φ ε α → Program σ φ ε Unit → Program σ φ ε α
  | .done result, last => last.bind fun _ => .done result
  | .step effect next, last => .step effect fun fault s => (next fault s).tryFinally last

/-! ## Runs -/

/-- A step of a program, with the fault that it meets. -/
def advance (c : σ × Program σ φ ε α) (fault : Option φ) : σ × Program σ φ ε α :=
  match c with
  | (s, .done result) => (s, .done result)
  | (s, .step effect next) => (effect fault s, next fault s)

/-- How a program ends that is left alone. -/
def outcome : Program σ φ ε α → σ → Except ε α × σ
  | .done result, s => (result, s)
  | .step effect next, s => (next none s).outcome (effect none s)

/-- A program that is left alone ends after finitely many steps. -/
theorem exists_run_eq_outcome (p : Program σ φ ε α) (s : σ) : ∃ n : ℕ,
    run advance (s, p) (List.replicate n none) = ((p.outcome s).2, .done (p.outcome s).1) := by
  induction p generalizing s with
  | done result => exact ⟨0, rfl⟩
  | step effect next ih =>
    obtain ⟨n, hn⟩ := ih none s (effect none s)
    exact ⟨n + 1, hn⟩

section Outcome

variable (s : σ)

@[simp] theorem outcome_pure (a : α) : (pure a : Program σ φ ε α).outcome s = (.ok a, s) := rfl

@[simp] theorem outcome_done (result : Except ε α) :
    (.done result : Program σ φ ε α).outcome s = (result, s) := rfl

@[simp] theorem outcome_op (raise : φ → ε) (f : σ → Except ε α × σ) :
    (op raise f).outcome s = f s := rfl

@[simp] theorem outcome_bind (p : Program σ φ ε α) (f : α → Program σ φ ε β) :
    (p >>= f).outcome s = match p.outcome s with
      | (.ok a, s') => (f a).outcome s'
      | (.error e, s') => (.error e, s') := by
  show (p.bind f).outcome s = _
  induction p generalizing s with
  | done result => cases result <;> rfl
  | step effect next ih => exact ih none s (effect none s)

/-- A composition that returns does so after its first part. -/
theorem exists_of_outcome_bind {p : Program σ φ ε α} {f : α → Program σ φ ε β} {s s' : σ} {b : β}
    (h : (p >>= f).outcome s = (.ok b, s')) :
    ∃ a s₁, p.outcome s = (.ok a, s₁) ∧ (f a).outcome s₁ = (.ok b, s') := by
  rw [outcome_bind] at h
  cases hp : p.outcome s with
  | mk result s₁ =>
    rw [hp] at h
    cases result with
    | ok a => exact ⟨a, s₁, rfl, h⟩
    | error e => cases h

@[simp] theorem outcome_tryCatch (p : Program σ φ ε α) (handler : ε → Program σ φ ε α) :
    (p.tryCatch handler).outcome s = match p.outcome s with
      | (.ok a, s') => (.ok a, s')
      | (.error e, s') => (handler e).outcome s' := by
  induction p generalizing s with
  | done result => cases result <;> rfl
  | step effect next ih => exact ih none s (effect none s)

@[simp] theorem outcome_tryFinally (p : Program σ φ ε α) (last : Program σ φ ε Unit) :
    (p.tryFinally last).outcome s = match last.outcome (p.outcome s).2 with
      | (.ok _, s') => ((p.outcome s).1, s')
      | (.error e, s') => (.error e, s') := by
  induction p generalizing s with
  | done result =>
    show (last >>= fun _ => .done result).outcome s = _
    rw [outcome_bind, outcome_done]
    cases last.outcome s with | mk ended s' => cases ended <;> rfl
  | step effect next ih => exact ih none s (effect none s)

end Outcome

/-! ## Correctness -/

/-- While others act by `rely`, the steps of the program act by `guar`, and its result is as `post`
says. -/
def Ensures (rely guar : σ → σ → Prop) (post : Except ε α → σ → Prop) :
    Program σ φ ε α → σ → Prop
  | .done result, s => ∀ s', rely s s' → post result s'
  | .step effect next, s => ∀ s', rely s s' → ∀ fault, guar s' (effect fault s') ∧
      (next fault s').Ensures rely guar post (effect fault s')

variable {rely guar guar' : σ → σ → Prop} {post post' : Except ε α → σ → Prop}
  {p : Program σ φ ε α} {s s' : σ}

theorem Ensures.mono (h : p.Ensures rely guar post s) (hguar : ∀ s s', guar s s' → guar' s s')
    (hpost : ∀ result s, post result s → post' result s) : p.Ensures rely guar' post' s := by
  induction p generalizing s with
  | done result => exact fun s' hs' => hpost result s' (h s' hs')
  | step effect next ih =>
    intro s' hs' fault
    obtain ⟨hstep, hnext⟩ := h s' hs' fault
    exact ⟨hguar _ _ hstep, ih fault s' hnext⟩

theorem Ensures.imp (h : p.Ensures rely guar post s)
    (hpost : ∀ result s, post result s → post' result s) : p.Ensures rely guar post' s :=
  h.mono (fun _ _ hguar => hguar) hpost

/-- What others do does not matter. -/
theorem Ensures.others (htrans : ∀ {a b c}, rely a b → rely b c → rely a c)
    (h : p.Ensures rely guar post s) (hs : rely s s') : p.Ensures rely guar post s' := by
  cases p with
  | done result => exact fun s'' hs'' => h s'' (htrans hs hs'')
  | step effect next => exact fun s'' hs'' => h s'' (htrans hs hs'')

/-- What comes after a program starts where the program has returned. -/
theorem Ensures.bind {f : α → Program σ φ ε β} {post : Except ε β → σ → Prop}
    (hrefl : ∀ s, rely s s)
    (h : p.Ensures rely guar (fun result s => match result with
      | .ok a => (f a).Ensures rely guar post s
      | .error e => post (.error e) s) s) :
    (p >>= f).Ensures rely guar post s := by
  show (p.bind f).Ensures rely guar post s
  induction p generalizing s with
  | done result =>
    cases result with
    | ok a => exact h s (hrefl s)
    | error e => exact h
  | step effect next ih =>
    intro s' hs' fault
    obtain ⟨hstep, hnext⟩ := h s' hs' fault
    exact ⟨hstep, ih fault s' hnext⟩

theorem Ensures.tryCatch {handler : ε → Program σ φ ε α} (hrefl : ∀ s, rely s s)
    (h : p.Ensures rely guar (fun result s => match result with
      | .ok a => post (.ok a) s
      | .error e => (handler e).Ensures rely guar post s) s) :
    (p.tryCatch handler).Ensures rely guar post s := by
  induction p generalizing s with
  | done result =>
    cases result with
    | ok a => exact h
    | error e => exact h s (hrefl s)
  | step effect next ih =>
    intro s' hs' fault
    obtain ⟨hstep, hnext⟩ := h s' hs' fault
    exact ⟨hstep, ih fault s' hnext⟩

theorem Ensures.tryFinally {last : Program σ φ ε Unit} (hrefl : ∀ s, rely s s)
    (h : p.Ensures rely guar (fun result s => last.Ensures rely guar (fun ended s => match ended with
      | .ok _ => ∀ s', rely s s' → post result s'
      | .error e => post (.error e) s) s) s) :
    (p.tryFinally last).Ensures rely guar post s := by
  induction p generalizing s with
  | done result =>
    refine Ensures.bind hrefl ((h s (hrefl s)).imp fun ended s' hended => ?_)
    cases ended with
    | ok _ => exact hended
    | error e => exact hended
  | step effect next ih =>
    intro s' hs' fault
    obtain ⟨hstep, hnext⟩ := h s' hs' fault
    exact ⟨hstep, ih fault s' hnext⟩

theorem ensures_op {raise : φ → ε} {f : σ → Except ε α × σ}
    (h : ∀ s', rely s s' → (guar s' s' ∧ ∀ e s'', rely s' s'' → post (.error (raise e)) s'') ∧
      guar s' (f s').2 ∧ ∀ s'', rely (f s').2 s'' → post (f s').1 s'') :
    (op raise f).Ensures rely guar post s := by
  intro s' hs' fault
  obtain ⟨⟨hsame, hraise⟩, hguar, hpost⟩ := h s' hs'
  cases fault with
  | none => exact ⟨hguar, hpost⟩
  | some e => exact ⟨hsame, hraise e⟩

/-- What a program does that runs alone. -/
theorem Ensures.run (hrefl : ∀ s, rely s s) (h : p.Ensures rely guar post s)
    (faults : List (Option φ)) :
    ReflTransGen guar s (Runs.run advance (s, p) faults).1 ∧
      (Runs.run advance (s, p) faults).2.Ensures rely guar post
        (Runs.run advance (s, p) faults).1 := by
  let Good (c : σ × Program σ φ ε α) : Prop :=
    ReflTransGen guar s c.1 ∧ c.2.Ensures rely guar post c.1
  have hstep : ∀ c fault, Good c → Good (advance c fault) := by
    rintro ⟨s', p'⟩ fault ⟨hsteps, hp'⟩
    cases p' with
    | done result => exact ⟨hsteps, hp'⟩
    | step effect next =>
      obtain ⟨hguar, hnext⟩ := hp' s' (hrefl s') fault
      exact ⟨hsteps.tail hguar, hnext⟩
  exact run_invariant hstep (show Good (s, p) from ⟨.refl, h⟩) faults

/-- How a program ends that is left alone. -/
theorem Ensures.outcome (hrefl : ∀ s, rely s s) (h : p.Ensures rely guar post s) :
    post (p.outcome s).1 (p.outcome s).2 := by
  induction p generalizing s with
  | done result => exact h s (hrefl s)
  | step effect next ih => exact ih none s (h s (hrefl s) none).2

/-- A program that runs alone keeps the invariant at each of its steps, and what it returns is as
`post` says. -/
def Keeps (inv : σ → Prop) (post : α → σ → Prop) (p : Program σ φ ε α) (s : σ) : Prop :=
  p.Ensures Eq (fun _ s' => inv s') (fun result s => inv s ∧ ∀ a, result = .ok a → post a s) s

section Keeps

variable {inv inv' : σ → Prop} {returns returns' : α → σ → Prop}

theorem Keeps.mono (h : p.Keeps inv returns s) (hinv : ∀ s, inv s → inv' s)
    (hreturns : ∀ a s, inv s → returns a s → returns' a s) : p.Keeps inv' returns' s :=
  Ensures.mono h (fun _ s' hs' => hinv s' hs') fun _ s hs =>
    ⟨hinv s hs.1, fun a ha => hreturns a s hs.1 (hs.2 a ha)⟩

theorem Keeps.imp (h : p.Keeps inv returns s)
    (hreturns : ∀ a s, inv s → returns a s → returns' a s) : p.Keeps inv returns' s :=
  h.mono (fun _ hs => hs) hreturns

theorem keeps_pure {a : α} (hs : inv s) (h : returns a s) :
    (pure a : Program σ φ ε α).Keeps inv returns s := by
  intro s' hs'
  subst hs'
  refine ⟨hs, fun b hb => ?_⟩
  rwa [← Except.ok.inj hb]

theorem keeps_error {e : ε} (hs : inv s) :
    (.done (.error e) : Program σ φ ε α).Keeps inv returns s := by
  intro s' hs'
  subst hs'
  exact ⟨hs, fun _ hb => nomatch hb⟩

theorem Keeps.bind {f : α → Program σ φ ε β} {returns : β → σ → Prop}
    (h : p.Keeps inv (fun a s => (f a).Keeps inv returns s) s) :
    (p >>= f).Keeps inv returns s := by
  refine Ensures.bind (fun _ => rfl) (Ensures.imp h fun result s hs => ?_)
  cases result with
  | ok a => exact hs.2 a rfl
  | error e => exact ⟨hs.1, fun _ hb => nomatch hb⟩

/-- A handler takes over wherever the invariant holds. -/
theorem Keeps.tryCatch {handler : ε → Program σ φ ε α} (h : p.Keeps inv returns s)
    (hhandler : ∀ e s, inv s → (handler e).Keeps inv returns s) :
    (p.tryCatch handler).Keeps inv returns s := by
  refine Ensures.tryCatch (fun _ => rfl) (Ensures.imp h fun result s hs => ?_)
  cases result with
  | ok a => exact hs
  | error e => exact hhandler e s hs.1

theorem Keeps.tryFinally {last : Program σ φ ε Unit} (h : p.Keeps inv returns s)
    (hlast : ∀ s, inv s → last.Keeps inv (fun _ _ => True) s)
    (hreturns : ∀ a s, inv s → returns a s → last.Keeps inv (fun _ s' => returns' a s') s) :
    (p.tryFinally last).Keeps inv returns' s := by
  refine Ensures.tryFinally (fun _ => rfl) (Ensures.imp h fun result s hs => ?_)
  cases result with
  | ok a =>
    refine Ensures.imp (hreturns a s hs.1 (hs.2 a rfl)) fun ended s hended => ?_
    cases ended with
    | ok _ =>
      intro s' hs'
      subst hs'
      exact ⟨hended.1, fun b hb => Except.ok.inj hb ▸ hended.2 () rfl⟩
    | error e => exact ⟨hended.1, fun _ hb => nomatch hb⟩
  | error e =>
    refine Ensures.imp (hlast s hs.1) fun ended s hended => ?_
    cases ended with
    | ok _ =>
      intro s' hs'
      subst hs'
      exact ⟨hended.1, fun _ hb => nomatch hb⟩
    | error e => exact ⟨hended.1, fun _ hb => nomatch hb⟩

theorem keeps_op {raise : φ → ε} {f : σ → Except ε α × σ} (hs : inv s) (hinv : inv (f s).2)
    (hreturns : ∀ a, (f s).1 = .ok a → returns a (f s).2) :
    (op raise f).Keeps inv returns s := by
  refine ensures_op fun s' hs' => ?_
  subst hs'
  refine ⟨⟨hs, fun e s'' hs'' => ?_⟩, hinv, fun s'' hs'' => ?_⟩
  · subst hs''
    exact ⟨hs, fun _ hb => nomatch hb⟩
  · subst hs''
    exact ⟨hinv, hreturns⟩

/-- The invariant holds wherever the program stops. -/
theorem Keeps.run (h : p.Keeps inv returns s) (hs : inv s) (faults : List (Option φ)) :
    inv (Runs.run advance (s, p) faults).1 := by
  obtain ⟨hsteps, -⟩ := Ensures.run (fun _ => rfl) h faults
  rcases hsteps.cases_tail with hsame | ⟨_, -, hlast⟩
  · rw [hsame]
    exact hs
  · exact hlast

end Keeps

/-- A program that runs alone acts by `guar`, and what it returns is as `post` says. -/
def Acts (guar : σ → σ → Prop) (returns : α → σ → Prop) (p : Program σ φ ε α) (s : σ) : Prop :=
  p.Ensures Eq guar (fun result s => ∀ a, result = .ok a → returns a s) s

section Acts

variable {returns returns' : α → σ → Prop}

theorem acts_done {result : Except ε α} (h : ∀ a, result = .ok a → returns a s) :
    (.done result : Program σ φ ε α).Acts guar returns s := by
  intro s' hs'
  exact hs' ▸ h

theorem acts_pure {a : α} (h : returns a s) : (pure a : Program σ φ ε α).Acts guar returns s :=
  acts_done fun _ hb => Except.ok.inj hb ▸ h

theorem Acts.bind {f : α → Program σ φ ε β} {returns : β → σ → Prop}
    (h : p.Acts guar (fun a s => (f a).Acts guar returns s) s) :
    (p >>= f).Acts guar returns s := by
  refine Ensures.bind (fun _ => rfl) (Ensures.imp h fun result s hs => ?_)
  cases result with
  | ok a => exact hs a rfl
  | error e => exact fun _ hb => nomatch hb

theorem acts_op {raise : φ → ε} {f : σ → Except ε α × σ} (hsame : guar s s)
    (hguar : guar s (f s).2) (hreturns : ∀ a, (f s).1 = .ok a → returns a (f s).2) :
    (op raise f).Acts guar returns s := by
  refine ensures_op fun s' hs' => ?_
  subst hs'
  refine ⟨⟨hsame, fun e s'' _ => fun _ hb => nomatch hb⟩, hguar, fun s'' hs'' => ?_⟩
  subst hs''
  exact hreturns

end Acts

/-- An observation of the state, after which the program goes on with what it has seen. -/
theorem ensures_observe {raise : Empty → ε} {v : σ → α} {g : α → Program σ Empty ε β}
    {post : Except ε β → σ → Prop} (hguar : ∀ s, guar s s)
    (h : ∀ s', rely s s' → (g (v s')).Ensures rely guar post s') :
    (op raise (fun s => (.ok (v s), s)) >>= g).Ensures rely guar post s := by
  intro s' hs' fault
  cases fault with
  | none => exact ⟨hguar s', h s' hs'⟩
  | some e => exact e.elim

end Program

/-! ## Two programs -/

section Pair

variable {σ φ₁ ε₁ α₁ φ₂ ε₂ α₂ : Type}

/-- Two programs over one state. -/
structure Pair (σ φ₁ ε₁ α₁ φ₂ ε₂ α₂ : Type) where
  state : σ
  left : Program σ φ₁ ε₁ α₁
  right : Program σ φ₂ ε₂ α₂

/-- One of the two programs takes a step. -/
def Pair.step (c : Pair σ φ₁ ε₁ α₁ φ₂ ε₂ α₂) :
    Option φ₁ ⊕ Option φ₂ → Pair σ φ₁ ε₁ α₁ φ₂ ε₂ α₂
  | .inl fault =>
    let (state, left) := Program.advance (c.state, c.left) fault
    { c with state := state, left := left }
  | .inr fault =>
    let (state, right) := Program.advance (c.state, c.right) fault
    { c with state := state, right := right }

variable {rely₁ guar₁ rely₂ guar₂ : σ → σ → Prop} {post₁ : Except ε₁ α₁ → σ → Prop}
  {post₂ : Except ε₂ α₂ → σ → Prop}

/-- Programs that guarantee what the other one relies on are correct however they are
interleaved. -/
theorem Pair.ensures (c : Pair σ φ₁ ε₁ α₁ φ₂ ε₂ α₂)
    (hrefl₁ : ∀ s, rely₁ s s) (htrans₁ : ∀ {a b c}, rely₁ a b → rely₁ b c → rely₁ a c)
    (hrefl₂ : ∀ s, rely₂ s s) (htrans₂ : ∀ {a b c}, rely₂ a b → rely₂ b c → rely₂ a c)
    (h₁₂ : ∀ s s', guar₁ s s' → rely₂ s s') (h₂₁ : ∀ s s', guar₂ s s' → rely₁ s s')
    (hleft : c.left.Ensures rely₁ guar₁ post₁ c.state)
    (hright : c.right.Ensures rely₂ guar₂ post₂ c.state)
    (schedule : List (Option φ₁ ⊕ Option φ₂)) :
    (run Pair.step c schedule).left.Ensures rely₁ guar₁ post₁ (run Pair.step c schedule).state ∧
      (run Pair.step c schedule).right.Ensures rely₂ guar₂ post₂
        (run Pair.step c schedule).state := by
  let Good (c : Pair σ φ₁ ε₁ α₁ φ₂ ε₂ α₂) : Prop :=
    c.left.Ensures rely₁ guar₁ post₁ c.state ∧ c.right.Ensures rely₂ guar₂ post₂ c.state
  have hstep : ∀ c turn, Good c → Good (Pair.step c turn) := by
    rintro ⟨s, left, right⟩ turn ⟨hleft, hright⟩
    cases turn with
    | inl fault =>
      cases left with
      | done result => exact ⟨hleft, hright⟩
      | step effect next =>
        obtain ⟨hguar, hnext⟩ := hleft s (hrefl₁ s) fault
        exact ⟨hnext, hright.others htrans₂ (h₁₂ _ _ hguar)⟩
    | inr fault =>
      cases right with
      | done result => exact ⟨hleft, hright⟩
      | step effect next =>
        obtain ⟨hguar, hnext⟩ := hright s (hrefl₂ s) fault
        exact ⟨hleft.others htrans₁ (h₂₁ _ _ hguar), hnext⟩
  exact run_invariant hstep (show Good c from ⟨hleft, hright⟩) schedule

end Pair

/-! ## Any number of programs -/

section Family

variable {ι σ φ ε : Type} {α : ι → Type}

/-- Programs over one state. -/
structure Family (ι σ φ ε : Type) (α : ι → Type) where
  state : σ
  programs : ∀ i, Program σ φ ε (α i)

/-- One of the programs takes a step. -/
def Family.step [DecidableEq ι] (c : Family ι σ φ ε α) (turn : ι × Option φ) :
    Family ι σ φ ε α where
  state := (Program.advance (c.state, c.programs turn.1) turn.2).1
  programs := Function.update c.programs turn.1
    (Program.advance (c.state, c.programs turn.1) turn.2).2

variable [DecidableEq ι] {rely guar : ι → σ → σ → Prop} {post : ∀ i, Except ε (α i) → σ → Prop}

/-- A step leaves the programs correct, and it is the step of one of them if it changes the state. -/
theorem Family.ensures_step {c : Family ι σ φ ε α} (hrefl : ∀ i s, rely i s s)
    (htrans : ∀ i {a b c}, rely i a b → rely i b c → rely i a c)
    (hothers : ∀ i j, j ≠ i → ∀ s s', guar j s s' → rely i s s')
    (h : ∀ i, (c.programs i).Ensures (rely i) (guar i) (post i) c.state) (turn : ι × Option φ) :
    ((c.step turn).state = c.state ∨ ∃ i, guar i c.state (c.step turn).state) ∧
      ∀ i, ((c.step turn).programs i).Ensures (rely i) (guar i) (post i) (c.step turn).state := by
  obtain ⟨i, fault⟩ := turn
  unfold Family.step
  cases hprogram : c.programs i with
  | done result =>
    dsimp only [Program.advance]
    rw [← hprogram, Function.update_eq_self]
    exact ⟨.inl rfl, h⟩
  | step effect next =>
    have hi := h i
    rw [hprogram] at hi
    obtain ⟨hguar, hnext⟩ := hi c.state (hrefl i _) fault
    refine ⟨.inr ⟨i, hguar⟩, fun j => ?_⟩
    dsimp only [Program.advance]
    by_cases hj : j = i
    · subst hj
      rw [Function.update_self]
      exact hnext
    · rw [Function.update_of_ne hj]
      exact (h j).others (htrans j) (hothers j i (Ne.symm hj) _ _ hguar)

/-- Programs each of which guarantees what the others rely on are correct however they are
interleaved. -/
theorem Family.ensures {c : Family ι σ φ ε α} (hrefl : ∀ i s, rely i s s)
    (htrans : ∀ i {a b c}, rely i a b → rely i b c → rely i a c)
    (hothers : ∀ i j, j ≠ i → ∀ s s', guar j s s' → rely i s s')
    (h : ∀ i, (c.programs i).Ensures (rely i) (guar i) (post i) c.state)
    (schedule : List (ι × Option φ)) :
    ∀ i, ((run Family.step c schedule).programs i).Ensures (rely i) (guar i) (post i)
      (run Family.step c schedule).state := by
  let Good (c : Family ι σ φ ε α) : Prop :=
    ∀ i, (c.programs i).Ensures (rely i) (guar i) (post i) c.state
  have hstep : ∀ c turn, Good c → Good (Family.step c turn) := fun _ turn hc =>
    (ensures_step hrefl htrans hothers hc turn).2
  exact run_invariant hstep (show Good c from h) schedule

/-- What every step of a program respects relates the first state to the last one. -/
theorem Family.ensures_rel {c : Family ι σ φ ε α} (hrefl : ∀ i s, rely i s s)
    (htrans : ∀ i {a b c}, rely i a b → rely i b c → rely i a c)
    (hothers : ∀ i j, j ≠ i → ∀ s s', guar j s s' → rely i s s')
    (h : ∀ i, (c.programs i).Ensures (rely i) (guar i) (post i) c.state) {R : σ → σ → Prop}
    (hR : ∀ s, R s s) (hR' : ∀ a b c, R a b → R b c → R a c)
    (hguar : ∀ i s s', guar i s s' → R s s') (schedule : List (ι × Option φ)) :
    R c.state (run Family.step c schedule).state := by
  let Good (c : Family ι σ φ ε α) : Prop :=
    ∀ i, (c.programs i).Ensures (rely i) (guar i) (post i) c.state
  have hgood : ∀ c turn, Good c → Good (Family.step c turn) := fun _ turn hc =>
    (ensures_step hrefl htrans hothers hc turn).2
  have hstep : ∀ c turn, Good c → R c.state (Family.step c turn).state := by
    intro c turn hc
    rcases (ensures_step hrefl htrans hothers hc turn).1 with hsame | ⟨i, hi⟩
    · rw [hsame]
      exact hR c.state
    · exact hguar i _ _ hi
  exact run_rel (fun c => hR c.state) (fun a b c => hR' a.state b.state c.state) hgood hstep
    (show Good c from h) schedule

/-- One of the programs is right in its own way. -/
theorem Family.ensures_program {c : Family ι σ φ ε α} (hrefl : ∀ i s, rely i s s)
    (htrans : ∀ i {a b c}, rely i a b → rely i b c → rely i a c)
    (hothers : ∀ i j, j ≠ i → ∀ s s', guar j s s' → rely i s s')
    (h : ∀ i, (c.programs i).Ensures (rely i) (guar i) (post i) c.state) {i : ι}
    {own : Except ε (α i) → σ → Prop}
    (hi : (c.programs i).Ensures (rely i) (guar i) own c.state) (schedule : List (ι × Option φ)) :
    ((run Family.step c schedule).programs i).Ensures (rely i) (guar i) own
      (run Family.step c schedule).state := by
  have hall : ∀ j, (c.programs j).Ensures (rely j) (guar j) (Function.update post i own j)
      c.state := by
    intro j
    by_cases hj : j = i
    · subst hj
      rw [Function.update_self]
      exact hi
    · rw [Function.update_of_ne hj]
      exact h j
  have hend := ensures hrefl htrans hothers hall schedule i
  rw [Function.update_self] at hend
  exact hend

theorem Family.run_programs {c : Family ι σ φ ε α} {i : ι} {schedule : List (ι × Option φ)}
    (h : ∀ turn ∈ schedule, turn.1 ≠ i) :
    (run Family.step c schedule).programs i = c.programs i := by
  induction schedule generalizing c with
  | nil => rfl
  | cons turn schedule ih =>
    obtain ⟨hturn, hschedule⟩ := List.forall_mem_cons.mp h
    rw [run_cons, ih hschedule]
    exact Function.update_of_ne (Ne.symm hturn) _ _

end Family

end Stepwise
