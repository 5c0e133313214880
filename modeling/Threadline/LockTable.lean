import Threadline.Runs
import Mathlib.Data.Fintype.EquivFin
import Mathlib.Data.Fintype.Sets
import Mathlib.Order.WellFounded

/-!
# A table of exclusive locks

Sessions take their locks one at a time, each in an order of its own, and keep them
until they end. A session that has all its locks reads the shared state, as often
as it needs, and commits once. A lock that another session holds is waited for.
-/

open Runs

namespace LockTable

/-- What a session does with the shared state: it reads, and in the end it commits. -/
inductive Transaction (σ : Type*)
  | commit (result : σ)
  | read (next : σ → Transaction σ)

/-- What a transaction commits when nobody else commits meanwhile. -/
def Transaction.alone {σ : Type*} : Transaction σ → σ → σ
  | .commit result, _ => result
  | .read next, s => (next s).alone s

/-- The locks, and the sessions that are using them. -/
structure Table (S L σ : Type*) where
  /-- The session that holds a lock. -/
  owner : L → Option S
  /-- The locks a session has still to take, in order. -/
  todo : S → List L
  /-- What is left of a session's transaction; an ended session has none. -/
  work : S → Option (Transaction σ)
  state : σ

inductive Event (S : Type*)
  | take (s : S)
  | read (s : S)
  | commit (s : S)
  | abort (s : S)

variable {S L σ : Type*}

/-- Sessions that have not begun. -/
def start (plan : S → List L) (body : S → Transaction σ) (state : σ) : Table S L σ where
  owner _ := none
  todo := plan
  work s := some (body s)
  state := state

namespace Table

section Steps

variable [DecidableEq S]

/-- The end of a session, which leaves the shared state as given. -/
def release (t : Table S L σ) (s : S) (state : σ) : Table S L σ where
  owner l := if t.owner l = some s then none else t.owner l
  todo := Function.update t.todo s []
  work := Function.update t.work s none
  state := state

variable [DecidableEq L]

/-- An event that is not possible changes nothing: a session that waits for a lock goes on
waiting. -/
def step (t : Table S L σ) : Event S → Table S L σ
  | .take s =>
    match t.todo s with
    | [] => t
    | l :: rest =>
      if t.owner l = none ∨ t.owner l = some s then
        { t with
          owner := Function.update t.owner l (some s)
          todo := Function.update t.todo s rest }
      else t
  | .read s =>
    match t.todo s, t.work s with
    | [], some (.read next) => { t with work := Function.update t.work s (some (next t.state)) }
    | _, _ => t
  | .commit s =>
    match t.todo s, t.work s with
    | [], some (.commit result) => t.release s result
    | _, _ => t
  | .abort s => t.release s t.state

/-- The session that an event lets commit. -/
def commits (t : Table S L σ) : Event S → List S
  | .commit s =>
    match t.todo s, t.work s with
    | [], some (.commit _) => [s]
    | _, _ => []
  | _ => []

/-- Everything an event can do, with the sessions it lets commit. -/
inductive Change (t : Table S L σ) : Table S L σ → List S → Prop
  | unchanged : Change t t []
  | took (s : S) (l : L) (rest : List L) (htodo : t.todo s = l :: rest)
      (hfree : t.owner l = none ∨ t.owner l = some s) :
      Change t { t with
        owner := Function.update t.owner l (some s)
        todo := Function.update t.todo s rest } []
  | read (s : S) (next : σ → Transaction σ) (htodo : t.todo s = [])
      (hwork : t.work s = some (.read next)) :
      Change t { t with work := Function.update t.work s (some (next t.state)) } []
  | committed (s : S) (result : σ) (htodo : t.todo s = [])
      (hwork : t.work s = some (.commit result)) : Change t (t.release s result) [s]
  | aborted (s : S) : Change t (t.release s t.state) []

theorem change_step (t : Table S L σ) (event : Event S) :
    t.Change (t.step event) (t.commits event) := by
  cases event with
  | take s =>
    simp only [step, commits]
    split
    · exact .unchanged
    next l rest htodo =>
      split_ifs with hfree
      · exact .took s l rest htodo hfree
      · exact .unchanged
  | read s =>
    simp only [step, commits]
    split
    next next htodo hwork => exact .read s next htodo hwork
    · exact .unchanged
  | commit s =>
    simp only [step, commits]
    split
    next result htodo hwork => exact .committed s result htodo hwork
    · exact .unchanged
  | abort s => exact .aborted s

end Steps

/-! ## Waiting -/

/-- The session needs a lock next that another one holds. -/
def WaitsFor (t : Table S L σ) (s s' : S) : Prop :=
  ∃ l rest, t.todo s = l :: rest ∧ t.owner l = some s' ∧ s' ≠ s

/-- Some sessions that all wait for each other. -/
def Deadlocked (t : Table S L σ) (sessions : Finset S) : Prop :=
  sessions.Nonempty ∧ ∀ s ∈ sessions, ∃ s' ∈ sessions, t.WaitsFor s s'

/-- What a session holds comes before what it has still to take. -/
structure InOrder (before : L → L → Prop) (t : Table S L σ) : Prop where
  held : ∀ s l, t.owner l = some s → ∀ l' ∈ t.todo s, l = l' ∨ before l l'
  todo : ∀ s, (t.todo s).Pairwise fun l l' => l = l' ∨ before l l'

variable {before : L → L → Prop} {t t' : Table S L σ} {plan : S → List L}
  {body : S → Transaction σ} {state : σ} {s : S} {commits : List S}

theorem inOrder_start (h : ∀ s, (plan s).Pairwise fun l l' => l = l' ∨ before l l') :
    (start plan body state).InOrder before where
  held _ _ hown := nomatch hown
  todo := h

/-- Sessions that take their locks in one strict order never wait for each other: the lock that a
session waits for comes before the one its holder waits for. -/
theorem InOrder.not_deadlocked [IsTrans L before] [Std.Irrefl before] (h : t.InOrder before)
    (sessions : Finset S) : ¬ t.Deadlocked sessions := by
  rintro ⟨⟨s₀, hs₀⟩, hwait⟩
  have : Nonempty L := by
    obtain ⟨-, -, l, -⟩ := hwait s₀ hs₀
    exact ⟨l⟩
  choose! next hnext l rest htodo hown hne using hwait
  -- The lock that the holder waits for is another one, as a lock has one owner.
  have hbefore : ∀ s ∈ sessions, before (l s) (l (next s)) := by
    intro s hs
    have hmem : l (next s) ∈ t.todo (next s) := by
      rw [htodo (next s) (hnext s hs)]
      exact List.mem_cons_self
    refine (h.held (next s) (l s) (hown s hs) (l (next s)) hmem).resolve_left fun heq => ?_
    have hsame := (hown s hs).symm.trans (heq ▸ hown (next s) (hnext s hs))
    exact hne (next s) (hnext s hs) (Option.some.inj hsame).symm
  let later (a b : sessions) : Prop := before (l b) (l a)
  have htrans : IsTrans sessions later := by
    refine ⟨fun a b c hab hbc => ?_⟩
    have hcb : before (l c) (l b) := hbc
    have hba : before (l b) (l a) := hab
    exact IsTrans.trans (l c) (l b) (l a) hcb hba
  have hirrefl : Std.Irrefl later := ⟨fun a => Std.Irrefl.irrefl (r := before) (l a)⟩
  obtain ⟨last, -, hlast⟩ := (Finite.wellFounded_of_trans_of_irrefl later).has_min Set.univ
    ⟨⟨s₀, hs₀⟩, trivial⟩
  exact hlast ⟨next last, hnext last last.2⟩ trivial (hbefore last last.2)

variable [DecidableEq S]

theorem InOrder.release (h : t.InOrder before) (s : S) (state : σ) :
    (t.release s state).InOrder before where
  held s' l hown l' hl' := by
    simp only [Table.release] at hown hl'
    split_ifs at hown with hs
    have hne : s' ≠ s := fun he => hs (he ▸ hown)
    rw [Function.update_of_ne hne] at hl'
    exact h.held s' l hown l' hl'
  todo s' := by
    simp only [Table.release, Function.update_apply]
    split_ifs
    · exact .nil
    · exact h.todo s'

variable [DecidableEq L]

theorem InOrder.change (h : t.InOrder before) (hchange : t.Change t' commits) :
    t'.InOrder before := by
  cases hchange with
  | unchanged => exact h
  | took s l rest htodo hfree =>
    have hrest := List.pairwise_cons.mp (htodo ▸ h.todo s)
    refine ⟨fun s' l' hown l'' hl'' => ?_, fun s' => ?_⟩
    · simp only [Function.update_apply] at hown hl''
      by_cases hs : s' = s
      · subst hs
        rw [if_pos rfl] at hl''
        split_ifs at hown with hl
        · exact hl ▸ hrest.1 l'' hl''
        · exact h.held s' l' hown l'' (htodo ▸ List.mem_cons_of_mem l hl'')
      · rw [if_neg hs] at hl''
        split_ifs at hown with hl
        · exact absurd (Option.some.inj hown).symm hs
        · exact h.held s' l' hown l'' hl''
    · simp only [Function.update_apply]
      split_ifs
      · exact hrest.2
      · exact h.todo s'
  | read s next htodo hwork => exact ⟨h.held, h.todo⟩
  | committed s result htodo hwork => exact h.release s result
  | aborted s => exact h.release s t.state

theorem inOrder_run (h : ∀ s, (plan s).Pairwise fun l l' => l = l' ∨ before l l')
    (events : List (Event S)) : (run step (start plan body state) events).InOrder before :=
  run_invariant (fun t event ht => ht.change (t.change_step event)) (inOrder_start h) events

/-- Two sessions that take two locks in opposite orders can come to wait for each other. -/
theorem exists_deadlocked {s s' : S} {l l' : L} {rest rest' : List L} (hs : s ≠ s') (hl : l ≠ l')
    (hplan : plan s = l :: l' :: rest) (hplan' : plan s' = l' :: l :: rest') :
    (run step (start plan body state) [.take s, .take s']).Deadlocked {s, s'} := by
  have hfirst : (start plan body state).step (.take s) = {
      owner := Function.update (fun _ => none) l (some s)
      todo := Function.update plan s (l' :: rest)
      work := fun s => some (body s)
      state := state } := by
    simp [step, start, hplan]
  have hsecond : run step (start plan body state) [.take s, .take s'] = {
      owner := Function.update (Function.update (fun _ => none) l (some s)) l' (some s')
      todo := Function.update (Function.update plan s (l' :: rest)) s' (l :: rest')
      work := fun s => some (body s)
      state := state } := by
    rw [run_cons, run_cons, run_nil, hfirst]
    simp [step, Function.update_of_ne hs.symm, Function.update_of_ne hl.symm, hplan']
  rw [hsecond]
  refine ⟨⟨s, by simp⟩, fun waiting hwaiting => ?_⟩
  rcases Finset.mem_insert.mp hwaiting with rfl | hwaiting
  · exact ⟨s', by simp, l', rest, by simp [Function.update_of_ne hs], by simp, hs.symm⟩
  · obtain rfl := Finset.mem_singleton.mp hwaiting
    exact ⟨s, by simp, l, rest', by simp, by simp [Function.update_of_ne hl], hs⟩

end Table

/-! ## One lock before all others -/

section Guarded

variable {S L σ : Type*} {plan : S → List L} {body : S → Transaction σ} {guard : L}

/-- Every session begins with the lock `guard`. -/
def BeginsWith (guard : L) (plan : S → List L) : Prop := ∀ s, ∃ rest, plan s = guard :: rest

/-- What the shared state is when the sessions `done` have run one after the other. -/
def serial (body : S → Transaction σ) (state : σ) (done : List S) : σ :=
  done.foldl (fun state s => (body s).alone state) state

@[simp] theorem serial_nil (state : σ) : serial body state [] = state := rfl

@[simp] theorem serial_append (state : σ) (done done' : List S) :
    serial body state (done ++ done') = serial body (serial body state done) done' :=
  List.foldl_append

/-- The sessions that have begun hold the guard, their reads agree with the shared state, and the
shared state is that of a serial run. -/
structure Guarded (guard : L) (plan : S → List L) (body : S → Transaction σ) (initial : σ)
    (t : Table S L σ) (done : List S) : Prop where
  owns : ∀ s l, t.owner l = some s → t.owner guard = some s ∧ (t.work s).isSome
  ended : ∀ s, t.work s = none → t.todo s = []
  begun : ∀ s p, t.work s = some p → t.todo s = plan s ∧ p = body s ∨
    t.owner guard = some s ∧ p.alone t.state = (body s).alone t.state
  state : t.state = serial body initial done
  done_nodup : done.Nodup
  mem_done : ∀ s ∈ done, t.work s = none

variable {initial : σ} {t t' : Table S L σ} {done commits : List S} {s s' : S}

theorem guarded_start : Guarded guard plan body initial (start plan body initial) [] where
  owns _ _ h := nomatch h
  ended _ h := nomatch h
  begun _ _ h := .inl ⟨rfl, (Option.some.inj h).symm⟩
  state := rfl
  done_nodup := .nil
  mem_done _ h := nomatch h

/-- A session that has all its locks holds the guard. -/
theorem Guarded.owner_of_todo_eq_nil (h : Guarded guard plan body initial t done)
    (hplan : BeginsWith guard plan) {p : Transaction σ} (hwork : t.work s = some p)
    (htodo : t.todo s = []) : t.owner guard = some s := by
  rcases h.begun s p hwork with ⟨hbegun, -⟩ | ⟨hown, -⟩
  · obtain ⟨rest, hrest⟩ := hplan s
    rw [htodo, hrest] at hbegun
    cases hbegun
  · exact hown

/-- A session that does not hold the guard has not begun. -/
theorem Guarded.not_begun (h : Guarded guard plan body initial t done) {p : Transaction σ}
    (hwork : t.work s = some p) (hown : t.owner guard ≠ some s) :
    t.todo s = plan s ∧ p = body s :=
  (h.begun s p hwork).resolve_right fun hbegun => hown hbegun.1

variable [DecidableEq S]

/-- A session ends, and if it has read then the shared state is as it was when it read. -/
theorem Guarded.release (h : Guarded guard plan body initial t done) {state : σ}
    (hstate : state = serial body initial (done ++ commits)) (hdone : (done ++ commits).Nodup)
    (hcommits : ∀ s' ∈ commits, s' = s)
    (hothers : ∀ s', s' ≠ s → t.owner guard = some s' → state = t.state) :
    Guarded guard plan body initial (t.release s state) (done ++ commits) where
  owns s' l hown := by
    simp only [Table.release] at hown ⊢
    split_ifs at hown with hs
    have hne : s' ≠ s := fun he => hs (he ▸ hown)
    obtain ⟨hguard, hwork⟩ := h.owns s' l hown
    have hguard' : t.owner guard ≠ some s := fun he => hne (Option.some.inj (hguard.symm.trans he))
    rw [if_neg hguard', Function.update_of_ne hne]
    exact ⟨hguard, hwork⟩
  ended s' hwork := by
    simp only [Table.release, Function.update_apply] at hwork ⊢
    split_ifs at hwork ⊢ with hs
    · rfl
    · exact h.ended s' hwork
  begun s' p hwork := by
    simp only [Table.release, Function.update_apply] at hwork ⊢
    split_ifs at hwork with hs
    rcases h.begun s' p hwork with hbegun | ⟨hown, halone⟩
    · rw [if_neg hs]
      exact .inl hbegun
    · have hguard : t.owner guard ≠ some s := fun he => hs (Option.some.inj (hown.symm.trans he))
      rw [if_neg hguard, hothers s' hs hown]
      exact .inr ⟨hown, halone⟩
  state := hstate
  done_nodup := hdone
  mem_done s' hs' := by
    simp only [Table.release, Function.update_apply]
    split_ifs with hs
    · rfl
    · refine h.mem_done s' ((List.mem_append.mp hs').resolve_right fun hc => hs (hcommits s' hc))

variable [DecidableEq L]

theorem Guarded.change (h : Guarded guard plan body initial t done) (hplan : BeginsWith guard plan)
    (hchange : t.Change t' commits) : Guarded guard plan body initial t' (done ++ commits) := by
  cases hchange with
  | unchanged => simpa using h
  | took s l rest htodo hfree =>
    have hwork : (t.work s).isSome := by
      by_contra hnone
      rw [h.ended s (Option.not_isSome_iff_eq_none.mp hnone)] at htodo
      cases htodo
    obtain ⟨p, hp⟩ := Option.isSome_iff_exists.mp hwork
    -- A session's first lock is the guard, and later ones are taken while it holds the guard.
    have hguard : l = guard ∨ t.owner guard = some s := by
      rcases h.begun s p hp with ⟨hbegun, -⟩ | ⟨hown, -⟩
      · obtain ⟨rest', hrest⟩ := hplan s
        rw [htodo, hrest] at hbegun
        exact .inl (List.cons.inj hbegun).1
      · exact .inr hown
    have hguard' : Function.update t.owner l (some s) guard = some s := by
      rcases hguard with rfl | hown
      · simp
      · by_cases hl : guard = l
        · rw [hl, Function.update_self]
        · rw [Function.update_of_ne hl, hown]
    have hother : ∀ s', t.owner guard = some s' → s' = s := by
      intro s' hs'
      rcases hguard with rfl | hown
      · rcases hfree with hnone | hsome
        · rw [hnone] at hs'
          cases hs'
        · exact Option.some.inj (hs'.symm.trans hsome)
      · exact Option.some.inj (hs'.symm.trans hown)
    simp only [List.append_nil]
    refine ⟨fun s' l' hown => ?_, fun s' hs' => ?_, fun s' p' hp' => ?_, h.state, h.done_nodup,
      h.mem_done⟩
    · simp only [Function.update_apply] at hown
      split_ifs at hown with hl
      · obtain rfl := Option.some.inj hown
        exact ⟨hguard', hwork⟩
      · obtain ⟨hs', hsome⟩ := h.owns s' l' hown
        obtain rfl := hother s' hs'
        exact ⟨hguard', hsome⟩
    · simp only [Function.update_apply]
      split_ifs with hs
      · subst hs
        rw [hp] at hs'
        cases hs'
      · exact h.ended s' hs'
    · by_cases hs : s' = s
      · subst hs
        refine .inr ⟨hguard', ?_⟩
        rcases h.begun s' p' hp' with ⟨-, rfl⟩ | ⟨-, halone⟩
        · rfl
        · exact halone
      · simp only [Function.update_of_ne hs]
        exact .inl (h.not_begun hp' fun hown => hs (hother s' hown))
  | read s next htodo hwork =>
    have hown := h.owner_of_todo_eq_nil hplan hwork htodo
    simp only [List.append_nil]
    refine ⟨fun s' l hl => ⟨(h.owns s' l hl).1, ?_⟩, fun s' hs' => ?_, fun s' p hp => ?_, h.state,
      h.done_nodup, fun s' hs' => ?_⟩
    · simp only [Function.update_apply]
      split_ifs
      · rfl
      · exact (h.owns s' l hl).2
    · simp only [Function.update_apply] at hs'
      split_ifs at hs'
      exact h.ended s' hs'
    · simp only [Function.update_apply] at hp
      split_ifs at hp with hs
      · subst hs
        obtain rfl := Option.some.inj hp
        refine .inr ⟨hown, ?_⟩
        rcases h.begun s' _ hwork with ⟨-, hbody⟩ | ⟨-, halone⟩
        · rw [← hbody, Transaction.alone]
        · exact halone
      · exact h.begun s' p hp
    · have hne : s' ≠ s := fun he => nomatch (he ▸ h.mem_done s' hs').symm.trans hwork
      simp only [Function.update_of_ne hne]
      exact h.mem_done s' hs'
  | committed s result htodo hwork =>
    have hown := h.owner_of_todo_eq_nil hplan hwork htodo
    have hresult : result = (body s).alone t.state := by
      rcases h.begun s _ hwork with ⟨-, hbody⟩ | ⟨-, halone⟩
      · rw [← hbody, Transaction.alone]
      · exact halone
    have hfresh : s ∉ done := fun hs => nomatch (h.mem_done s hs).symm.trans hwork
    refine h.release ?_ ?_ (fun s' hs' => List.mem_singleton.mp hs') fun s' hs' hown' => ?_
    · rw [serial_append, ← h.state, hresult]
      rfl
    · exact List.nodup_append.mpr ⟨h.done_nodup, List.nodup_singleton s, fun a ha b hb hab =>
        hfresh (List.mem_singleton.mp hb ▸ hab ▸ ha)⟩
    · exact absurd (Option.some.inj (hown'.symm.trans hown)) hs'
  | aborted s =>
    refine h.release ?_ (by simpa using h.done_nodup) (fun s' hs' => nomatch hs') fun _ _ _ => rfl
    simpa using h.state

/-- The sessions that have committed, in order. -/
def committed (plan : S → List L) (body : S → Transaction σ) (initial : σ)
    (events : List (Event S)) : List S :=
  observed Table.step Table.commits (start plan body initial) events

theorem guarded_run (hplan : BeginsWith guard plan) (events : List (Event S)) :
    Guarded guard plan body initial (run Table.step (start plan body initial) events)
      (committed plan body initial events) := by
  have hstep : ∀ (t : Table S L σ) done event, Guarded guard plan body initial t done →
      Guarded guard plan body initial (t.step event) (done ++ t.commits event) :=
    fun t _ event h => h.change hplan (t.change_step event)
  exact observed_invariant hstep guarded_start events

omit [DecidableEq S] [DecidableEq L]

/-- The locks that are held at one time are held by one session. -/
theorem Guarded.exclusive (h : Guarded guard plan body initial t done) {l l' : L}
    (hs : t.owner l = some s) (hs' : t.owner l' = some s') : s = s' :=
  Option.some.inj ((h.owns s l hs).1.symm.trans (h.owns s' l' hs').1)

/-- The guard is the only lock that is ever waited for. -/
theorem Guarded.waits (h : Guarded guard plan body initial t done) (hplan : BeginsWith guard plan)
    (hwait : t.WaitsFor s s') :
    (t.todo s).head? = some guard ∧ t.owner guard = some s' ∧ t.todo s = plan s := by
  obtain ⟨l, rest, htodo, hown, hne⟩ := hwait
  have hguard := (h.owns s' l hown).1
  have hwork : (t.work s).isSome := by
    by_contra hnone
    rw [h.ended s (Option.not_isSome_iff_eq_none.mp hnone)] at htodo
    cases htodo
  obtain ⟨p, hp⟩ := Option.isSome_iff_exists.mp hwork
  have hbegun := (h.not_begun hp fun hs => hne (Option.some.inj (hguard.symm.trans hs))).1
  obtain ⟨rest', hrest⟩ := hplan s
  exact ⟨by rw [hbegun, hrest, List.head?_cons], hguard, hbegun⟩

/-- The session that holds the guard waits for nobody. -/
theorem Guarded.not_waits (h : Guarded guard plan body initial t done)
    (hplan : BeginsWith guard plan) (hown : t.owner guard = some s) : ¬ t.WaitsFor s s' := by
  intro hwait
  have hs' := (h.waits hplan hwait).2.1
  obtain ⟨l, rest, htodo, hl, hne⟩ := hwait
  exact hne (Option.some.inj (hs'.symm.trans hown))

theorem Guarded.not_deadlocked (h : Guarded guard plan body initial t done)
    (hplan : BeginsWith guard plan) (sessions : Finset S) : ¬ t.Deadlocked sessions := by
  rintro ⟨⟨s, hs⟩, hwait⟩
  obtain ⟨s', hs', hwaits⟩ := hwait s hs
  obtain ⟨s'', -, hwaits'⟩ := hwait s' hs'
  exact h.not_waits hplan (h.waits hplan hwaits).2.1 hwaits'

/-- While a session has not ended, there is one that has not ended and waits for nobody. -/
theorem Guarded.exists_running (h : Guarded guard plan body initial t done)
    (hplan : BeginsWith guard plan) (hwork : (t.work s).isSome) :
    ∃ s', (t.work s').isSome ∧ ∀ s'', ¬ t.WaitsFor s' s'' := by
  cases hown : t.owner guard with
  | none =>
    refine ⟨s, hwork, fun s'' hwait => ?_⟩
    exact nomatch (h.waits hplan hwait).2.1.symm.trans hown
  | some s' => exact ⟨s', (h.owns s' guard hown).2, fun s'' => h.not_waits hplan hown⟩

end Guarded

end LockTable
