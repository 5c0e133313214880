import Mathlib.Data.List.Nodup
import Mathlib.Data.List.Pairwise
import Mathlib.Order.Interval.Set.OrdConnected
import Mathlib.Tactic.Choose

/-!
# Lists of half-open windows

A window is a pair of its first value and an end that it does not hold. Of the
lists of windows that cover a set, a separated one is the shortest, and no other
one is separated.
-/

namespace HalfOpen

variable {α : Type*} [LinearOrder α]

/-- The values of a list of windows. -/
def covered (windows : List (α × α)) : Set α := {a | ∃ w ∈ windows, a ∈ Set.Ico w.1 w.2}

/-- Windows that are not empty, in order, with a value left out between any two. -/
structure Separated (windows : List (α × α)) : Prop where
  nonempty : ∀ w ∈ windows, w.1 < w.2
  gaps : windows.Pairwise fun v w => v.2 < w.1

@[simp] theorem covered_nil : covered ([] : List (α × α)) = ∅ := by
  ext a
  simp [covered]

@[simp] theorem covered_cons (w : α × α) (windows : List (α × α)) :
    covered (w :: windows) = Set.Ico w.1 w.2 ∪ covered windows := by
  ext a
  simp [covered]

theorem Ico_subset_covered {windows : List (α × α)} {w : α × α} (hw : w ∈ windows) :
    Set.Ico w.1 w.2 ⊆ covered windows := by
  intro a ha
  exact ⟨w, hw, ha⟩

namespace Separated

variable {windows others : List (α × α)} {v w : α × α}

theorem nil : Separated ([] : List (α × α)) := ⟨by simp, List.Pairwise.nil⟩

theorem start_mem (h : Separated windows) (hw : w ∈ windows) : w.1 ∈ covered windows :=
  Ico_subset_covered hw ⟨le_rfl, h.nonempty w hw⟩

/-- A window in front of all that is covered, with a value left out after it. -/
theorem cons {start stop : α} (h : Separated windows) (hlt : start < stop)
    (hgap : ∀ a ∈ covered windows, stop < a) : Separated ((start, stop) :: windows) := by
  refine ⟨?_, List.pairwise_cons.mpr ⟨fun w hw => hgap w.1 (h.start_mem hw), h.gaps⟩⟩
  intro w hw
  rcases List.mem_cons.mp hw with rfl | hw
  · exact hlt
  · exact h.nonempty w hw

theorem apart (h : Separated windows) (hv : v ∈ windows) (hw : w ∈ windows) (hne : v ≠ w) :
    v.2 < w.1 ∨ w.2 < v.1 := by
  have : Std.Symm fun v w : α × α => v.2 < w.1 ∨ w.2 < v.1 := ⟨fun _ _ => Or.symm⟩
  have hapart : windows.Pairwise fun v w => v.2 < w.1 ∨ w.2 < v.1 := h.gaps.imp Or.inl
  exact hapart.forall hv hw hne

/-- The value at which a window ends is left out. -/
theorem stop_notMem (h : Separated windows) (hw : w ∈ windows) : w.2 ∉ covered windows := by
  rintro ⟨v, hv, hstart, hstop⟩
  have hlt := h.nonempty w hw
  by_cases heq : v = w
  · rw [heq] at hstop
    exact lt_irrefl _ hstop
  · rcases h.apart hv hw heq with hbefore | hafter
    · exact lt_asymm (hbefore.trans hlt) hstop
    · exact absurd hstart (not_le_of_gt hafter)

/-- No two windows start in one run of covered values. -/
theorem eq_of_ordConnected (h : Separated windows) (hv : v ∈ windows) (hw : w ∈ windows)
    {s : Set α} (hs : s.OrdConnected) (hrun : s ⊆ covered windows) (hvs : v.1 ∈ s)
    (hws : w.1 ∈ s) : v = w := by
  by_contra hne
  rcases h.apart hv hw hne with hbefore | hafter
  · have hstop : v.2 ∈ s := hs.out hvs hws ⟨(h.nonempty v hv).le, hbefore.le⟩
    exact h.stop_notMem hv (hrun hstop)
  · have hstop : w.2 ∈ s := hs.out hws hvs ⟨(h.nonempty w hw).le, hafter.le⟩
    exact h.stop_notMem hw (hrun hstop)

theorem increasing (h : Separated windows) : windows.Pairwise fun v w => v.1 < w.1 := by
  apply h.gaps.imp_of_mem
  intro v w hv _ hgap
  exact (h.nonempty v hv).trans hgap

theorem nodup (h : Separated windows) : windows.Nodup := by
  apply h.increasing.imp
  intro v w hlt heq
  exact lt_irrefl _ (heq ▸ hlt)

/-- No list of windows with the same values is shorter. -/
theorem length_le (h : Separated windows) (hcover : covered windows = covered others) :
    windows.length ≤ others.length := by
  have hheld : ∀ w ∈ windows, ∃ x ∈ others, w.1 ∈ Set.Ico x.1 x.2 := by
    intro w hw
    exact hcover.subset (h.start_mem hw)
  cases hwindows : windows with
  | nil => exact Nat.zero_le _
  | cons w rest =>
    have : Nonempty (α × α) := ⟨w⟩
    rw [← hwindows]
    -- Each window starts in a window of the other list, and no two in the same one.
    choose! held hmem hin using hheld
    have hnodup : (windows.map held).Nodup := by
      apply h.nodup.map_on
      intro v hv w hw heq
      have hrun : Set.Ico (held v).1 (held v).2 ⊆ covered windows := by
        rw [hcover]
        exact Ico_subset_covered (hmem v hv)
      apply h.eq_of_ordConnected hv hw Set.ordConnected_Ico hrun (hin v hv)
      rw [heq]
      exact hin w hw
    calc windows.length = (windows.map held).length := (List.length_map held).symm
      _ ≤ others.length := by
        apply hnodup.length_le_of_subset
        intro x hx
        obtain ⟨w, hw, rfl⟩ := List.mem_map.mp hx
        exact hmem w hw

/-- A window of one separated list is a window of the other. -/
theorem mem_of_covered_eq (h : Separated windows) (h' : Separated others)
    (hcover : covered windows = covered others) (hw : w ∈ windows) : w ∈ others := by
  obtain ⟨x, hx, hstart, hstop⟩ := hcover.subset (h.start_mem hw)
  obtain ⟨v, hv, hstart', hstop'⟩ := hcover.symm.subset (h'.start_mem hx)
  -- From the start of `v` on, through `x`, everything is covered up to the start of `w`.
  have hrun : Set.Icc v.1 w.1 ⊆ covered windows := by
    intro a ha
    rcases lt_or_ge a v.2 with hlt | hge
    · exact Ico_subset_covered hv ⟨ha.1, hlt⟩
    · rw [hcover]
      exact Ico_subset_covered hx ⟨(hstop'.trans_le hge).le, ha.2.trans_lt hstop⟩
  have hle := hstart'.trans hstart
  have hsame : v = w := by
    apply h.eq_of_ordConnected hv hw Set.ordConnected_Icc hrun
    · exact ⟨le_rfl, hle⟩
    · exact ⟨hle, le_rfl⟩
  have hstarts : w.1 = x.1 := le_antisymm (hsame ▸ hstart') hstart
  -- Neither of the two goes on where the other ends.
  have hends : w.2 = x.2 := by
    apply le_antisymm
    · by_contra hlonger
      apply h'.stop_notMem hx
      rw [← hcover]
      exact Ico_subset_covered hw ⟨hstarts.le.trans (h'.nonempty x hx).le, not_le.mp hlonger⟩
    · by_contra hlonger
      apply h.stop_notMem hw
      rw [hcover]
      exact Ico_subset_covered hx ⟨hstarts.ge.trans (h.nonempty w hw).le, not_le.mp hlonger⟩
  rwa [Prod.ext hstarts hends]

/-- The values decide a separated list of windows. -/
theorem unique (h : Separated windows) (h' : Separated others)
    (hcover : covered windows = covered others) : windows = others := by
  have hperm : windows.Perm others := by
    apply (List.perm_ext_iff_of_nodup h.nodup h'.nodup).mpr
    intro w
    exact ⟨h.mem_of_covered_eq h' hcover, h'.mem_of_covered_eq h hcover.symm⟩
  apply hperm.eq_of_pairwise _ h.increasing h'.increasing
  intro v w _ _ hvw hwv
  exact absurd hwv (lt_asymm hvw)

end Separated

end HalfOpen
