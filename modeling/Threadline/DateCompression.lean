import Mathlib.Order.Cover
import Threadline.AffectedWindows
import Threadline.HalfOpen
import Threadline.PyTimeZone
import Threadline.TransactionRules

/-!
# Date compression

The windows of a set of days are its runs of consecutive days. They are the
fewest windows that cover it. The last representable day is in no window, because
the end of a window is a date, too.
-/

open PyCalendar PySorted

namespace Threadline

namespace DateWindow

def bounds (w : DateWindow) : Date × Date := (w.startDate, w.endDateExclusive)

theorem bounds_injective : Function.Injective bounds := by
  intro v w h
  obtain ⟨hstart, hstop⟩ := Prod.mk.inj h
  cases v
  cases w
  exact congrArg₂ DateWindow.mk hstart hstop

def days (w : DateWindow) : Set Date := {d | w.startDate ≤ d ∧ d < w.endDateExclusive}

/-- The days of a list of windows. -/
def union (windows : List DateWindow) : Set Date := {d | ∃ w ∈ windows, d ∈ w.days}

theorem covered_bounds (windows : List DateWindow) :
    HalfOpen.covered (windows.map bounds) = union windows := by
  ext d
  constructor
  · intro ⟨_, hmem, hd⟩
    obtain ⟨w, hw, rfl⟩ := List.mem_map.mp hmem
    exact ⟨w, hw, hd⟩
  · intro ⟨w, hw, hd⟩
    exact ⟨w.bounds, List.mem_map_of_mem hw, hd⟩

theorem nonempty_iff {w : DateWindow} : w.days.Nonempty ↔ w.startDate < w.endDateExclusive := by
  constructor
  · intro ⟨d, hstart, hstop⟩
    exact hstart.trans_lt hstop
  · intro hlt
    exact ⟨w.startDate, le_rfl, hlt⟩

/-- A half-open window ends before the last representable day. -/
theorem last_notMem (windows : List DateWindow) : Date.last ∉ union windows := by
  intro ⟨w, _, _, hstop⟩
  exact absurd w.endDateExclusive.le_last (not_le_of_gt hstop)

end DateWindow

/-- The windows of a set of days: increasing, not empty, disjoint and not adjacent, with exactly
these days, and as few as possible. -/
structure Compression (days : List Date) (windows : List DateWindow) : Prop where
  increasing : windows.Pairwise fun v w => v.startDate < w.startDate
  nonempty : ∀ w ∈ windows, w.days.Nonempty
  disjoint : windows.Pairwise fun v w => ∀ d ∈ v.days, d ∉ w.days
  notAdjacent : windows.Pairwise fun v w => v.endDateExclusive ≠ w.startDate
  covers : DateWindow.union windows = {d | d ∈ days}
  minimal : ∀ others, DateWindow.union others = {d | d ∈ days} → windows.length ≤ others.length

theorem compression_iff {days : List Date} {windows : List DateWindow} :
    Compression days windows ↔ HalfOpen.Separated (windows.map DateWindow.bounds) ∧
      DateWindow.union windows = {d | d ∈ days} := by
  constructor
  · intro h
    refine ⟨⟨?_, List.pairwise_map.mpr ?_⟩, h.covers⟩
    · intro bounds hbounds
      obtain ⟨w, hw, rfl⟩ := List.mem_map.mp hbounds
      exact DateWindow.nonempty_iff.mp (h.nonempty w hw)
    · apply (h.increasing.and (h.disjoint.and h.notAdjacent)).imp_of_mem
      intro v w _ hw hvw
      obtain ⟨hlt, hdisjoint, hne⟩ := hvw
      apply lt_of_le_of_ne _ hne
      by_contra hlonger
      -- The start of the later window would be a day of both.
      have hstart := DateWindow.nonempty_iff.mp (h.nonempty w hw)
      exact hdisjoint w.startDate ⟨hlt.le, not_le.mp hlonger⟩ ⟨le_rfl, hstart⟩
  · intro ⟨hseparated, hcovers⟩
    have hincreasing := hseparated.increasing
    have hgaps := hseparated.gaps
    rw [List.pairwise_map] at hincreasing hgaps
    constructor
    · exact hincreasing
    · intro w hw
      exact DateWindow.nonempty_iff.mpr (hseparated.nonempty w.bounds (List.mem_map_of_mem hw))
    · apply hgaps.imp
      intro v w hgap d hv hw
      exact lt_asymm hgap (hw.1.trans_lt hv.2)
    · apply hgaps.imp
      intro v w hgap
      exact ne_of_lt hgap
    · exact hcovers
    · intro others hothers
      have hcovered : HalfOpen.covered (windows.map DateWindow.bounds) =
          HalfOpen.covered (others.map DateWindow.bounds) := by
        rw [DateWindow.covered_bounds, DateWindow.covered_bounds, hcovers, hothers]
      simpa using hseparated.length_le hcovered

/-- The days have no other windows. -/
theorem Compression.unique {days : List Date} {windows windows' : List DateWindow}
    (h : Compression days windows) (h' : Compression days windows') : windows = windows' := by
  obtain ⟨hseparated, hcovers⟩ := compression_iff.mp h
  obtain ⟨hseparated', hcovers'⟩ := compression_iff.mp h'
  apply List.map_injective_iff.mpr DateWindow.bounds_injective
  apply hseparated.unique hseparated'
  rw [DateWindow.covered_bounds, DateWindow.covered_bounds, hcovers, hcovers']

/-! ## The loop -/

theorem dayAfter_eq_ok {d next : Date} : dayAfter d = .ok next ↔ d.next? = some next := by
  unfold dayAfter
  cases d.next? <;> simp

theorem exists_dayAfter {d : Date} (h : d ≠ Date.last) : ∃ next, dayAfter d = .ok next := by
  obtain ⟨next, hnext⟩ := Option.isSome_iff_exists.mp (Date.next?_isSome.mpr h)
  exact ⟨next, dayAfter_eq_ok.mpr hnext⟩

theorem dayAfter_last : dayAfter Date.last = .error .dateOverflow := by decide

section

variable {start previous : Date} {rest : List Date}

/-- A run and the days behind it, with the last day of the run counted to either of them. -/
theorem Ico_next_union {next : Date} (hrun : start ≤ previous) (h : previous.next? = some next) :
    Set.Ico start next ∪ {d | d ∈ rest} = Set.Ico start previous ∪ {d | d ∈ previous :: rest} := by
  have hcovers := Date.next_covBy h
  have hnext : Set.Ico start next = insert previous (Set.Ico start previous) := by
    ext d
    constructor
    · intro ⟨hstart, hstop⟩
      exact (hcovers.le_of_lt hstop).eq_or_lt.imp_right fun hlt => ⟨hstart, hlt⟩
    · rintro (rfl | ⟨hstart, hstop⟩)
      · exact ⟨hrun, hcovers.lt⟩
      · exact ⟨hstart, hstop.trans hcovers.lt⟩
  rw [hnext, Set.insert_union, List.setOfPred_mem_cons, Set.union_insert]

/-- The open run from `start` to `previous` and the days behind it become separated windows. -/
theorem compressFrom_separated {windows : List DateWindow} (hrun : start ≤ previous)
    (hordered : (previous :: rest).Pairwise (· < ·))
    (h : compressFrom start previous rest = .ok windows) :
    HalfOpen.Separated (windows.map DateWindow.bounds) ∧
      DateWindow.union windows = Set.Ico start previous ∪ {d | d ∈ previous :: rest} := by
  rw [← DateWindow.covered_bounds]
  induction rest generalizing start previous windows with
  | nil =>
    obtain ⟨next, hnext, h⟩ := PyExcept.bind_eq_ok.mp h
    have hnext := dayAfter_eq_ok.mp hnext
    rw [← Except.ok.inj h, ← Ico_next_union hrun hnext]
    constructor
    · apply HalfOpen.Separated.nil.cons
      · exact hrun.trans_lt (Date.next_covBy hnext).lt
      · simp
    · simp [DateWindow.bounds]
  | cons current rest ih =>
    obtain ⟨hlater, hordered⟩ := List.pairwise_cons.mp hordered
    have hcurrent := hlater current List.mem_cons_self
    obtain ⟨next, hnext, h⟩ := PyExcept.bind_eq_ok.mp h
    have hnext := dayAfter_eq_ok.mp hnext
    rw [← Ico_next_union hrun hnext]
    split_ifs at h with hgap
    · -- The run is closed at `next`, which no later day is.
      have hnextLt : next < current := by
        apply lt_of_le_of_ne _ (Ne.symm hgap)
        by_contra hlt
        exact (Date.next_covBy hnext).2 hcurrent (not_le.mp hlt)
      obtain ⟨tail, htail, h⟩ := PyExcept.bind_eq_ok.mp h
      obtain ⟨hseparated, hcovered⟩ := ih le_rfl hordered htail
      rw [Set.Ico_self, Set.empty_union] at hcovered
      rw [← Except.ok.inj h]
      constructor
      · apply hseparated.cons
        · exact hrun.trans_lt (Date.next_covBy hnext).lt
        · rw [hcovered]
          intro d hd
          rcases List.mem_cons.mp hd with rfl | hd
          · exact hnextLt
          · exact hnextLt.trans (List.rel_of_pairwise_cons hordered hd)
      · rw [List.map_cons, HalfOpen.covered_cons, hcovered]
        rfl
    · have hsame : current = next := not_not.mp hgap
      rw [← hsame]
      exact ih (hrun.trans hcurrent.le) hordered h

theorem exists_compressFrom (hordered : (previous :: rest).Pairwise (· < ·))
    (hlast : Date.last ∉ previous :: rest) :
    ∃ windows, compressFrom start previous rest = .ok windows := by
  induction rest generalizing start previous with
  | nil =>
    obtain ⟨next, hnext⟩ := exists_dayAfter fun heq => hlast (heq ▸ List.mem_cons_self)
    exact ⟨[⟨start, next⟩], PyExcept.bind_eq_ok.mpr ⟨next, hnext, rfl⟩⟩
  | cons current rest ih =>
    have hordered := (List.pairwise_cons.mp hordered).2
    obtain ⟨next, hnext⟩ := exists_dayAfter fun heq => hlast (heq ▸ List.mem_cons_self)
    have hlast : Date.last ∉ current :: rest := fun hmem => hlast (List.mem_cons_of_mem _ hmem)
    rw [compressFrom, hnext]
    by_cases hgap : current = next
    · obtain ⟨windows, hwindows⟩ := @ih start current hordered hlast
      exact ⟨windows, by simpa [hgap, bind, Except.bind] using hwindows⟩
    · obtain ⟨windows, hwindows⟩ := @ih current current hordered hlast
      exact ⟨⟨start, next⟩ :: windows, by simp [hgap, hwindows, bind, Except.bind]⟩

/-- The run of the last representable day cannot be closed. -/
theorem compressFrom_overflows (hordered : (previous :: rest).Pairwise (· < ·))
    (hlast : Date.last ∈ previous :: rest) :
    compressFrom start previous rest = .error .dateOverflow := by
  induction rest generalizing start previous with
  | nil =>
    rw [compressFrom, ← List.mem_singleton.mp hlast, dayAfter_last]
    rfl
  | cons current rest ih =>
    obtain ⟨hlater, hordered⟩ := List.pairwise_cons.mp hordered
    have hbefore : previous < Date.last :=
      (hlater current List.mem_cons_self).trans_le current.le_last
    obtain ⟨next, hnext⟩ := exists_dayAfter (ne_of_lt hbefore)
    have hlast := (List.mem_cons.mp hlast).resolve_left (ne_of_gt hbefore)
    rw [compressFrom, hnext]
    by_cases hgap : current = next
    · simpa [hgap, bind, Except.bind] using @ih start current hordered hlast
    · simp [hgap, @ih current current hordered hlast, bind, Except.bind]

end

/-! ## The windows of a plan -/

variable {days : List Date} {windows : List DateWindow}

theorem compression_of_compressDates (h : compressDates days = .ok windows) :
    Compression days windows := by
  apply compression_iff.mpr
  have hmem : ∀ d, d ∈ sortedSet days ↔ d ∈ days := fun d => mem_sortedSet
  have hordered := sortedSet_pairwise days
  unfold compressDates at h
  cases hdays : sortedSet days with
  | nil =>
    rw [hdays] at h
    rw [← Except.ok.inj h, sortedSet_eq_nil.mp hdays]
    refine ⟨HalfOpen.Separated.nil, ?_⟩
    ext d
    simp [DateWindow.union]
  | cons start rest =>
    rw [hdays] at h hordered hmem
    obtain ⟨hseparated, hunion⟩ := compressFrom_separated le_rfl hordered h
    refine ⟨hseparated, ?_⟩
    rw [hunion, Set.Ico_self, Set.empty_union]
    ext d
    exact hmem d

theorem exists_compressDates (hlast : Date.last ∉ days) :
    ∃ windows, compressDates days = .ok windows := by
  have hordered := sortedSet_pairwise days
  have hlast := mt mem_sortedSet.mp hlast
  unfold compressDates
  cases hdays : sortedSet days with
  | nil => exact ⟨[], rfl⟩
  | cons start rest =>
    rw [hdays] at hordered hlast
    exact exists_compressFrom hordered hlast

theorem compressDates_overflows (hlast : Date.last ∈ days) :
    compressDates days = .error .dateOverflow := by
  have hordered := sortedSet_pairwise days
  have hlast := mem_sortedSet.mpr hlast
  unfold compressDates
  cases hdays : sortedSet days with
  | nil =>
    rw [hdays] at hlast
    exact absurd hlast List.not_mem_nil
  | cons start rest =>
    rw [hdays] at hordered hlast
    exact compressFrom_overflows hordered hlast

/-- The windows that `compressDates` returns are the only ones that compress the days. -/
theorem compressDates_eq_ok : compressDates days = .ok windows ↔ Compression days windows := by
  constructor
  · exact compression_of_compressDates
  · intro h
    have hlast : Date.last ∉ days := fun hmem => DateWindow.last_notMem windows (h.covers ▸ hmem)
    obtain ⟨windows', hwindows'⟩ := exists_compressDates hlast
    rw [hwindows', (compression_of_compressDates hwindows').unique h]

/-- The payout windows of a plan compress its payout dates. -/
theorem payoutWindows_compression {before after changed : List FinancialRecord}
    {changeKind : ChangeKind} {canonicalChanged completenessChanged : Bool}
    {plan : AffectedWindowPlan} (h : planAffectedWindows before after changed changeKind
      canonicalChanged completenessChanged = .ok plan) :
    Compression plan.payoutDates plan.payoutWindows := by
  have hnone : Compression [] [] := compressDates_eq_ok.mp rfl
  unfold planAffectedWindows at h
  split_ifs at h
  · rw [← Except.ok.inj h]
    exact hnone
  · rw [← Except.ok.inj h]
    exact hnone
  · rw [← Except.ok.inj h]
    exact hnone
  · obtain ⟨g, -, h⟩ := PyExcept.bind_eq_ok.mp h
    obtain ⟨keys, -, h⟩ := PyExcept.bind_eq_ok.mp h
    obtain ⟨payoutWindows, hwindows, h⟩ := PyExcept.bind_eq_ok.mp h
    rw [← Except.ok.inj h]
    exact compressDates_eq_ok.mp hwindows

/-- Date compression is exact for all days before the last representable one. That day is in no
half-open window, and a set of days that has it cannot be compressed. -/
theorem date_compression_exact (days : List Date) :
    (Date.last ∉ days →
      ∃ windows, compressDates days = .ok windows ∧ Compression days windows) ∧
    (Date.last ∈ days → compressDates days = .error .dateOverflow ∧
      ∀ windows, DateWindow.union windows ≠ {d | d ∈ days}) := by
  constructor
  · intro hlast
    obtain ⟨windows, hwindows⟩ := exists_compressDates hlast
    exact ⟨windows, hwindows, compression_of_compressDates hwindows⟩
  · intro hlast
    refine ⟨compressDates_overflows hlast, ?_⟩
    intro windows hunion
    exact DateWindow.last_notMem windows (hunion ▸ hlast)

/-- The last representable day alone already has no windows. -/
theorem last_day_not_compressed : ¬ ∀ days, ∃ windows, compressDates days = .ok windows ∧
    Compression days windows := by
  intro h
  obtain ⟨windows, hwindows, -⟩ := h [Date.last]
  rw [compressDates_overflows List.mem_cons_self] at hwindows
  cases hwindows

namespace PaidDay

/-- Days out of order and repeated, with a gap, and a set of days with the last one. -/
theorem september_compressed :
    (∃ windows, compressDates [september 20 rfl, september 15 rfl, september 14 rfl,
        september 15 rfl] = .ok windows ∧
      Compression [september 20 rfl, september 15 rfl, september 14 rfl, september 15 rfl]
        windows) ∧
    compressDates [Date.last, september 14 rfl] = .error .dateOverflow := by
  constructor
  · apply (date_compression_exact _).1
    decide +kernel
  · exact ((date_compression_exact _).2 List.mem_cons_self).1

example : compressDates [september 20 rfl, september 15 rfl, september 14 rfl, september 15 rfl] =
    .ok [⟨september 14 rfl, september 16 rfl⟩, ⟨september 20 rfl, september 21 rfl⟩] := by
  decide +kernel

end PaidDay

end Threadline
