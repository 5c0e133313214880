import Mathlib.Algebra.Order.Group.Int
import Mathlib.Algebra.BigOperators.Group.List.Basic
import Mathlib.Data.Int.ConditionallyCompleteOrder
import Mathlib.Tactic.IntervalCases
import Threadline.PyCalendar

/-!
# Time zones

Dates as day numbers, and instants as numbers of microseconds. A zone has an
offset that changes at finitely many transitions.
-/

namespace PyCalendar

namespace Date

/-! ## Day numbers -/

def daysBeforeYear (year : ℕ) : ℕ :=
  (year - 1) * 365 + (year - 1) / 4 - (year - 1) / 100 + (year - 1) / 400

def daysBeforeMonth (year month : ℕ) : ℕ :=
  ((List.range (month - 1)).map fun i => daysInMonth year (i + 1)).sum

/-- `d.toordinal()`. -/
def ordinal (d : Date) : ℕ := daysBeforeYear d.year + daysBeforeMonth d.year d.month + d.day

theorem div_succ (n k : ℕ) :
    (n + 1) / k = n / k + if (n + 1) % k = 0 then 1 else 0 := by
  rw [Nat.succ_div]
  simp only [Nat.dvd_iff_mod_eq_zero]

theorem daysBeforeYear_succ {year : ℕ} (h : 1 ≤ year) :
    daysBeforeYear (year + 1) = daysBeforeYear year + if isLeap year then 366 else 365 := by
  obtain ⟨p, rfl⟩ : ∃ p, year = p + 1 := ⟨year - 1, by omega⟩
  have hleap : isLeap (p + 1) = true ↔
      (p + 1) % 4 = 0 ∧ ((p + 1) % 100 ≠ 0 ∨ (p + 1) % 400 = 0) := by
    simp [isLeap]
  have h100 : (p + 1) % 100 = 0 → (p + 1) % 4 = 0 := by omega
  have h400 : (p + 1) % 400 = 0 → (p + 1) % 100 = 0 := by omega
  have hcenturies : p / 100 ≤ p / 4 := Nat.div_le_div_left (by norm_num) (by norm_num)
  simp only [hleap, daysBeforeYear, Nat.add_sub_cancel, div_succ p 4, div_succ p 100,
    div_succ p 400]
  generalize p / 4 = fourths at *
  generalize p / 100 = centuries at *
  generalize p / 400 = cycles at *
  generalize (p + 1) % 4 = a at *
  generalize (p + 1) % 100 = b at *
  generalize (p + 1) % 400 = c at *
  split_ifs <;> omega

theorem daysBeforeMonth_succ (year : ℕ) {month : ℕ} (h : 1 ≤ month) :
    daysBeforeMonth year (month + 1) = daysBeforeMonth year month + daysInMonth year month := by
  obtain ⟨m, rfl⟩ : ∃ m, month = m + 1 := ⟨month - 1, by omega⟩
  simp [daysBeforeMonth, List.range_succ]

/-- The months of a year make up its days. -/
theorem daysBeforeMonth_year (year : ℕ) :
    daysBeforeMonth year 13 = if isLeap year then 366 else 365 := by
  cases h : isLeap year <;> simp [daysBeforeMonth, List.range_succ, daysInMonth, h]

theorem daysBeforeMonth_mono (year : ℕ) {month month' : ℕ} (h : 1 ≤ month) (hle : month ≤ month') :
    daysBeforeMonth year month ≤ daysBeforeMonth year month' := by
  induction month', hle using Nat.le_induction with
  | base => exact le_rfl
  | succ m hm ih =>
    rw [daysBeforeMonth_succ year (h.trans hm)]
    omega

theorem daysBeforeYear_mono {year year' : ℕ} (h : 1 ≤ year) (hle : year ≤ year') :
    daysBeforeYear year ≤ daysBeforeYear year' := by
  induction year', hle using Nat.le_induction with
  | base => exact le_rfl
  | succ y hy ih =>
    rw [daysBeforeYear_succ (h.trans hy)]
    omega

variable {d d' : Date}

/-- A day lies within its month. -/
theorem ordinal_le_month (d : Date) :
    d.ordinal ≤ daysBeforeYear d.year + daysBeforeMonth d.year (d.month + 1) := by
  have hday := d.day_le
  rw [daysBeforeMonth_succ d.year d.month_pos, ordinal]
  omega

theorem ordinal_le_year (d : Date) : d.ordinal ≤ daysBeforeYear (d.year + 1) := by
  have hmonth := daysBeforeMonth_mono d.year (Nat.le_add_left 1 d.month)
    (Nat.add_le_add_right d.month_le 1)
  have hday := d.ordinal_le_month
  rw [daysBeforeMonth_year] at hmonth
  rw [daysBeforeYear_succ d.year_pos]
  omega

theorem ordinal_strictMono : StrictMono ordinal := by
  intro a b h
  have hrank : a.rank < b.rank := by
    rcases lt_or_ge a.rank b.rank with hlt | hge
    · exact hlt
    · exact absurd h (not_lt_of_ge (le_iff_rank.mpr hge))
  have ha := a.day_lt
  have hb := b.day_lt
  have ha' := a.month_le
  have hb' := b.month_le
  have hbpos := b.day_pos
  unfold rank at hrank
  rcases Nat.lt_trichotomy a.year b.year with hyear | hyear | hyear
  · -- The whole year of `a` is over.
    have hle := daysBeforeYear_mono (Nat.le_add_left 1 a.year) (Nat.succ_le_of_lt hyear)
    have hyearEnd := a.ordinal_le_year
    rw [ordinal.eq_def b]
    omega
  · rcases Nat.lt_trichotomy a.month b.month with hmonth | hmonth | hmonth
    · have hle := daysBeforeMonth_mono a.year (Nat.le_add_left 1 a.month) (Nat.succ_le_of_lt hmonth)
      have hmonthEnd := a.ordinal_le_month
      rw [ordinal.eq_def b, ← hyear]
      omega
    · rw [ordinal, ordinal, hyear, hmonth]
      omega
    · omega
  · omega

theorem ordinal_injective : Function.Injective ordinal := ordinal_strictMono.injective

theorem ofYmd?_eq_some {year month day : ℕ} (h : ofYmd? year month day = some d) :
    d.year = year ∧ d.month = month ∧ d.day = day := by
  unfold ofYmd? at h
  split_ifs at h
  rw [← Option.some.inj h]
  exact ⟨rfl, rfl, rfl⟩

theorem ordinal_next (h : d.next? = some d') : d'.ordinal = d.ordinal + 1 := by
  have hday := d.day_le
  have hmonth := d.month_le
  unfold next? at h
  split_ifs at h with hin hmid
  · obtain ⟨hy, hm, hd⟩ := ofYmd?_eq_some h
    rw [ordinal, ordinal, hy, hm, hd]
    omega
  · obtain ⟨hy, hm, hd⟩ := ofYmd?_eq_some h
    rw [ordinal, ordinal, hy, hm, hd, daysBeforeMonth_succ d.year d.month_pos]
    omega
  · obtain ⟨hy, hm, hd⟩ := ofYmd?_eq_some h
    have hdecember : d.month = 12 := by omega
    have hyear := daysBeforeMonth_succ d.year d.month_pos
    rw [hdecember, daysBeforeMonth_year] at hyear
    rw [hdecember] at hin hday
    rw [ordinal, ordinal, hy, hm, hd, daysBeforeYear_succ d.year_pos, hdecember]
    have hjanuary : daysBeforeMonth (d.year + 1) 1 = 0 := rfl
    omega

/-- No day lies between a day and the next. -/
theorem next_covBy (h : d.next? = some d') : d ⋖ d' := by
  have hordinal := ordinal_next h
  refine ⟨ordinal_strictMono.lt_iff_lt.mp (by omega), ?_⟩
  intro c hlower hupper
  have hlower' := ordinal_strictMono hlower
  have hupper' := ordinal_strictMono hupper
  omega

theorem ordinal_prev (h : d.prev? = some d') : d'.ordinal + 1 = d.ordinal := by
  have hday := d.day_pos
  have hmonth := d.month_pos
  unfold prev? at h
  split_ifs at h with hin hmid
  · obtain ⟨hy, hm, hd⟩ := ofYmd?_eq_some h
    rw [ordinal, ordinal, hy, hm, hd]
    omega
  · obtain ⟨hy, hm, hd⟩ := ofYmd?_eq_some h
    have hsucc := daysBeforeMonth_succ d.year (Nat.le_sub_one_of_lt hmid)
    rw [Nat.sub_add_cancel hmonth] at hsucc
    rw [ordinal, ordinal, hy, hm, hd, hsucc]
    omega
  · obtain ⟨hy, hm, hd⟩ := ofYmd?_eq_some h
    have hyearPos := d'.year_pos
    have hyear := daysBeforeYear_succ hyearPos
    have hdecember : daysBeforeMonth d'.year 13 =
        daysBeforeMonth d'.year 12 + daysInMonth d'.year 12 :=
      daysBeforeMonth_succ d'.year (by norm_num)
    have hdays : daysInMonth d'.year 12 = 31 := rfl
    rw [daysBeforeMonth_year] at hdecember
    have hjanuary : daysBeforeMonth d.year 1 = 0 := rfl
    have hfirstMonth : d.month = 1 := by omega
    have hsucc : d'.year + 1 = d.year := by omega
    rw [hsucc] at hyear
    rw [ordinal, ordinal.eq_def d, hm, hd, hfirstMonth, hjanuary]
    omega

theorem first_le (d : Date) : first ≤ d := by
  have hyear := d.year_pos
  have hmonth := d.month_pos
  have hday := d.day_pos
  rw [le_iff_rank]
  show (1 * 13 + 1) * 32 + 1 ≤ (d.year * 13 + d.month) * 32 + d.day
  omega

theorem le_last (d : Date) : d ≤ last := by
  have hyear := d.year_le
  have hmonth := d.month_le
  have hday := d.day_lt
  rw [le_iff_rank]
  show (d.year * 13 + d.month) * 32 + d.day ≤ (9999 * 13 + 12) * 32 + 31
  omega

/-- Every day but the first has a previous day. -/
theorem prev?_isSome (h : d ≠ first) : d.prev?.isSome := by
  have hlt : first < d := lt_of_le_of_ne d.first_le h.symm
  have hrank : first.rank < d.rank := by
    rcases lt_or_ge first.rank d.rank with hrank | hrank
    · exact hrank
    · exact absurd hlt (not_lt_of_ge (le_iff_rank.mpr hrank))
  have hfirst : first.rank = 449 := rfl
  have hyear := d.year_pos
  have hyearLe := d.year_le
  have hmonth := d.month_pos
  have hmonthLe := d.month_le
  have hday := d.day_pos
  have hdayLe := d.day_le
  have hprevious := daysInMonth_pos d.year (d.month - 1)
  have hdays : daysInMonth (d.year - 1) 12 = 31 := rfl
  rw [hfirst, rank] at hrank
  unfold prev?
  split_ifs with hin hmid
  · rw [ofYmd?_isSome]
    omega
  · rw [ofYmd?_isSome]
    omega
  · rw [ofYmd?_isSome]
    omega

end Date

/-! ## Microseconds -/

/-- The microseconds of a day. -/
def dayMicros : ℤ := 86400000000

/-- A reading of a local clock: the fields of an aware `datetime` in its own zone. -/
abbrev WallClock := UtcDateTime

namespace UtcDateTime

/-- The microseconds up to an instant, or on a local clock up to a reading. -/
def stamp (t : UtcDateTime) : ℤ := t.date.ordinal * dayMicros + t.micros.val

variable {t t' : UtcDateTime}

theorem stamp_strictMono : StrictMono stamp := by
  intro a b h
  have ha := a.micros.isLt
  have hb := b.micros.isLt
  rcases Prod.Lex.lt_iff.mp (show a.key < b.key from h) with hdate | ⟨hdate, hmicros⟩
  · have hordinal : a.date.ordinal < b.date.ordinal := Date.ordinal_strictMono hdate
    unfold stamp dayMicros
    omega
  · have hordinal : a.date.ordinal = b.date.ordinal := congrArg Date.ordinal hdate
    have hlt : a.micros.val < b.micros.val := hmicros
    unfold stamp dayMicros
    omega

theorem stamp_le_iff : t.stamp ≤ t'.stamp ↔ t ≤ t' := stamp_strictMono.le_iff_le

theorem stamp_lt_iff : t.stamp < t'.stamp ↔ t < t' := stamp_strictMono.lt_iff_lt

theorem stamp_injective : Function.Injective stamp := stamp_strictMono.injective

/-- `t + timedelta(microseconds=offset)` for an offset of less than a day, which overflows outside
the calendar. -/
def addOffset (t : UtcDateTime) (offset : ℤ) : Option UtcDateTime :=
  let micros := t.micros.val + offset
  if micros < 0 then
    t.date.prev?.map fun day => ⟨day, Fin.ofNat _ (micros + dayMicros).toNat⟩
  else if micros < dayMicros then some ⟨t.date, Fin.ofNat _ micros.toNat⟩
  else t.date.next?.map fun day => ⟨day, Fin.ofNat _ (micros - dayMicros).toNat⟩

theorem stamp_mk (day : Date) {m : ℤ} (h : 0 ≤ m) (hlt : m < dayMicros) :
    stamp ⟨day, Fin.ofNat _ m.toNat⟩ = day.ordinal * dayMicros + m := by
  have hday : dayMicros = 86400000000 := rfl
  unfold stamp
  dsimp only
  rw [Fin.val_ofNat, Nat.mod_eq_of_lt (by omega)]
  omega

theorem stamp_of_addOffset {offset : ℤ} (hlower : -dayMicros < offset) (hupper : offset < dayMicros)
    (h : t.addOffset offset = some t') : t'.stamp = t.stamp + offset := by
  have hday : dayMicros = 86400000000 := rfl
  have hmicros := t.micros.isLt
  unfold addOffset at h
  dsimp only at h
  split_ifs at h with hbefore hwithin
  · obtain ⟨day, hprev, rfl⟩ := Option.map_eq_some_iff.mp h
    have hordinal := Date.ordinal_prev hprev
    rw [stamp_mk day (by omega) (by omega), stamp, hday]
    omega
  · rw [← Option.some.inj h, stamp_mk t.date (by omega) hwithin, stamp]
    omega
  · obtain ⟨day, hnext, rfl⟩ := Option.map_eq_some_iff.mp h
    have hordinal := Date.ordinal_next hnext
    rw [stamp_mk day (by omega) (by omega), stamp, hday]
    omega

theorem stamp_range (t : UtcDateTime) : Date.first.ordinal * dayMicros ≤ t.stamp ∧
    t.stamp < (Date.last.ordinal + 1) * dayMicros := by
  have hday : dayMicros = 86400000000 := rfl
  have hmicros := t.micros.isLt
  have hlow := Date.ordinal_strictMono.monotone t.date.first_le
  have hhigh := Date.ordinal_strictMono.monotone t.date.le_last
  rw [stamp, hday]
  omega

/-- The last instant of the calendar. -/
def last : UtcDateTime := ⟨Date.last, Fin.last _⟩

theorem le_last (t : UtcDateTime) : t ≤ last := by
  have hday : dayMicros = 86400000000 := rfl
  have hlast : last.stamp = Date.last.ordinal * dayMicros + 86399999999 := rfl
  have hrange := t.stamp_range.2
  rw [← stamp_le_iff, hlast]
  rw [hday] at hrange ⊢
  omega

theorem exists_addOffset {offset : ℤ} (hlow : Date.first.ordinal * dayMicros ≤ t.stamp + offset)
    (hhigh : t.stamp + offset < (Date.last.ordinal + 1) * dayMicros) :
    ∃ s, t.addOffset offset = some s := by
  have hday : dayMicros = 86400000000 := rfl
  rw [stamp, hday] at hlow hhigh
  unfold addOffset
  dsimp only
  split_ifs with hbefore hwithin
  · have hprev : t.date ≠ Date.first := by
      intro hfirst
      rw [hfirst] at hlow
      omega
    obtain ⟨day, hprev⟩ := Option.isSome_iff_exists.mp (Date.prev?_isSome hprev)
    rw [hprev]
    exact ⟨_, rfl⟩
  · exact ⟨_, rfl⟩
  · have hnext : t.date ≠ Date.last := by
      intro hlast
      rw [hlast] at hhigh
      omega
    obtain ⟨day, hnext⟩ := Option.isSome_iff_exists.mp (Date.next?_isSome.mpr hnext)
    rw [hnext]
    exact ⟨_, rfl⟩

/-- The sum is the instant that lies so many microseconds away, if there is one. -/
theorem addOffset_eq_some {offset : ℤ} (hlower : -dayMicros < offset) (hupper : offset < dayMicros) :
    t.addOffset offset = some t' ↔ t'.stamp = t.stamp + offset := by
  constructor
  · exact stamp_of_addOffset hlower hupper
  · intro h
    have hrange := t'.stamp_range
    rw [h] at hrange
    obtain ⟨s, hs⟩ := exists_addOffset hrange.1 hrange.2
    rw [hs, Option.some.injEq]
    apply stamp_injective
    rw [stamp_of_addOffset hlower hupper hs, h]

end UtcDateTime

/-! ## Zones -/

/-- A change of the offset of a zone, from an instant on. -/
structure Transition where
  instant : ℤ
  offset : ℤ
  deriving DecidableEq

/-- The offset in force at an instant. -/
def offsetAt (offset : ℤ) : List Transition → ℤ → ℤ
  | [], _ => offset
  | change :: rest, t => if change.instant ≤ t then offsetAt change.offset rest t else offset

/-- The offset at a reading of the local clock. A reading that occurs twice is the earlier of the
two, and one that does not occur has the offset before the gap. -/
def offsetAtWall (offset : ℤ) : List Transition → ℤ → ℤ
  | [], _ => offset
  | change :: rest, w =>
    if change.instant + max offset change.offset ≤ w then offsetAtWall change.offset rest w
    else offset

/-- No transition skips or repeats a reading of the local clock. -/
def KeepsWall (w : ℤ) (offset : ℤ) : List Transition → Prop
  | [] => True
  | change :: rest =>
    (w < change.instant + offset ↔ w < change.instant + change.offset) ∧
      KeepsWall w change.offset rest

/-- A `ZoneInfo`: an offset of less than a day, and its changes in order. -/
structure Zone where
  initial : ℤ
  transitions : List Transition
  ordered : transitions.Pairwise fun a b => a.instant < b.instant
  lessThanADay : ∀ offset ∈ initial :: transitions.map Transition.offset,
    -dayMicros < offset ∧ offset < dayMicros

section Offsets

variable {w t offset : ℤ} {changes : List Transition}

theorem offsetAt_mem (offset : ℤ) (changes : List Transition) (t : ℤ) :
    offsetAt offset changes t ∈ offset :: changes.map Transition.offset := by
  induction changes generalizing offset with
  | nil => exact List.mem_cons_self
  | cons change rest ih =>
    unfold offsetAt
    split_ifs
    · exact List.mem_cons_of_mem _ (ih change.offset)
    · exact List.mem_cons_self

theorem offsetAtWall_mem (offset : ℤ) (changes : List Transition) (w : ℤ) :
    offsetAtWall offset changes w ∈ offset :: changes.map Transition.offset := by
  induction changes generalizing offset with
  | nil => exact List.mem_cons_self
  | cons change rest ih =>
    unfold offsetAtWall
    split_ifs
    · exact List.mem_cons_of_mem _ (ih change.offset)
    · exact List.mem_cons_self

theorem offsetAt_of_before (h : ∀ change ∈ changes, t < change.instant) :
    offsetAt offset changes t = offset := by
  cases changes with
  | nil => rfl
  | cons change rest => exact if_neg (not_le_of_gt (h change List.mem_cons_self))

/-- Once the local clock is past a reading that no transition skips or repeats, it stays there. -/
theorem wall_lt_of_passed (hordered : changes.Pairwise fun a b => a.instant < b.instant)
    (hkeeps : KeepsWall w offset changes) {passed : ℤ}
    (hpassed : ∀ change ∈ changes, passed ≤ change.instant) (hle : passed ≤ t)
    (h : w < passed + offset) : w < t + offsetAt offset changes t := by
  induction changes generalizing offset passed with
  | nil =>
    show w < t + offset
    omega
  | cons change rest ih =>
    obtain ⟨hlater, hrest⟩ := List.pairwise_cons.mp hordered
    have hfirst := hpassed change List.mem_cons_self
    unfold offsetAt
    split_ifs with hafter
    · -- The transition does not take the clock back over the reading.
      have hkept := hkeeps.1.mp (by omega)
      exact ih hrest hkeeps.2 (fun later hmem => (hlater later hmem).le) hafter hkept
    · omega

/-- A reading that no transition skips or repeats is reached at the instant that its offset gives. -/
theorem wall_reached_iff (hordered : changes.Pairwise fun a b => a.instant < b.instant)
    (hkeeps : KeepsWall w offset changes) :
    w - offsetAtWall offset changes w ≤ t ↔ w ≤ t + offsetAt offset changes t := by
  induction changes generalizing offset with
  | nil =>
    show w - offset ≤ t ↔ w ≤ t + offset
    omega
  | cons change rest ih =>
    obtain ⟨hlater, hrest⟩ := List.pairwise_cons.mp hordered
    have hkept := hkeeps.1
    have hreached := ih hrest hkeeps.2
    unfold offsetAtWall offsetAt
    by_cases hwall : change.instant + max offset change.offset ≤ w
    · rw [if_pos hwall]
      by_cases hafter : change.instant ≤ t
      · rw [if_pos hafter]
        exact hreached
      · -- Before the transition neither side has reached the reading.
        have hbefore : offsetAt change.offset rest t = change.offset := by
          apply offsetAt_of_before
          intro later hmem
          have hlt := hlater later hmem
          omega
        rw [hbefore] at hreached
        rw [if_neg hafter, hreached]
        omega
    · rw [if_neg hwall]
      by_cases hafter : change.instant ≤ t
      · rw [if_pos hafter]
        have hpassed := wall_lt_of_passed hrest hkeeps.2 (fun later hmem => (hlater later hmem).le)
          hafter (show w < change.instant + change.offset by omega)
        omega
      · rw [if_neg hafter]
        omega

end Offsets

namespace Zone

variable (z : Zone)

/-- `t.astimezone(zone)` of a UTC time. -/
def toLocal (t : UtcDateTime) : Option WallClock :=
  t.addOffset (offsetAt z.initial z.transitions t.stamp)

/-- `w.astimezone(timezone.utc)` of a local time that is not marked as the second of two. -/
def toUtc (w : WallClock) : Option UtcDateTime :=
  w.addOffset (-offsetAtWall z.initial z.transitions w.stamp)

/-- No transition skips or repeats a reading. -/
def Keeps (w : WallClock) : Prop := KeepsWall w.stamp z.initial z.transitions

variable {z} {t : UtcDateTime} {w : WallClock}

theorem toLocal_eq_some : z.toLocal t = some w ↔
    w.stamp = t.stamp + offsetAt z.initial z.transitions t.stamp := by
  obtain ⟨hlower, hupper⟩ := z.lessThanADay _ (offsetAt_mem z.initial z.transitions t.stamp)
  exact UtcDateTime.addOffset_eq_some hlower hupper

theorem toUtc_eq_some : z.toUtc w = some t ↔
    t.stamp = w.stamp - offsetAtWall z.initial z.transitions w.stamp := by
  obtain ⟨hlower, hupper⟩ := z.lessThanADay _ (offsetAtWall_mem z.initial z.transitions w.stamp)
  rw [toUtc, UtcDateTime.addOffset_eq_some (by omega) (by omega), sub_eq_add_neg]

/-- An instant is not before the UTC time of a kept reading exactly when its local time is not
before the reading. -/
theorem toUtc_le_iff (hkeeps : z.Keeps w) {start : UtcDateTime} (hstart : z.toUtc w = some start) :
    start ≤ t ↔ w.stamp ≤ t.stamp + offsetAt z.initial z.transitions t.stamp := by
  rw [← UtcDateTime.stamp_le_iff, toUtc_eq_some.mp hstart]
  exact wall_reached_iff z.ordered hkeeps

end Zone

end PyCalendar
