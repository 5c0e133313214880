import Threadline.PyTimeZone

/-!
# Business days

The business date of an instant, and the UTC bounds of a business day. In a zone
that neither skips nor repeats a midnight the two agree.
-/

open PyCalendar

namespace Threadline

def midnight (day : Date) : WallClock := ⟨day, 0⟩

section

variable (zone : Zone)

/-- `business_date_from_timestamp`, which overflows outside the calendar. -/
def businessDateFromTimestamp (value : UtcDateTime) : Option Date :=
  (zone.toLocal value).map UtcDateTime.date

/-- `business_day_utc_bounds`. Both local midnights are converted separately. -/
def businessDayUtcBounds (day : Date) : Option (UtcDateTime × UtcDateTime) := do
  let nextDay ← day.next?
  let start ← zone.toUtc (midnight day)
  let stop ← zone.toUtc (midnight nextDay)
  some (start, stop)

/-- No transition skips or repeats a midnight. -/
def KeepsMidnights : Prop := ∀ day, zone.Keeps (midnight day)

/-- The offset at the midnight that starts a day. -/
def midnightOffset (day : Date) : ℤ :=
  offsetAtWall zone.initial zone.transitions (midnight day).stamp

/-- A day has bounds unless it is the last one, or its midnight precedes the calendar in UTC. -/
def HasBounds (day : Date) : Prop :=
  day ≠ Date.last ∧ (day = Date.first → midnightOffset zone day ≤ 0)

/-- How the business dates of instants and the bounds of business days fit together. -/
structure BusinessDays : Prop where
  bounded : ∀ day, (∃ bounds, businessDayUtcBounds zone day = some bounds) ↔ HasBounds zone day
  mem_iff : ∀ day start stop, businessDayUtcBounds zone day = some (start, stop) →
    ∀ t, businessDateFromTimestamp zone t = some day ↔ start ≤ t ∧ t < stop
  adjacent : ∀ day nextDay bounds nextBounds, day.next? = some nextDay →
    businessDayUtcBounds zone day = some bounds →
    businessDayUtcBounds zone nextDay = some nextBounds → bounds.2 = nextBounds.1
  disjoint : ∀ day day' bounds bounds', businessDayUtcBounds zone day = some bounds →
    businessDayUtcBounds zone day' = some bounds' →
    ∀ t, bounds.1 ≤ t → t < bounds.2 → bounds'.1 ≤ t → t < bounds'.2 → day = day'
  covering : ∀ day day' bounds bounds', businessDayUtcBounds zone day = some bounds →
    businessDayUtcBounds zone day' = some bounds' → ∀ t, bounds.1 ≤ t → t < bounds'.2 →
    ∃ d b, day ≤ d ∧ d ≤ day' ∧ businessDayUtcBounds zone d = some b ∧ b.1 ≤ t ∧ t < b.2

end

variable {zone : Zone}

theorem stamp_midnight (day : Date) : (midnight day).stamp = day.ordinal * dayMicros := by
  show (day.ordinal : ℤ) * dayMicros + (0 : ℕ) = _
  omega

/-- The local time of an instant lies between the midnights of its business date. -/
theorem businessDate_eq_some {t : UtcDateTime} {day : Date} :
    businessDateFromTimestamp zone t = some day ↔
      (midnight day).stamp ≤ t.stamp + offsetAt zone.initial zone.transitions t.stamp ∧
        t.stamp + offsetAt zone.initial zone.transitions t.stamp <
          (midnight day).stamp + dayMicros := by
  have hday : dayMicros = 86400000000 := rfl
  rw [stamp_midnight]
  constructor
  · intro h
    obtain ⟨w, hw, hdate⟩ := Option.map_eq_some_iff.mp h
    have hmicros := w.micros.isLt
    rw [← Zone.toLocal_eq_some.mp hw, UtcDateTime.stamp, hdate]
    omega
  · rintro ⟨hlower, hupper⟩
    -- The reading of the day that is as far from its midnight.
    generalize hlocal : t.stamp + offsetAt zone.initial zone.transitions t.stamp = clock at *
    have hw : zone.toLocal t =
        some ⟨day, Fin.ofNat _ (clock - day.ordinal * dayMicros).toNat⟩ := by
      rw [Zone.toLocal_eq_some, UtcDateTime.stamp_mk day (by omega) (by omega), hlocal]
      omega
    rw [businessDateFromTimestamp, hw]
    rfl

theorem bounds_eq_some {day : Date} {bounds : UtcDateTime × UtcDateTime} :
    businessDayUtcBounds zone day = some bounds ↔ ∃ nextDay, day.next? = some nextDay ∧
      zone.toUtc (midnight day) = some bounds.1 ∧ zone.toUtc (midnight nextDay) = some bounds.2 := by
  obtain ⟨start, stop⟩ := bounds
  simp [businessDayUtcBounds, Option.bind_eq_some_iff]

/-- The UTC time of a midnight is in the calendar, except that of the first day in a zone ahead. -/
theorem exists_toUtc_midnight {day : Date} : (∃ start, zone.toUtc (midnight day) = some start) ↔
    (day = Date.first → midnightOffset zone day ≤ 0) := by
  have hday : dayMicros = 86400000000 := rfl
  obtain ⟨hlower, hupper⟩ := zone.lessThanADay _
    (offsetAtWall_mem zone.initial zone.transitions (midnight day).stamp)
  have hlow := Date.ordinal_strictMono.monotone day.first_le
  have hhigh := Date.ordinal_strictMono.monotone day.le_last
  have hstamp := stamp_midnight day
  unfold midnightOffset
  constructor
  · intro ⟨start, hstart⟩ hfirst
    have hrange := start.stamp_range.1
    rw [Zone.toUtc_eq_some.mp hstart] at hrange
    generalize offsetAtWall zone.initial zone.transitions (midnight day).stamp = offset at *
    rw [hstamp, hfirst] at hrange
    omega
  · intro hahead
    unfold Zone.toUtc
    generalize offsetAtWall zone.initial zone.transitions (midnight day).stamp = offset at *
    rw [hday] at hlower hupper hstamp
    apply UtcDateTime.exists_addOffset
    · rw [hday]
      by_cases hfirst : day = Date.first
      · have hle := hahead hfirst
        rw [hfirst] at hstamp ⊢
        omega
      · have hlt : Date.first.ordinal < day.ordinal :=
          Date.ordinal_strictMono (lt_of_le_of_ne day.first_le (Ne.symm hfirst))
        omega
    · rw [hday]
      omega

theorem stamp_midnight_next {day nextDay : Date} (h : day.next? = some nextDay) :
    (midnight nextDay).stamp = (midnight day).stamp + dayMicros := by
  rw [stamp_midnight, stamp_midnight, Date.ordinal_next h, Nat.cast_add, Nat.cast_one, add_mul,
    one_mul]

theorem exists_bounds_iff {day : Date} :
    (∃ bounds, businessDayUtcBounds zone day = some bounds) ↔ HasBounds zone day := by
  constructor
  · intro ⟨bounds, hbounds⟩
    obtain ⟨nextDay, hnext, hstart, -⟩ := bounds_eq_some.mp hbounds
    refine ⟨Date.next?_isSome.mp ?_, exists_toUtc_midnight.mp ⟨_, hstart⟩⟩
    rw [hnext]
    rfl
  · intro ⟨hlast, hfirst⟩
    obtain ⟨nextDay, hnext⟩ := Option.isSome_iff_exists.mp (Date.next?_isSome.mpr hlast)
    obtain ⟨start, hstart⟩ := exists_toUtc_midnight.mpr hfirst
    -- The next day is not the first, so its midnight is in the calendar.
    have hstop : nextDay = Date.first → midnightOffset zone nextDay ≤ 0 := by
      intro hnextFirst
      have hordinal := Date.ordinal_next hnext
      have hlow := Date.ordinal_strictMono.monotone day.first_le
      rw [hnextFirst] at hordinal
      omega
    obtain ⟨stop, hstop⟩ := exists_toUtc_midnight.mpr hstop
    exact ⟨(start, stop), bounds_eq_some.mpr ⟨nextDay, hnext, hstart, hstop⟩⟩

section

variable (hkeeps : KeepsMidnights zone)
include hkeeps

/-- An instant has a business date exactly when it lies within the bounds of that day. -/
theorem businessDate_iff_bounds {day : Date} {start stop t : UtcDateTime}
    (hbounds : businessDayUtcBounds zone day = some (start, stop)) :
    businessDateFromTimestamp zone t = some day ↔ start ≤ t ∧ t < stop := by
  obtain ⟨nextDay, hnext, hstart, hstop⟩ := bounds_eq_some.mp hbounds
  rw [businessDate_eq_some, Zone.toUtc_le_iff (hkeeps day) hstart, ← not_le (a := stop),
    Zone.toUtc_le_iff (hkeeps nextDay) hstop, stamp_midnight_next hnext, not_le]

theorem covering_bounds {day day' : Date} {bounds bounds' : UtcDateTime × UtcDateTime}
    (hbounds : businessDayUtcBounds zone day = some bounds)
    (hbounds' : businessDayUtcBounds zone day' = some bounds') {t : UtcDateTime}
    (hstart : bounds.1 ≤ t) (hstop : t < bounds'.2) :
    ∃ d b, day ≤ d ∧ d ≤ day' ∧ businessDayUtcBounds zone d = some b ∧ b.1 ≤ t ∧ t < b.2 := by
  have hday : dayMicros = 86400000000 := rfl
  obtain ⟨-, -, hfirst, -⟩ := bounds_eq_some.mp hbounds
  obtain ⟨nextDay, hnext, -, hlast⟩ := bounds_eq_some.mp hbounds'
  have hlower := (Zone.toUtc_le_iff (hkeeps day) hfirst).mp hstart
  have hupper := mt (Zone.toUtc_le_iff (hkeeps nextDay) hlast).mpr (not_le_of_gt hstop)
  rw [stamp_midnight_next hnext, not_le] at hupper
  have hlow := Date.ordinal_strictMono.monotone day.first_le
  have hhigh := Date.ordinal_strictMono.monotone day'.le_last
  rw [stamp_midnight, hday] at hlower hupper
  -- The local time of the instant is in the calendar, and so it has a business date.
  obtain ⟨w, hw⟩ : ∃ w, zone.toLocal t = some w := by
    apply UtcDateTime.exists_addOffset
    · rw [hday]
      omega
    · rw [hday]
      omega
  have hdate : businessDateFromTimestamp zone t = some w.date := by
    rw [businessDateFromTimestamp, hw]
    rfl
  have hwithin := businessDate_eq_some.mp hdate
  rw [stamp_midnight, hday] at hwithin
  have hle : day ≤ w.date := Date.ordinal_strictMono.le_iff_le.mp (by omega)
  have hle' : w.date ≤ day' := Date.ordinal_strictMono.le_iff_le.mp (by omega)
  obtain ⟨hnotLast, hahead⟩ := exists_bounds_iff.mp ⟨bounds, hbounds⟩
  have hhas : HasBounds zone w.date := by
    constructor
    · intro hlastDay
      have heq : day' = Date.last := le_antisymm day'.le_last (hlastDay ▸ hle')
      exact (exists_bounds_iff.mp ⟨bounds', hbounds'⟩).1 heq
    · intro hfirstDay
      have heq : day = Date.first := le_antisymm (hfirstDay ▸ hle) day.first_le
      rw [hfirstDay, ← heq]
      exact hahead heq
  obtain ⟨b, hb⟩ := exists_bounds_iff.mpr hhas
  obtain ⟨hbStart, hbStop⟩ := (businessDate_iff_bounds hkeeps hb).mp hdate
  exact ⟨w.date, b, hle, hle', hb, hbStart, hbStop⟩

end

/-- Business days partition time, wherever a day has bounds. -/
theorem business_days_partition (zone : Zone) (hkeeps : KeepsMidnights zone) :
    BusinessDays zone where
  bounded := fun day => exists_bounds_iff
  mem_iff := fun day start stop hbounds t => businessDate_iff_bounds hkeeps hbounds
  adjacent := by
    intro day nextDay bounds nextBounds hnext hbounds hnextBounds
    obtain ⟨found, hfound, -, hstop⟩ := bounds_eq_some.mp hbounds
    obtain ⟨-, -, hstart, -⟩ := bounds_eq_some.mp hnextBounds
    rw [Option.some.inj (hfound.symm.trans hnext)] at hstop
    exact Option.some.inj (hstop.symm.trans hstart)
  disjoint := by
    intro day day' bounds bounds' hbounds hbounds' t hstart hstop hstart' hstop'
    have hdate := (businessDate_iff_bounds hkeeps hbounds).mpr ⟨hstart, hstop⟩
    have hdate' := (businessDate_iff_bounds hkeeps hbounds').mpr ⟨hstart', hstop'⟩
    exact Option.some.inj (hdate.symm.trans hdate')
  covering := fun day day' bounds bounds' hbounds hbounds' t hstart hstop =>
    covering_bounds hkeeps hbounds hbounds' hstart hstop

/-- A zone that is one hour ahead. -/
def oneHourAhead : Zone where
  initial := 3600000000
  transitions := []
  ordered := List.Pairwise.nil
  lessThanADay := by decide

/-- In a zone ahead of UTC the first day has instants, but its start precedes the calendar. -/
theorem first_day_unbounded : ¬ ∀ zone, KeepsMidnights zone → ∀ day, day ≠ Date.last →
    ∃ start stop, businessDayUtcBounds zone day = some (start, stop) ∧
      ∀ t, businessDateFromTimestamp zone t = some day ↔ start ≤ t ∧ t < stop := by
  intro h
  obtain ⟨start, stop, hbounds, -⟩ := h oneHourAhead (fun day => trivial) Date.first (by decide)
  have hnone : businessDayUtcBounds oneHourAhead Date.first = none := by decide
  rw [hnone] at hbounds
  cases hbounds

namespace Berlin2026

def march29 : Date := (Date.ofYmd? 2026 3 29).get rfl

def october25 : Date := (Date.ofYmd? 2026 10 25).get rfl

/-- So many hours of a day, in UTC. -/
def hour (day : Date) (n : Fin 24) : UtcDateTime := ⟨day, ⟨n.val * 3600000000, by omega⟩⟩

/-- Berlin in 2026: one hour ahead of UTC, and two hours in summer. -/
def berlin : Zone where
  initial := 3600000000
  transitions := [⟨(hour march29 1).stamp, 7200000000⟩, ⟨(hour october25 1).stamp, 3600000000⟩]
  ordered := by decide
  lessThanADay := by decide

theorem keepsMidnights : KeepsMidnights berlin := by
  intro day
  have hspring : (hour march29 1).stamp = 739704 * 86400000000 + 3600000000 := by decide
  have hautumn : (hour october25 1).stamp = 739914 * 86400000000 + 3600000000 := by decide
  show KeepsWall (midnight day).stamp 3600000000 [⟨(hour march29 1).stamp, 7200000000⟩,
    ⟨(hour october25 1).stamp, 3600000000⟩]
  rw [stamp_midnight, hspring, hautumn]
  unfold dayMicros
  refine ⟨?_, ?_, trivial⟩
  · dsimp only
    omega
  · dsimp only
    omega

theorem berlin_business_days : BusinessDays berlin := business_days_partition berlin keepsMidnights

/-- The day on which summer time starts has 23 hours. -/
example : businessDayUtcBounds berlin march29 =
    some (hour ⟨2026, 3, 28, by decide, by decide, by decide, by decide, by decide, by decide⟩ 23,
      hour march29 22) := by
  decide

end Berlin2026

end Threadline
