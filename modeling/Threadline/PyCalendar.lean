import Threadline.PyText
import Mathlib.Data.Prod.Lex

/-!
# Dates and UTC timestamps

Python dates run from year 1 to year 9999. An aware `datetime` is kept as the
instant it denotes: its UTC date and the microseconds since UTC midnight.
-/

open PyText

namespace PyCalendar

def isLeap (year : ℕ) : Bool := year % 4 = 0 && (year % 100 ≠ 0 || year % 400 = 0)

def daysInMonth (year month : ℕ) : ℕ :=
  if month = 2 then if isLeap year then 29 else 28
  else if month = 4 ∨ month = 6 ∨ month = 9 ∨ month = 11 then 30 else 31

theorem daysInMonth_le (year month : ℕ) : daysInMonth year month ≤ 31 := by
  unfold daysInMonth
  split_ifs <;> omega

theorem daysInMonth_pos (year month : ℕ) : 28 ≤ daysInMonth year month := by
  unfold daysInMonth
  split_ifs <;> omega

/-- A `datetime.date`. -/
structure Date where
  year : ℕ
  month : ℕ
  day : ℕ
  year_pos : 1 ≤ year
  year_le : year ≤ 9999
  month_pos : 1 ≤ month
  month_le : month ≤ 12
  day_pos : 1 ≤ day
  day_le : day ≤ daysInMonth year month
  deriving DecidableEq

namespace Date

/-- `date(year, month, day)`, which raises outside the calendar. -/
def ofYmd? (year month day : ℕ) : Option Date :=
  if h : (1 ≤ year ∧ year ≤ 9999) ∧ (1 ≤ month ∧ month ≤ 12) ∧
      1 ≤ day ∧ day ≤ daysInMonth year month then
    some ⟨year, month, day, h.1.1, h.1.2, h.2.1.1, h.2.1.2, h.2.2.1, h.2.2.2⟩
  else none

/-- Position in the calendar, months padded to 32 days. -/
def rank (d : Date) : ℕ := (d.year * 13 + d.month) * 32 + d.day

theorem day_lt (d : Date) : d.day < 32 :=
  Nat.lt_succ_of_le (d.day_le.trans (daysInMonth_le d.year d.month))

theorem rank_injective : Function.Injective rank := by
  intro a b h
  have ha := a.day_lt
  have hb := b.day_lt
  have ha' := a.month_le
  have hb' := b.month_le
  unfold rank at h
  have hd : a.day = b.day := by omega
  have hm : a.month = b.month := by omega
  have hy : a.year = b.year := by omega
  obtain ⟨_, _, _, _, _, _, _, _, _⟩ := a
  obtain ⟨_, _, _, _, _, _, _, _, _⟩ := b
  obtain rfl := hd
  obtain rfl := hm
  obtain rfl := hy
  rfl

instance : LinearOrder Date := LinearOrder.lift' rank rank_injective

theorem le_iff_rank {a b : Date} : a ≤ b ↔ a.rank ≤ b.rank := Iff.rfl

/-- `d + timedelta(days=1)`, which overflows on the last day of year 9999. -/
def next? (d : Date) : Option Date :=
  if d.day < daysInMonth d.year d.month then ofYmd? d.year d.month (d.day + 1)
  else if d.month < 12 then ofYmd? d.year (d.month + 1) 1
  else ofYmd? (d.year + 1) 1 1

/-- `date.min`. -/
def first : Date := ⟨1, 1, 1, by decide, by decide, by decide, by decide, by decide, by decide⟩

/-- `date.max`. -/
def last : Date := ⟨9999, 12, 31, by decide, by decide, by decide, by decide, by decide, by decide⟩

theorem ofYmd?_isSome {year month day : ℕ} : (ofYmd? year month day).isSome ↔
    (1 ≤ year ∧ year ≤ 9999) ∧ (1 ≤ month ∧ month ≤ 12) ∧
      1 ≤ day ∧ day ≤ daysInMonth year month := by
  unfold ofYmd?
  split_ifs with h <;> simp [h]

/-- Every day but the last has a next day. -/
theorem next?_isSome {d : Date} : d.next?.isSome ↔ d ≠ last := by
  have hyear := d.year_pos
  have hmonth := d.month_pos
  have hday := d.day_le
  have hfirst := daysInMonth_pos (d.year + 1) 1
  have hnext := daysInMonth_pos d.year (d.month + 1)
  have hdays : daysInMonth d.year 12 = 31 := rfl
  have hlast : d = last ↔ d.year = 9999 ∧ d.month = 12 ∧ d.day = 31 := by
    constructor
    · rintro rfl
      exact ⟨rfl, rfl, rfl⟩
    · rintro ⟨hy, hm, hd⟩
      refine rank_injective ?_
      rw [rank, rank, hy, hm, hd]
      rfl
  have hy := d.year_le
  have hm := d.month_le
  rw [Ne, hlast]
  unfold next?
  split_ifs with h h'
  · rw [ofYmd?_isSome]
    refine iff_of_true (by omega) ?_
    rintro ⟨-, hm, hd⟩
    rw [hm] at h
    omega
  · rw [ofYmd?_isSome]
    exact iff_of_true (by omega) (by omega)
  · rw [ofYmd?_isSome]
    have htwelve : d.month = 12 := by omega
    rw [htwelve] at h hday
    omega

/-- `d - timedelta(days=1)`, which overflows on the first day of year 1. -/
def prev? (d : Date) : Option Date :=
  if 1 < d.day then ofYmd? d.year d.month (d.day - 1)
  else if 1 < d.month then ofYmd? d.year (d.month - 1) (daysInMonth d.year (d.month - 1))
  else ofYmd? (d.year - 1) 12 31

/-- `d.isoformat()`. -/
def isoformat (d : Date) : Text :=
  padded 4 d.year ++ (txt "-" ++ (padded 2 d.month ++ (txt "-" ++ padded 2 d.day)))

theorem isoformat_length (d : Date) : d.isoformat.length = 10 := by simp [isoformat, txt]

theorem isoformat_append_inj {a b : Date} {s t : Text}
    (h : a.isoformat ++ s = b.isoformat ++ t) : a = b ∧ s = t := by
  obtain ⟨he, hst⟩ := List.append_inj h (by rw [isoformat_length, isoformat_length])
  refine ⟨?_, hst⟩
  obtain ⟨hy, h1⟩ := List.append_inj he (by simp)
  obtain ⟨hm, h2⟩ := List.append_inj (List.append_cancel_left h1) (by simp)
  have hd := List.append_cancel_left h2
  have ha := a.day_lt
  have hb := b.day_lt
  have hy' := padded_injective (by have := a.year_le; omega) (by have := b.year_le; omega) hy
  have hm' := padded_injective (by have := a.month_le; omega) (by have := b.month_le; omega) hm
  have hd' := padded_injective (by omega) (by omega) hd
  apply rank_injective
  rw [rank, rank, hy', hm', hd']

theorem isoformat_injective : Function.Injective isoformat := by
  intro a b h
  exact (isoformat_append_inj (congrArg (· ++ []) h)).1

end Date

instance micros_neZero : NeZero 86400000000 := ⟨by decide⟩

/-- An aware `datetime`, as an instant. -/
structure UtcDateTime where
  date : Date
  micros : Fin 86400000000
  deriving DecidableEq

namespace UtcDateTime

def key (t : UtcDateTime) : Date ×ₗ Fin 86400000000 := toLex (t.date, t.micros)

theorem key_injective : Function.Injective key := by
  intro a b h
  obtain ⟨ad, am⟩ := a
  obtain ⟨bd, bm⟩ := b
  obtain ⟨rfl, rfl⟩ := Prod.mk.inj (toLex.injective h)
  rfl

instance : LinearOrder UtcDateTime := LinearOrder.lift' key key_injective

/-- `HH:MM:SS`. -/
def clock (t : UtcDateTime) : Text :=
  padded 2 (t.micros.val / 3600000000) ++ (txt ":" ++
    (padded 2 (t.micros.val / 60000000 % 60) ++ (txt ":" ++
      padded 2 (t.micros.val / 1000000 % 60))))

/-- The microseconds, left out when they are zero. -/
def fraction (t : UtcDateTime) : Text :=
  if t.micros.val % 1000000 = 0 then [] else ofChar '.' :: padded 6 (t.micros.val % 1000000)

/-- `t.isoformat()` for a UTC datetime, up to its offset. -/
def isoBody (t : UtcDateTime) : Text := t.date.isoformat ++ (ofChar 'T' :: (t.clock ++ t.fraction))

/-- `t.isoformat()`. -/
def isoformat (t : UtcDateTime) : Text := t.isoBody ++ txt "+00:00"

/-- `t.isoformat().replace("+00:00", "Z")`. -/
def isoformatZ (t : UtcDateTime) : Text := t.isoBody ++ txt "Z"

theorem clock_length (t : UtcDateTime) : t.clock.length = 8 := by simp [clock, txt]

theorem fraction_injective {a b : UtcDateTime} (h : a.fraction = b.fraction) :
    a.micros.val % 1000000 = b.micros.val % 1000000 := by
  unfold fraction at h
  split_ifs at h with ha hb hb
  · omega
  · exact padded_injective (Nat.mod_lt _ (by decide)) (Nat.mod_lt _ (by decide)) (List.cons.inj h).2

theorem isoBody_injective : Function.Injective isoBody := by
  intro a b h
  obtain ⟨hd, ht⟩ := Date.isoformat_append_inj h
  obtain ⟨hc, hf⟩ := List.append_inj (List.cons.inj ht).2 (by rw [clock_length, clock_length])
  obtain ⟨hh, h1⟩ := List.append_inj hc (by simp)
  obtain ⟨hm, h2⟩ := List.append_inj (List.append_cancel_left h1) (by simp)
  have hs := List.append_cancel_left h2
  have ha := a.micros.isLt
  have hb := b.micros.isLt
  have hh' := padded_injective (by omega) (by omega) hh
  have hm' := padded_injective (by omega) (by omega) hm
  have hs' := padded_injective (by omega) (by omega) hs
  have hf' := fraction_injective hf
  obtain ⟨ad, am⟩ := a
  obtain ⟨bd, bm⟩ := b
  obtain rfl : ad = bd := hd
  have hv : am = bm := Fin.ext (by dsimp only at *; omega)
  rw [hv]

theorem isoformatZ_injective : Function.Injective isoformatZ := by
  intro a b h
  exact isoBody_injective (List.append_cancel_right h)

theorem isoformat_injective : Function.Injective isoformat := by
  intro a b h
  exact isoBody_injective (List.append_cancel_right h)

end UtcDateTime

end PyCalendar
