import ODataQuery.Calendar.Instant
import ODataQuery.Proofs.Calendar.Date
import ODataQuery.Proofs.Calendar.TimeOfDay

/-!
# Dates and times as numbers

Days are counted from the beginning of the calendar, and seconds along the time line, which does
not depend on the offset that an instant is written with. Dates, times of day and instants are
ordered like these numbers. A leap second is not counted: its instants are those of the second
before it with a nanosecond count of one billion or more.

## Main definitions

- `Date.dayNumber` — the number of a day, one for the first day of the year 1
- `TimeOfDay.nanoseconds` — the nanoseconds since midnight
- `Instant.secondNumber`, `Instant.nanoseconds` — the place of an instant on the time line

## Main statements

- `Date.compare_eq`, `TimeOfDay.compare_eq` — the order of dates and of times of day
- `Date.dayNumber_next`, `Date.dayNumber_previous` — neighbouring days
- `Instant.compare_eq` — the order of instants
-/

namespace ODataQuery

-- ════════════════════════════════════════════════════════════════════════
-- Days
-- ════════════════════════════════════════════════════════════════════════

namespace Calendar

/-- The number of days of a year. -/
def daysInYear (year : Int) : Nat := if isLeapYear year then 366 else 365

/-- The number of days of the first months of a year. -/
def daysInMonths (year : Int) : Nat → Nat
  | 0 => 0
  | months + 1 => daysInMonths year months + daysInMonth year (months + 1)

/-- The number of days from the first of the year 1 to the first of a year. -/
def daysBeforeYear (year : Int) : Int :=
  (year - 1) * 365 + (year - 1) / 4 - (year - 1) / 100 + (year - 1) / 400

theorem daysBeforeYear_succ (year : Int) :
    daysBeforeYear (year + 1) = daysBeforeYear year + daysInYear year := by
  unfold daysBeforeYear daysInYear
  split
  · next hleap =>
    simp only [isLeapYear, Bool.and_eq_true, Bool.or_eq_true, beq_iff_eq, bne_iff_ne] at hleap
    omega
  · next hleap =>
    simp only [isLeapYear, Bool.and_eq_true, Bool.or_eq_true, beq_iff_eq, bne_iff_ne] at hleap
    omega

theorem daysInMonths_twelve (year : Int) : daysInMonths year 12 = daysInYear year := by
  cases hleap : isLeapYear year <;> simp [daysInMonths, daysInMonth, daysInYear, hleap]

theorem daysInMonths_mono (year : Int) {m n : Nat} (h : m ≤ n) :
    daysInMonths year m ≤ daysInMonths year n := by
  induction h with
  | refl => exact Nat.le_refl _
  | step _ ih => exact Nat.le_trans ih (Nat.le_add_right ..)

theorem daysBeforeYear_mono {y z : Int} (h : y ≤ z) : daysBeforeYear y ≤ daysBeforeYear z := by
  unfold daysBeforeYear
  omega

end Calendar

namespace Date

open Calendar

/-- The number of a day within its year, from one. -/
def dayOfYear (d : Date) : Nat := daysInMonths d.year (d.month - 1) + d.day

/-- The number of a day. The first day of the year 1 has the number one. -/
def dayNumber (d : Date) : Int := daysBeforeYear d.year + d.dayOfYear

theorem dayOfYear_pos (d : Date) : 1 ≤ d.dayOfYear :=
  Nat.le_trans d.day_mem.1 (Nat.le_add_left ..)

/-- The days up to a date are among those of the months up to its own. -/
theorem dayOfYear_le_daysInMonths (d : Date) : d.dayOfYear ≤ daysInMonths d.year d.month := by
  obtain ⟨month, hmonth⟩ := Nat.exists_eq_add_of_le' d.month_mem.1
  have hday := d.day_mem.2
  rw [dayOfYear, hmonth, Nat.add_sub_cancel, daysInMonths, ← hmonth]
  omega

theorem dayOfYear_le (d : Date) : d.dayOfYear ≤ daysInYear d.year := by
  rw [← daysInMonths_twelve]
  exact Nat.le_trans d.dayOfYear_le_daysInMonths (daysInMonths_mono _ d.month_mem.2)

/-- Later days have greater numbers. -/
theorem dayNumber_lt {a b : Date} (h : a.compare b = .lt) : a.dayNumber < b.dayNumber := by
  simp only [compare, Ordering.then_eq_lt, Std.compare_eq_lt, Std.compare_eq_iff_eq] at h
  have ha := a.dayOfYear_le
  have hb := b.dayOfYear_pos
  unfold dayNumber
  obtain hyear | ⟨hyear, hmonth | ⟨hmonth, hday⟩⟩ := h
  · have hyears := daysBeforeYear_mono (Int.add_one_le_of_lt hyear)
    rw [daysBeforeYear_succ] at hyears
    omega
  · have hmonths : daysInMonths a.year a.month ≤ daysInMonths a.year (b.month - 1) :=
      daysInMonths_mono _ (Nat.le_sub_one_of_lt hmonth)
    have hdays := a.dayOfYear_le_daysInMonths
    have hpos := b.day_mem.1
    rw [hyear] at hdays hmonths ⊢
    rw [dayOfYear.eq_def b]
    omega
  · rw [dayOfYear, dayOfYear, hyear, hmonth]
    omega

/-- Dates are ordered like the numbers of their days. -/
theorem compare_eq (a b : Date) : a.compare b = Ord.compare a.dayNumber b.dayNumber :=
  (Comparison.eq_of_lt (fun h => Std.compare_eq_lt.mpr (dayNumber_lt h))
    fun h => Std.compare_eq_lt.mpr (dayNumber_lt h)).symm

theorem dayNumber_firstOf (year : Int) (month : Nat) (h : 1 ≤ month ∧ month ≤ 12) :
    (firstOf year month h).dayNumber =
      daysBeforeYear year + daysInMonths year (month - 1) + 1 := by
  simp only [dayNumber, dayOfYear, firstOf]
  omega

theorem dayNumber_lastOf (year : Int) (month : Nat) (h : 1 ≤ month ∧ month ≤ 12) :
    (lastOf year month h).dayNumber = daysBeforeYear year + daysInMonths year month := by
  obtain ⟨m, rfl⟩ := Nat.exists_eq_add_of_le' h.1
  rfl

theorem dayNumber_next (d : Date) : d.next.dayNumber = d.dayNumber + 1 := by
  unfold next
  split
  · simp only [dayNumber, dayOfYear]
    omega
  · next hlast =>
    -- The last day of a month is numbered by all days up to the end of the month.
    have hday : d.dayNumber = daysBeforeYear d.year + daysInMonths d.year d.month := by
      rw [← dayNumber_lastOf d.year d.month d.month_mem]
      exact congrArg dayNumber (eq_of_parts rfl rfl (Nat.le_antisymm d.day_mem.2 (Nat.not_lt.mp hlast)))
    split
    · rw [dayNumber_firstOf, hday, Nat.add_sub_cancel]
    · next hdecember =>
      have hmonth : d.month = 12 := Nat.le_antisymm d.month_mem.2 (Nat.not_lt.mp hdecember)
      rw [newYear, dayNumber_firstOf, hday, hmonth, daysInMonths_twelve, daysBeforeYear_succ]
      simp [daysInMonths]

theorem dayNumber_previous (d : Date) : d.previous.dayNumber = d.dayNumber - 1 := by
  unfold previous
  split
  · simp only [dayNumber, dayOfYear]
    omega
  · next hfirst =>
    have hone : d.day = 1 := Nat.le_antisymm (Nat.not_lt.mp hfirst) d.day_mem.1
    have hday : d.dayNumber = daysBeforeYear d.year + daysInMonths d.year (d.month - 1) + 1 := by
      rw [dayNumber, dayOfYear, hone]
      omega
    split
    · rw [dayNumber_lastOf, hday]
      omega
    · next hjanuary =>
      have hmonth : d.month = 1 := Nat.le_antisymm (Nat.not_lt.mp hjanuary) d.month_mem.1
      have hyear := daysBeforeYear_succ (d.year - 1)
      rw [Int.sub_add_cancel] at hyear
      rw [yearEnd, dayNumber_lastOf, hday, hmonth, daysInMonths_twelve, hyear]
      simp [daysInMonths]

end Date

-- ════════════════════════════════════════════════════════════════════════
-- Times of day
-- ════════════════════════════════════════════════════════════════════════

namespace TimeOfDay

/-- The number of a second within its day, from zero. -/
def secondOfDay (t : TimeOfDay) : Int := t.minuteOfDay * 60 + t.second

/-- The nanoseconds since midnight. -/
def nanoseconds (t : TimeOfDay) : Int := t.secondOfDay * 1000000000 + t.nanosecond

/-- Times are ordered by their seconds, and within a second by their nanoseconds. -/
theorem compare_eq_then (a b : TimeOfDay) : a.compare b =
    (Ord.compare a.secondOfDay b.secondOfDay).then
      (Ord.compare (a.nanosecond : Int) b.nanosecond) := by
  have ha := a.second_lt
  have hb := b.second_lt
  rw [secondOfDay, secondOfDay, Comparison.compare_units (by omega) (by omega),
    Comparison.compare_natCast, Comparison.compare_natCast, Comparison.compare_natCast,
    Ordering.then_assoc]
  rfl

/-- Times outside leap seconds are ordered like the nanoseconds since midnight. -/
theorem compare_eq {a b : TimeOfDay} (ha : a.IsRegular) (hb : b.IsRegular) :
    a.compare b = Ord.compare a.nanoseconds b.nanoseconds := by
  have ha : a.nanosecond < 1000000000 := ha
  have hb : b.nanosecond < 1000000000 := hb
  rw [compare_eq_then, nanoseconds, nanoseconds, Comparison.compare_units (by omega) (by omega)]

end TimeOfDay

-- ════════════════════════════════════════════════════════════════════════
-- Instants
-- ════════════════════════════════════════════════════════════════════════

namespace Instant

/-- The number of the minute of an instant on the time line. -/
def minuteNumber (i : Instant) : Int := i.date.dayNumber * 1440 + i.time.minuteOfDay - i.offset

/-- The number of the second of an instant on the time line. -/
def secondNumber (i : Instant) : Int := i.minuteNumber * 60 + i.time.second

/-- The place of an instant on the time line, in nanoseconds. -/
def nanoseconds (i : Instant) : Int := i.secondNumber * 1000000000 + i.time.nanosecond

theorem minuteOfDay_utcTime (i : Instant) : (i.utcTime.minuteOfDay : Int) = i.utcMinute % 1440 := by
  have hminute : i.utcTime.minuteOfDay = (i.utcMinute % 1440).toNat / 60 * 60 +
      (i.utcMinute % 1440).toNat % 60 := rfl
  omega

/-- The universal date and time stand for the same minute as the local ones. -/
theorem minuteNumber_eq (i : Instant) :
    i.minuteNumber = i.utcDate.dayNumber * 1440 + i.utcTime.minuteOfDay := by
  have hhour := i.time.hour_lt
  have hminute := i.time.minute_lt
  have hoffset := i.offset_mem
  rw [minuteOfDay_utcTime]
  unfold utcDate minuteNumber utcMinute TimeOfDay.minuteOfDay
  split
  · rw [Date.dayNumber_previous]
    omega
  · split
    · rw [Date.dayNumber_next]
      omega
    · omega

/-- Instants are ordered by their seconds on the time line, and within a second by their
nanoseconds. -/
theorem compare_eq (a b : Instant) : a.compare b =
    (Ord.compare a.secondNumber b.secondNumber).then
      (Ord.compare (a.time.nanosecond : Int) b.time.nanosecond) := by
  have ha := a.time.second_lt
  have hb := b.time.second_lt
  have hday (i : Instant) :
      0 ≤ (i.utcTime.minuteOfDay : Int) ∧ (i.utcTime.minuteOfDay : Int) < 1440 := by
    rw [minuteOfDay_utcTime]
    omega
  rw [secondNumber, secondNumber, Comparison.compare_units (by omega) (by omega), minuteNumber_eq,
    minuteNumber_eq, Comparison.compare_units (hday a) (hday b), ← Date.compare_eq,
    Comparison.compare_natCast, Comparison.compare_natCast, Comparison.compare_natCast,
    Ordering.then_assoc, Ordering.then_assoc]
  rfl

instance : Std.TransCmp compare := by
  have h : compare = compareLex (compareOn secondNumber)
      (compareOn fun i : Instant => (i.time.nanosecond : Int)) :=
    funext fun a => funext fun b => compare_eq a b
  rw [h]
  infer_instance

end Instant

end ODataQuery
