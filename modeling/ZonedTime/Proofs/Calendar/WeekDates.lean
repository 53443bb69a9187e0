import ZonedTime.Proofs.Calendar.Counting

set_option autoImplicit false

namespace ZonedTime.Date

open Calendar

def weekStarts (date : Date) (start : Int) : Set Date :=
  {other | ¬ date.lt other ∧ other.year = date.year ∧ other.weekdayIndex = start}

-- The week of the date started as many days ago as its weekday is after the first one. The days
-- with that place in the week are taken up to the start of the next week, which none of them is.
theorem place_weekStarts {date : Date} {start : Int} (inWeek : 0 ≤ start ∧ start ≤ 6) :
    dayNumber '' date.weekStarts start = ↑(weekly (daysBeforeYear date.year)
      (date.dayNumber - (date.weekdayIndex - start) % 7 + 7)) := by
  ext n
  rw [Finset.mem_coe, mem_weekly]
  constructor
  next =>
    intro inside
    obtain ⟨other, ⟨notLater, sameYear, started⟩, place⟩ := inside
    have inYear := other.dayNumber_in_year
    rw [lt_iff_dayNumber_lt] at notLater
    rw [sameYear] at inYear
    simp only [weekdayIndex, weekdayOfDay] at *
    omega
  next =>
    intro inside
    obtain ⟨⟨after, before⟩, same⟩ := inside
    have inYear := date.dayNumber_in_year
    have bounds := date.dayNumber_bounds
    have low := daysBeforeYear_mono date.real.1
    have startOfLine := daysBeforeYear_range.1
    simp only [weekdayIndex, weekdayOfDay] at before same
    obtain ⟨other, found⟩ := Option.isSome_iff_exists.mp
      (ofDayNumber?_isSome (n := n) (by omega) (by omega))
    have place := dayNumber_of_ofDayNumber? found
    have sameYear : other.year = date.year := year_of_dayNumber (by omega) (by omega)
    have notLater : ¬ date.lt other := by
      rw [lt_iff_dayNumber_lt]
      omega
    have started : other.weekdayIndex = start := by
      simp only [weekdayIndex, weekdayOfDay]
      omega
    exact ⟨other, ⟨notLater, sameYear, started⟩, place⟩

theorem weekOfYear_eq_ncard (date : Date) {start : Int} (inWeek : 0 ≤ start ∧ start ≤ 6) :
    date.weekOfYear start = (date.weekStarts start).ncard := by
  have inYear := date.yearDay_bounds
  have place := date.dayNumber_eq
  have ordered : daysBeforeYear date.year <
      date.dayNumber - (date.weekdayIndex - start) % 7 + 7 := by omega
  rw [← Set.ncard_image_of_injective _ dayNumber_injective, place_weekStarts inWeek,
    Set.ncard_coe_finset, card_weekly ordered, weekOfYear]
  congr 1
  omega

-- From the first of January the weeks are counted on from the first day on which one starts.
def weekShift (year week weekday start : Int) : Int :=
  (start - weekdayOfDay (daysBeforeYear year + 1)) % 7 + (week - 1) * 7 + (weekday - start) % 7

theorem weekShift_weekday {year week weekday start : Int} (inWeek : 0 ≤ weekday ∧ weekday ≤ 6) :
    weekdayOfDay (daysBeforeYear year + 1 + weekShift year week weekday start) = weekday := by
  unfold weekShift weekdayOfDay
  omega

theorem weekShift_week (year week weekday start : Int) :
    (weekShift year week weekday start + 7 - (weekday - start) % 7) / 7 = week := by
  unfold weekShift
  omega

theorem ofWeekOfYear?_eq_shift (year week weekday start : Int) :
    ofWeekOfYear? year week weekday start =
      (ofDayNumber? (daysBeforeYear year + 1 + weekShift year week weekday start)).filter
        (·.year = year) := by
  unfold ofWeekOfYear? weekShift
  simp only
  cases ofDayNumber? _ with
  | none => rfl
  | some date => simp [Option.filter]

theorem ofWeekOfYear?_eq_some {year week weekday start : Int} {date : Date}
    (inWeek : 0 ≤ weekday ∧ weekday ≤ 6) :
    ofWeekOfYear? year week weekday start = some date ↔
      date.year = year ∧ date.weekOfYear start = week ∧ date.weekdayIndex = weekday := by
  constructor
  next =>
    intro found
    rw [ofWeekOfYear?_eq_shift, Option.filter_eq_some_iff, ofDayNumber?_eq_some] at found
    obtain ⟨place, sameYear⟩ := found
    have sameYear : date.year = year := of_decide_eq_true sameYear
    have inYear := date.dayNumber_eq
    have weekdayFound : date.weekdayIndex = weekday := by
      rw [weekdayIndex, place, weekShift_weekday inWeek]
    have shifted : date.yearDay - 1 = weekShift year week weekday start := by
      rw [sameYear] at inYear
      omega
    have weekFound : date.weekOfYear start = week := by
      rw [weekOfYear, weekdayFound, shifted, weekShift_week]
    exact ⟨sameYear, weekFound, weekdayFound⟩
  next =>
    intro fields
    obtain ⟨rfl, rfl, rfl⟩ := fields
    exact ofWeekOfYear?_weekOfYear date start

theorem ofWeek_of_year {year : Int} (years : 1 ≤ year ∧ year ≤ 9999) (week weekday start : Int) :
    ofWeek year week weekday start = .ok (ofWeekOfYear? year week weekday start) := by
  have real : IsDate year 1 1 := by simp [IsDate, daysInMonth, years]
  have newYear : make year 1 1 = .ok ⟨year, 1, 1, real⟩ := make_fields ⟨year, 1, 1, real⟩
  rw [ofWeek, newYear]
  rfl

/-- Weeks are counted by the days on which they start. A year of the calendar, a week and a weekday
find the date of that year which has them, and find nothing exactly if no date does. -/
theorem ofWeek_exact {year weekday start : Int} (years : 1 ≤ year ∧ year ≤ 9999)
    (weekdays : 0 ≤ weekday ∧ weekday ≤ 6) (starts : 0 ≤ start ∧ start ≤ 6) (week : Int) :
    (∀ date : Date, date.weekOfYear start = (date.weekStarts start).ncard)
      ∧ (∀ date : Date, ofWeek year week weekday start = .ok (some date) ↔
        date.year = year ∧ date.weekOfYear start = week ∧ date.weekdayIndex = weekday)
      ∧ (ofWeek year week weekday start = .ok none ↔
        ¬ ∃ date : Date,
          date.year = year ∧ date.weekOfYear start = week ∧ date.weekdayIndex = weekday) := by
  have exact (date : Date) : ofWeekOfYear? year week weekday start = some date ↔ _ :=
    ofWeekOfYear?_eq_some weekdays
  rw [ofWeek_of_year years]
  constructor
  next => exact fun date => date.weekOfYear_eq_ncard starts
  next =>
    constructor
    next =>
      intro date
      rw [Except.ok.injEq, exact]
    next =>
      simp only [← exact, Except.ok.injEq]
      cases ofWeekOfYear? year week weekday start <;> simp

/-- In the last year of the calendar weeks from Sunday end on a Friday. -/
theorem ofWeek_exact_lastWeek :
    (1 ≤ (9999 : Int) ∧ (9999 : Int) ≤ 9999) ∧ (0 ≤ (5 : Int) ∧ (5 : Int) ≤ 6)
      ∧ (0 ≤ (4 : Int) ∧ (4 : Int) ≤ 6) ∧ (0 ≤ (6 : Int) ∧ (6 : Int) ≤ 6)
      ∧ ofWeek 9999 52 4 6 = .ok (some last)
      ∧ ¬ ∃ date : Date, date.year = 9999 ∧ date.weekOfYear 6 = 52 ∧ date.weekdayIndex = 5 := by
  have friday : ofWeek 9999 52 4 6 = .ok (some last) ↔ _ :=
    (ofWeek_exact (by decide) (by decide) (by decide) 52).2.1 last
  have saturday : ofWeek 9999 52 5 6 = .ok none ↔ _ :=
    (ofWeek_exact (by decide) (by decide) (by decide) 52).2.2
  exact ⟨by decide, by decide, by decide, by decide, friday.mpr (by decide),
    saturday.mp (by decide)⟩

end ZonedTime.Date
