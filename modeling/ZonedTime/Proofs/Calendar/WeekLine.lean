import ZonedTime.Calendar.Week
import ZonedTime.Proofs.Calendar.DayLine

set_option autoImplicit false

namespace ZonedTime.Calendar

-- The Monday nearest to the first of January, from three days before it to three days after it.
theorem isoYearStart_bounds (year : Int) :
    daysBeforeYear year - 2 ≤ isoYearStart year ∧ isoYearStart year ≤ daysBeforeYear year + 4
      ∧ isoYearStart year % 7 = 1 := by
  unfold isoYearStart weekdayOfDay
  by_cases early : (daysBeforeYear year + 1 + 6) % 7 ≤ 3
  next =>
    rw [if_pos early]
    omega
  next =>
    rw [if_neg early]
    omega

theorem daysInYear_bounds (year : Int) : 365 ≤ daysInYear year ∧ daysInYear year ≤ 366 := by
  unfold daysInYear
  split <;> omega

theorem isoYearStart_succ (year : Int) :
    isoYearStart year < isoYearStart (year + 1)
      ∧ isoYearStart (year + 1) ≤ isoYearStart year + 371 := by
  have here := isoYearStart_bounds year
  have there := isoYearStart_bounds (year + 1)
  have length := daysInYear_bounds year
  rw [daysBeforeYear_succ] at there
  omega

theorem isoYearStart_range : isoYearStart 1 = 1 ∧ lastDay < isoYearStart 10000 := by
  decide

end ZonedTime.Calendar

namespace ZonedTime.Date

open Calendar

theorem weekdayIndex_bounds (date : Date) : 0 ≤ date.weekdayIndex ∧ date.weekdayIndex ≤ 6 := by
  simp only [weekdayIndex, weekdayOfDay]
  omega

theorem weekOfYear_bounds (date : Date) (start : Int) :
    0 ≤ date.weekOfYear start ∧ date.weekOfYear start ≤ 53 := by
  have inYear := date.yearDay_bounds
  have length := daysInYear_bounds date.year
  simp only [weekOfYear]
  omega

-- The days of the year before the first week starts, the whole weeks and the days of the last one.
theorem days_in_weeks (newYear yearDay start : Int) :
    (start - newYear) % 7
      + ((yearDay + 6 - (newYear + yearDay + 6 - start) % 7) / 7 - 1) * 7
      + (newYear + yearDay + 6 - start) % 7 = yearDay - 1 := by
  generalize turned : start - newYear = x
  have same : newYear + yearDay + 6 - start = yearDay + 6 - x := by omega
  rw [same]
  omega

theorem ofWeekOfYear?_weekOfYear (date : Date) (start : Int) :
    ofWeekOfYear? date.year (date.weekOfYear start) date.weekdayIndex start = some date := by
  have lead : (start - weekdayOfDay (daysBeforeYear date.year + 1)) % 7 =
      (start - daysBeforeYear date.year) % 7 := by
    unfold weekdayOfDay
    omega
  have since : (date.weekdayIndex - start) % 7 =
      (daysBeforeYear date.year + date.yearDay + 6 - start) % 7 := by
    rw [weekdayIndex, weekdayOfDay, dayNumber_eq]
    omega
  have week : date.weekOfYear start = (date.yearDay + 6
      - (daysBeforeYear date.year + date.yearDay + 6 - start) % 7) / 7 := by
    rw [weekOfYear, since]
    omega
  have place : ofDayNumber? (daysBeforeYear date.year + 1 + (date.yearDay - 1)) = some date := by
    rw [ofDayNumber?_eq_some, dayNumber_eq]
    omega
  unfold ofWeekOfYear?
  simp only
  rw [lead, since, week, days_in_weeks, place]
  simp

theorem isoYear_around (date : Date) :
    isoYearStart date.isoYear ≤ date.dayNumber
      ∧ date.dayNumber < isoYearStart (date.isoYear + 1) := by
  have inYear := date.dayNumber_in_year
  have before := isoYearStart_bounds (date.year - 1)
  have after := isoYearStart_succ (date.year + 1)
  have next := isoYearStart_bounds (date.year + 1)
  have later := isoYearStart_bounds (date.year + 1 + 1)
  have length := daysBeforeYear_succ (date.year - 1)
  have longer := daysBeforeYear_succ (date.year + 1)
  have days := daysInYear_bounds (date.year - 1)
  have more := daysInYear_bounds (date.year + 1)
  simp only [Int.sub_add_cancel] at length
  unfold isoYear
  split
  next => omega
  next =>
    split
    next => omega
    next =>
      simp only [Int.sub_add_cancel]
      omega

theorem isoYear_bounds (date : Date) : 1 ≤ date.isoYear ∧ date.isoYear ≤ 9999 := by
  obtain ⟨firstYear, lastYear, -⟩ := date.real
  obtain ⟨first, last⟩ := date.dayNumber_bounds
  obtain ⟨start, finish⟩ := isoYearStart_range
  unfold isoYear
  split
  next late =>
    -- The last year of the calendar does not reach into the ISO year after it.
    have other : date.year ≠ 9999 := by
      intro same
      rw [same] at late
      norm_num at late
      omega
    omega
  next =>
    split
    next => omega
    next early =>
      have other : date.year ≠ 1 := by
        intro same
        rw [same] at early
        omega
      omega

theorem isoWeek_bounds (date : Date) : 1 ≤ date.isoWeek ∧ date.isoWeek ≤ 53 := by
  have around := date.isoYear_around
  have length := isoYearStart_succ date.isoYear
  unfold isoWeek
  omega

end ZonedTime.Date
