import Mathlib.Tactic.IntervalCases
import ZonedTime.Calendar.Date

set_option autoImplicit false

namespace ZonedTime.Calendar

theorem daysBeforeYear_succ (year : Int) :
    daysBeforeYear (year + 1) = daysBeforeYear year + daysInYear year := by
  simp only [daysBeforeYear, daysInYear, isLeap, Bool.and_eq_true, Bool.or_eq_true, beq_iff_eq,
    bne_iff_ne, ne_eq]
  split <;> omega

theorem daysBeforeYear_mono {a b : Int} (ordered : a ≤ b) :
    daysBeforeYear a ≤ daysBeforeYear b := by
  simp only [daysBeforeYear]
  omega

theorem daysBeforeYear_range : daysBeforeYear 1 = 0 ∧ daysBeforeYear 10000 = lastDay := by
  decide

theorem yearOfDay_bounds (day : Int) :
    daysBeforeYear (yearOfDay day) < day ∧ day ≤ daysBeforeYear (yearOfDay day + 1) := by
  -- The guess is off by one at most, in either direction.
  have low : daysBeforeYear (400 * (day - 1) / 146097 + 1 - 1) < day := by
    simp only [daysBeforeYear]
    omega
  have high : day ≤ daysBeforeYear (400 * (day - 1) / 146097 + 1 + 1 + 1) := by
    simp only [daysBeforeYear]
    omega
  unfold yearOfDay
  generalize 400 * (day - 1) / 146097 + 1 = guess at low high
  simp only
  by_cases before : day ≤ daysBeforeYear guess
  next =>
    rw [if_pos before, Int.sub_add_cancel]
    exact ⟨low, before⟩
  next =>
    rw [if_neg before]
    by_cases after : daysBeforeYear (guess + 1) < day
    next =>
      rw [if_pos after]
      exact ⟨after, high⟩
    next =>
      rw [if_neg after]
      exact ⟨Int.not_le.mp before, Int.not_lt.mp after⟩

theorem step_unique {before : Int -> Int} (mono : ∀ {a b : Int}, a ≤ b → before a ≤ before b)
    {day a b : Int} (one : before a < day ∧ day ≤ before (a + 1))
    (two : before b < day ∧ day ≤ before (b + 1)) : a = b := by
  rcases Int.lt_trichotomy a b with earlier | same | later
  next =>
    have := mono (show a + 1 ≤ b by omega)
    omega
  next => exact same
  next =>
    have := mono (show b + 1 ≤ a by omega)
    omega

theorem yearOfDay_eq {day year : Int} (after : daysBeforeYear year < day)
    (upTo : day ≤ daysBeforeYear (year + 1)) : yearOfDay day = year :=
  step_unique daysBeforeYear_mono (yearOfDay_bounds day) ⟨after, upTo⟩

theorem yearOfDay_range {day : Int} (first : 1 ≤ day) (last : day ≤ lastDay) :
    1 ≤ yearOfDay day ∧ yearOfDay day ≤ 9999 := by
  have found := yearOfDay_bounds day
  have ends := daysBeforeYear_range
  constructor
  next =>
    by_contra early
    have := daysBeforeYear_mono (show yearOfDay day + 1 ≤ 1 by omega)
    omega
  next =>
    by_contra late
    have := daysBeforeYear_mono (show 10000 ≤ yearOfDay day by omega)
    omega

theorem daysBeforeMonth_succ (year : Int) {month : Int} (first : 1 ≤ month) (last : month ≤ 12) :
    daysBeforeMonth (isLeap year) (month + 1) =
      daysBeforeMonth (isLeap year) month + daysInMonth year month := by
  interval_cases month <;> cases leap : isLeap year <;>
    simp [daysBeforeMonth, daysInMonth, leap]

theorem daysBeforeMonth_mono (leap : Bool) {a b : Int} (ordered : a ≤ b) :
    daysBeforeMonth leap a ≤ daysBeforeMonth leap b := by
  simp only [daysBeforeMonth]
  cases leap <;> simp only [Bool.false_eq_true, if_false, if_true] <;> repeat' split
  all_goals omega

theorem daysBeforeMonth_first (leap : Bool) : daysBeforeMonth leap 1 = 0 := by
  cases leap <;> rfl

theorem daysBeforeMonth_end (year : Int) :
    daysBeforeMonth (isLeap year) 13 = daysInYear year := by
  cases leap : isLeap year <;> simp [daysBeforeMonth, daysInYear, leap]

theorem monthOfYearDay_bounds {year yearDay : Int} (first : 1 ≤ yearDay)
    (last : yearDay ≤ daysInYear year) :
    1 ≤ monthOfYearDay (isLeap year) yearDay ∧ monthOfYearDay (isLeap year) yearDay ≤ 12
      ∧ daysBeforeMonth (isLeap year) (monthOfYearDay (isLeap year) yearDay) < yearDay
      ∧ yearDay ≤ daysBeforeMonth (isLeap year) (monthOfYearDay (isLeap year) yearDay + 1) := by
  simp only [daysInYear] at last
  simp only [monthOfYearDay, daysBeforeMonth]
  cases leap : isLeap year <;>
    simp only [leap, Bool.false_eq_true, if_false, if_true] at last ⊢ <;> repeat' split
  all_goals omega

theorem monthOfYearDay_eq {year yearDay month : Int} (first : 1 ≤ yearDay)
    (last : yearDay ≤ daysInYear year) (after : daysBeforeMonth (isLeap year) month < yearDay)
    (upTo : yearDay ≤ daysBeforeMonth (isLeap year) (month + 1)) :
    monthOfYearDay (isLeap year) yearDay = month := by
  obtain ⟨-, -, inMonth⟩ := monthOfYearDay_bounds first last
  exact step_unique (daysBeforeMonth_mono (isLeap year)) inMonth ⟨after, upTo⟩

def newYear (year : Int) : Int := (daysBeforeYear year + 1 - epochDay) * secondsPerDay

theorem newYear_succ (year : Int) :
    newYear (year + 1) = newYear year + daysInYear year * 86400 := by
  simp only [newYear, daysBeforeYear_succ, secondsPerDay]
  omega

theorem newYear_mono {a b : Int} (ordered : a ≤ b) : newYear a ≤ newYear b := by
  have := daysBeforeYear_mono ordered
  unfold newYear secondsPerDay
  omega

theorem yearOfEpoch_eq {year second : Int} (first : 1 ≤ year) (last : year ≤ 9999)
    (after : year = 1 ∨ newYear year ≤ second)
    (before : year = 9999 ∨ second < newYear (year + 1)) : yearOfEpoch second = year := by
  have low := daysBeforeYear_mono first
  have high := daysBeforeYear_mono (show year + 1 ≤ 10000 by omega)
  have length := daysBeforeYear_succ year
  have ends := daysBeforeYear_range
  have days : 365 ≤ daysInYear year := by
    unfold daysInYear
    split <;> omega
  unfold newYear secondsPerDay epochDay at after before
  refine yearOfDay_eq ?_ ?_
  next =>
    rcases after with rfl | after
    next => unfold secondsPerDay lastDay epochDay; omega
    next => unfold secondsPerDay lastDay epochDay at *; omega
  next =>
    rcases before with same | before
    next =>
      have last : daysBeforeYear (year + 1) = lastDay := by
        rw [same]
        exact ends.2
      unfold secondsPerDay lastDay epochDay at *
      omega
    next => unfold secondsPerDay lastDay epochDay at *; omega

theorem yearOfEpoch_range (second : Int) :
    1 ≤ yearOfEpoch second ∧ yearOfEpoch second ≤ 9999 :=
  yearOfDay_range (by unfold lastDay; omega) (by unfold lastDay; omega)

end ZonedTime.Calendar

namespace ZonedTime.Date

open Calendar

theorem dayNumber_eq (date : Date) :
    date.dayNumber = daysBeforeYear date.year + date.yearDay := by
  simp only [dayNumber, Calendar.dayNumber, yearDay, Date.isLeap, Int.add_assoc]

theorem yearDay_in_month (date : Date) :
    daysBeforeMonth date.isLeap date.month < date.yearDay
      ∧ date.yearDay ≤ daysBeforeMonth date.isLeap (date.month + 1) := by
  obtain ⟨-, -, firstMonth, lastMonth, firstDay, lastDay⟩ := date.real
  have next := daysBeforeMonth_succ date.year firstMonth lastMonth
  unfold yearDay Date.isLeap
  omega

theorem yearDay_bounds (date : Date) :
    1 ≤ date.yearDay ∧ date.yearDay ≤ daysInYear date.year := by
  obtain ⟨-, -, firstMonth, lastMonth, -⟩ := date.real
  have low := daysBeforeMonth_mono date.isLeap firstMonth
  have high := daysBeforeMonth_mono date.isLeap (show date.month + 1 ≤ 13 by omega)
  have place := date.yearDay_in_month
  rw [daysBeforeMonth_first] at low
  rw [Date.isLeap, daysBeforeMonth_end] at high
  unfold Date.isLeap at *
  omega

theorem dayNumber_in_year (date : Date) :
    daysBeforeYear date.year < date.dayNumber
      ∧ date.dayNumber ≤ daysBeforeYear (date.year + 1) := by
  have inYear := date.yearDay_bounds
  rw [dayNumber_eq, daysBeforeYear_succ]
  omega

theorem dayNumber_bounds (date : Date) : 1 ≤ date.dayNumber ∧ date.dayNumber ≤ lastDay := by
  obtain ⟨firstYear, lastYear, -⟩ := date.real
  have inYear := date.dayNumber_in_year
  have low := daysBeforeYear_mono firstYear
  have high := daysBeforeYear_mono (show date.year + 1 ≤ 10000 by omega)
  have ends := daysBeforeYear_range
  omega

theorem ofYmd?_eq_some {year month day : Int} {date : Date} :
    ofYmd? year month day = some date ↔
      date.year = year ∧ date.month = month ∧ date.day = day := by
  constructor
  next =>
    intro made
    unfold ofYmd? at made
    split at made
    next => cases made; exact ⟨rfl, rfl, rfl⟩
    next => cases made
  next =>
    rintro ⟨rfl, rfl, rfl⟩
    simp [ofYmd?, date.real]

theorem ofFields_fields (date : Date) : ofFields date.year date.month date.day = .ok date := by
  rw [ofFields, ofYmd?_eq_some.mpr ⟨rfl, rfl, rfl⟩]

theorem isDate_endOf2016 : IsDate 2016 12 31 := by decide

theorem isDate_startOf2017 : IsDate 2017 1 1 := by decide

theorem day_le (date : Date) : date.day ≤ 31 := by
  have inMonth : daysInMonth date.year date.month ≤ 31 := by
    unfold daysInMonth
    repeat' split
    all_goals omega
  exact Int.le_trans date.real.2.2.2.2.2 inMonth

theorem fitsField_fields (date : Date) :
    (fitsField date.year && fitsField date.month && fitsField date.day) = true := by
  obtain ⟨firstYear, lastYear, firstMonth, lastMonth, firstDay, -⟩ := date.real
  have lastDay := date.day_le
  simp only [fitsField, Bool.and_eq_true, decide_eq_true_eq]
  omega

theorem make_fields (date : Date) : make date.year date.month date.day = .ok date := by
  rw [make, if_pos date.fitsField_fields, ofFields_fields]

theorem year_of_ofDayNumber? {n : Int} {date : Date} (found : ofDayNumber? n = some date) :
    date.year = yearOfDay n :=
  (ofYmd?_eq_some.mp found).1

theorem dayNumber_of_ofDayNumber? {n : Int} {date : Date} (found : ofDayNumber? n = some date) :
    date.dayNumber = n := by
  obtain ⟨sameYear, sameMonth, sameDay⟩ := ofYmd?_eq_some.mp found
  rw [dayNumber_eq, yearDay, sameMonth, sameDay, Date.isLeap, sameYear]
  omega

theorem ofDayNumber?_dayNumber (date : Date) : ofDayNumber? date.dayNumber = some date := by
  have inMonth := date.yearDay_in_month
  obtain ⟨first, last⟩ := date.yearDay_bounds
  have year : yearOfDay date.dayNumber = date.year :=
    yearOfDay_eq date.dayNumber_in_year.1 date.dayNumber_in_year.2
  have place : date.dayNumber - daysBeforeYear date.year = date.yearDay := by
    rw [dayNumber_eq]
    omega
  have month : monthOfYearDay (Calendar.isLeap date.year) date.yearDay = date.month :=
    monthOfYearDay_eq first last inMonth.1 inMonth.2
  apply ofYmd?_eq_some.mpr
  rw [year, place, month]
  refine ⟨rfl, rfl, ?_⟩
  unfold yearDay Date.isLeap
  omega

theorem ofDayNumber?_eq_some {n : Int} {date : Date} :
    ofDayNumber? n = some date ↔ date.dayNumber = n := by
  constructor
  next => exact dayNumber_of_ofDayNumber?
  next =>
    rintro rfl
    exact date.ofDayNumber?_dayNumber

theorem ofDayNumber?_isSome {n : Int} (first : 1 ≤ n) (last : n ≤ lastDay) :
    (ofDayNumber? n).isSome := by
  have inYear := yearOfDay_bounds n
  have next := daysBeforeYear_succ (yearOfDay n)
  obtain ⟨firstYear, lastYear⟩ := yearOfDay_range first last
  have place : 1 ≤ n - daysBeforeYear (yearOfDay n)
      ∧ n - daysBeforeYear (yearOfDay n) ≤ daysInYear (yearOfDay n) := by omega
  obtain ⟨firstMonth, lastMonth, low, high⟩ := monthOfYearDay_bounds place.1 place.2
  have length := daysBeforeMonth_succ (yearOfDay n) firstMonth lastMonth
  have real : IsDate (yearOfDay n)
      (monthOfYearDay (Calendar.isLeap (yearOfDay n)) (n - daysBeforeYear (yearOfDay n)))
      (n - daysBeforeYear (yearOfDay n)
        - daysBeforeMonth (Calendar.isLeap (yearOfDay n))
          (monthOfYearDay (Calendar.isLeap (yearOfDay n))
            (n - daysBeforeYear (yearOfDay n)))) :=
    ⟨firstYear, lastYear, firstMonth, lastMonth, by omega, by omega⟩
  simp [ofDayNumber?, ofYmd?, real]

theorem ofDayNumber?_eq_none {n : Int} : ofDayNumber? n = none ↔ n < 1 ∨ lastDay < n := by
  constructor
  next =>
    intro missing
    by_contra inside
    have found : (ofDayNumber? n).isSome := ofDayNumber?_isSome (by omega) (by omega)
    simp [missing] at found
  next =>
    intro outside
    cases found : ofDayNumber? n with
    | none => rfl
    | some date =>
      have bounds := date.dayNumber_bounds
      have := dayNumber_of_ofDayNumber? found
      omega

theorem eq_of_dayNumber_eq {a b : Date} (same : a.dayNumber = b.dayNumber) : a = b := by
  have found := a.ofDayNumber?_dayNumber
  rw [same, ofDayNumber?_dayNumber] at found
  exact (Option.some.inj found).symm

theorem lt_iff_fields (a b : Date) :
    a.lt b ↔ a.year < b.year ∨ (a.year = b.year ∧
      (a.month < b.month ∨ (a.month = b.month ∧ a.day < b.day))) := by
  simp [lt]

theorem dayNumber_lt_of_lt {a b : Date} (earlier : a.lt b) : a.dayNumber < b.dayNumber := by
  rcases (lt_iff_fields a b).mp earlier with year | ⟨year, month | ⟨month, day⟩⟩
  next =>
    have := daysBeforeYear_mono (show a.year + 1 ≤ b.year by omega)
    have := a.dayNumber_in_year
    have := b.dayNumber_in_year
    omega
  next =>
    have := daysBeforeMonth_mono a.isLeap (show a.month + 1 ≤ b.month by omega)
    have first := a.yearDay_in_month
    have second := b.yearDay_in_month
    rw [dayNumber_eq, dayNumber_eq, year]
    simp only [Date.isLeap, year] at *
    omega
  next =>
    rw [dayNumber_eq, dayNumber_eq]
    simp only [yearDay, Date.isLeap, year, month]
    omega

theorem lt_iff_dayNumber_lt (a b : Date) : a.lt b ↔ a.dayNumber < b.dayNumber := by
  constructor
  next => exact dayNumber_lt_of_lt
  next =>
    intro earlier
    rw [lt_iff_fields]
    by_contra notBefore
    by_cases same : a.year = b.year ∧ a.month = b.month ∧ a.day = b.day
    next =>
      simp only [dayNumber, same.1, same.2.1, same.2.2] at earlier
      omega
    next =>
      have later : b.lt a := by
        rw [lt_iff_fields]
        omega
      have := dayNumber_lt_of_lt later
      omega

end ZonedTime.Date
