import ZonedTime.Calendar.Date

set_option autoImplicit false

namespace ZonedTime

open Calendar

inductive Weekday where
  | monday
  | tuesday
  | wednesday
  | thursday
  | friday
  | saturday
  | sunday
  deriving DecidableEq, Repr

namespace Weekday

def all : List Weekday := [monday, tuesday, wednesday, thursday, friday, saturday, sunday]

def ofIndex (n : Int) : Weekday := all.getD (n % 7).toNat monday

end Weekday

-- Monday is 0, and day 1 is a Monday.
def weekdayOfDay (dayNumber : Int) : Int := (dayNumber + 6) % 7

namespace Date

def weekdayIndex (date : Date) : Int := weekdayOfDay date.dayNumber

def weekday (date : Date) : Weekday := .ofIndex date.weekdayIndex

/-- The week that starts on weekday `start`; days before the first such day are in week 0. -/
def weekOfYear (date : Date) (start : Int) : Int :=
  (date.yearDay - 1 + 7 - (date.weekdayIndex - start) % 7) / 7

def ofWeekOfYear? (year week weekday start : Int) : Option Date :=
  let newYear := daysBeforeYear year + 1
  let lead := (start - weekdayOfDay newYear) % 7
  let shift := lead + (week - 1) * 7 + (weekday - start) % 7
  match ofDayNumber? (newYear + shift) with
  | some date => if date.year = year then some date else none
  | none => none

def ofWeek (year week weekday start : Int) : Except Error (Option Date) := do
  let _ <- make year 1 1
  return ofWeekOfYear? year week weekday start

end Date

namespace Calendar

def isoYearStart (year : Int) : Int :=
  let newYear := daysBeforeYear year + 1
  let weekday := weekdayOfDay newYear
  if weekday ≤ 3 then newYear - weekday else newYear - weekday + 7

def isoWeeksInYear (year : Int) : Int := (isoYearStart (year + 1) - isoYearStart year) / 7

end Calendar

namespace Date

def isoYear (date : Date) : Int :=
  if isoYearStart (date.year + 1) ≤ date.dayNumber then date.year + 1
  else if isoYearStart date.year ≤ date.dayNumber then date.year
  else date.year - 1

def isoWeek (date : Date) : Int := (date.dayNumber - isoYearStart date.isoYear) / 7 + 1

def ofIsoWeek? (year week weekday : Int) : Option Date :=
  if 1 ≤ year ∧ year ≤ 9999 ∧ 1 ≤ week ∧ week ≤ isoWeeksInYear year
      ∧ 0 ≤ weekday ∧ weekday < 7 then
    ofDayNumber? (isoYearStart year + (week - 1) * 7 + weekday)
  else none

end Date

end ZonedTime
