import ZonedTime.Calendar.Date

set_option autoImplicit false

namespace ZonedTime

open Calendar

inductive ChangeDay where
  | last (month weekday : Int)
  | nth (month nth weekday : Int)
  /-- The day of the year from 1, in a common year no later than December 31. -/
  | yearDay (n : Int)
  /-- The day of the year from 1 when February 29 is never counted. -/
  | julian (n : Int)
  deriving DecidableEq, Repr

namespace ChangeDay

def sundayIndex (dayNumber : Int) : Int := dayNumber % 7

def anchor (year : Int) : ChangeDay -> Int × Int
  | last month _ => (month, daysInMonth year month)
  | nth month _ _ => (month, 1)
  | yearDay _ => (1, 1)
  | julian _ => (1, 1)

def shift (year start : Int) : ChangeDay -> Int
  | last _ weekday => -((sundayIndex start - weekday) % 7)
  | nth _ n weekday => (weekday - sundayIndex start) % 7 + 7 * (n - 1)
  | yearDay n => min n (daysInYear year) - 1
  | julian n => n + (if isLeap year && 59 < n then 1 else 0) - 1

def dayNumber (rule : ChangeDay) (year : Int) : Int :=
  let start := Calendar.dayNumber year (rule.anchor year).1 (rule.anchor year).2
  start + rule.shift year start

def date (rule : ChangeDay) (year : Int) : Except Error Date := do
  let _ <- Date.make year (rule.anchor year).1 (rule.anchor year).2
  match Date.ofDayNumber? (rule.dayNumber year) with
  | some date => return date
  | none => throw .calendarEnd

open Text (ofString decimalInt)

def shown : ChangeDay -> Text
  | last month weekday =>
    ofString "LastWeekday(" ++ decimalInt month ++ ofString ", " ++ decimalInt weekday ++ [')']
  | nth month n weekday =>
    ofString "NthWeekday(" ++ decimalInt month ++ ofString ", " ++ decimalInt n ++ ofString ", "
      ++ decimalInt weekday ++ [')']
  | yearDay n => ofString "DayOfYear(" ++ decimalInt n ++ [')']
  | julian n => ofString "JulianDayOfYear(" ++ decimalInt n ++ [')']

end ChangeDay

structure Change where
  day : ChangeDay
  time : Int
  deriving DecidableEq, Repr

namespace Change

def localSecond (change : Change) (year : Int) : Int :=
  (change.day.dayNumber year - epochDay) * secondsPerDay + change.time

def shown (change : Change) : Text :=
  ['('] ++ change.day.shown ++ Text.ofString ", " ++ Text.decimalInt change.time ++ [')']

end Change

end ZonedTime
