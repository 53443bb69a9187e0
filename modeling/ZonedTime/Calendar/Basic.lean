/-!
The proleptic Gregorian calendar for every year, positive or not: leap years, lengths of months
and years, and the count of days from 0001-01-01, which is day 1.

`yearOfDay` and `monthOfYearDay` invert `daysBeforeYear` and `daysBeforeMonth`.
-/

set_option autoImplicit false

namespace ZonedTime.Calendar

def isLeap (year : Int) : Bool :=
  year % 4 == 0 && (year % 100 != 0 || year % 400 == 0)

def daysInMonth (year month : Int) : Int :=
  if month = 2 then (if isLeap year then 29 else 28)
  else if month = 4 ∨ month = 6 ∨ month = 9 ∨ month = 11 then 30
  else 31

def daysInYear (year : Int) : Int := if isLeap year then 366 else 365

def daysBeforeYear (year : Int) : Int :=
  365 * (year - 1) + (year - 1) / 4 - (year - 1) / 100 + (year - 1) / 400

def daysBeforeMonth (leap : Bool) (month : Int) : Int :=
  (367 * month - 362) / 12 - (if month ≤ 2 then 0 else if leap then 1 else 2)

def dayNumber (year month day : Int) : Int :=
  daysBeforeYear year + daysBeforeMonth (isLeap year) month + day

-- The mean year of 146097 / 400 days is never more than one year away.
def yearOfDay (day : Int) : Int :=
  let guess := 400 * (day - 1) / 146097 + 1
  if day ≤ daysBeforeYear guess then guess - 1
  else if daysBeforeYear (guess + 1) < day then guess + 1
  else guess

def monthOfYearDay (leap : Bool) (yearDay : Int) : Int :=
  let before := yearDay - 1
  let shift := if before < 59 + (if leap then 1 else 0) then 0 else if leap then 1 else 2
  (12 * (before + shift) + 373) / 367

def epochDay : Int := 719163

def lastDay : Int := 3652059

def secondsPerDay : Int := 86400

end ZonedTime.Calendar
