import ZonedTime.Calendar.Basic
import ZonedTime.Error.Basic

set_option autoImplicit false

namespace ZonedTime

open Calendar

def IsDate (year month day : Int) : Prop :=
  1 ≤ year ∧ year ≤ 9999 ∧ 1 ≤ month ∧ month ≤ 12 ∧ 1 ≤ day ∧ day ≤ daysInMonth year month

instance (year month day : Int) : Decidable (IsDate year month day) := by
  unfold IsDate
  infer_instance

structure Date where
  year : Int
  month : Int
  day : Int
  real : IsDate year month day
  deriving DecidableEq

/-- Fields are held in 32 bits. -/
def fitsField (n : Int) : Bool := -2147483648 ≤ n && n < 2147483648

namespace Date

def ofYmd? (year month day : Int) : Option Date :=
  if real : IsDate year month day then some { year, month, day, real } else none

def fault (year month : Int) : Error :=
  if ¬ (1 ≤ year ∧ year ≤ 9999) then .year year
  else if ¬ (1 ≤ month ∧ month ≤ 12) then .month
  else .day

def ofFields (year month day : Int) : Except Error Date :=
  match ofYmd? year month day with
  | some date => .ok date
  | none => .error (fault year month)

def make (year month day : Int) : Except Error Date :=
  if fitsField year && fitsField month && fitsField day then ofFields year month day
  else .error .fieldWidth

def make? (year month day : Int) : Except Error (Option Date) :=
  if fitsField year && fitsField month && fitsField day then .ok (ofYmd? year month day)
  else .error .fieldWidth

def first : Date := ⟨1, 1, 1, by decide⟩

def last : Date := ⟨9999, 12, 31, by decide⟩

def isLeap (date : Date) : Bool := Calendar.isLeap date.year

def yearDay (date : Date) : Int := daysBeforeMonth date.isLeap date.month + date.day

def dayNumber (date : Date) : Int := Calendar.dayNumber date.year date.month date.day

def ofDayNumber? (n : Int) : Option Date :=
  let year := yearOfDay n
  let yearDay := n - daysBeforeYear year
  let leap := Calendar.isLeap year
  let month := monthOfYearDay leap yearDay
  ofYmd? year month (yearDay - daysBeforeMonth leap month)

def epochSecond (date : Date) : Int := (date.dayNumber - epochDay) * secondsPerDay

def addDays? (date : Date) (n : Int) : Option Date := ofDayNumber? (date.dayNumber + n)

def succ? (date : Date) : Option Date := date.addDays? 1

def pred? (date : Date) : Option Date := date.addDays? (-1)

def daysUntil (date other : Date) : Int := other.dayNumber - date.dayNumber

def daysSince (date other : Date) : Int := date.dayNumber - other.dayNumber

def yearsSince? (date other : Date) : Option Int :=
  let early := date.month < other.month || (date.month == other.month && date.day < other.day)
  let years := date.year - other.year - (if early then 1 else 0)
  if 0 ≤ years then some years else none

def lt (a b : Date) : Bool :=
  a.year < b.year
    || (a.year == b.year && (a.month < b.month || (a.month == b.month && a.day < b.day)))

def replace (date : Date) (year month day : Option Int) : Except Error Date :=
  make (year.getD date.year) (month.getD date.month) (day.getD date.day)

end Date

/-- The year that holds an epoch second, counted as the first or last year beyond either end. -/
def Calendar.yearOfEpoch (second : Int) : Int :=
  yearOfDay (min (max (second / secondsPerDay + epochDay) 1) lastDay)

end ZonedTime
