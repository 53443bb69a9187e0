import ZonedTime.Calendar.Week
import ZonedTime.Clock.Time
import ZonedTime.Text.Basic

set_option autoImplicit false

namespace ZonedTime

inductive Slot where
  | year
  | century
  | yearOfCentury
  | isoYear
  | isoCentury
  | isoYearOfCentury
  | month
  | weekFromSunday
  | weekFromMonday
  | isoWeek
  | weekday
  | yearDay
  | day
  | half
  | hourOfHalf
  | minute
  | second
  | nanosecond
  | timestamp
  | offset
  deriving DecidableEq, Repr

namespace Slot

def name : Slot -> Text
  | year => Text.ofString "year"
  | century => Text.ofString "year_div_100"
  | yearOfCentury => Text.ofString "year_mod_100"
  | isoYear => Text.ofString "isoyear"
  | isoCentury => Text.ofString "isoyear_div_100"
  | isoYearOfCentury => Text.ofString "isoyear_mod_100"
  | month => Text.ofString "month"
  | weekFromSunday => Text.ofString "week_from_sun"
  | weekFromMonday => Text.ofString "week_from_mon"
  | isoWeek => Text.ofString "isoweek"
  | weekday => Text.ofString "weekday"
  | yearDay => Text.ofString "ordinal"
  | day => Text.ofString "day"
  | half => Text.ofString "hour_div_12"
  | hourOfHalf => Text.ofString "hour_mod_12"
  | minute => Text.ofString "minute"
  | second => Text.ofString "second"
  | nanosecond => Text.ofString "nanosecond"
  | timestamp => Text.ofString "timestamp"
  | offset => Text.ofString "offset"

def all : List Slot :=
  [year, century, yearOfCentury, isoYear, isoCentury, isoYearOfCentury, month, weekFromSunday,
    weekFromMonday, isoWeek, weekday, yearDay, day, half, hourOfHalf, minute, second, nanosecond,
    timestamp, offset]

def ofName? (name : Text) : Option Slot := all.find? fun slot => slot.name == name

end Slot

structure Fields where
  get : Slot -> Option Int

namespace Fields

def empty : Fields := ⟨fun _ => none⟩

def put (fields : Fields) (slot : Slot) (value : Int) : Fields :=
  ⟨fun other => if other = slot then some value else fields.get other⟩

def set (fields : Fields) (slot : Slot) (value : Int) : Except Issue Fields :=
  match fields.get slot with
  | none => .ok (fields.put slot value)
  | some old => if old = value then .ok fields else .error .impossible

def setAll (fields : Fields) : List (Slot × Int) -> Except Issue Fields
  | [] => .ok fields
  | (slot, value) :: rest => do (<- fields.set slot value).setAll rest

def shown (fields : Fields) : Text :=
  let stated := Slot.all.filterMap fun slot =>
    (fields.get slot).map fun value => slot.name ++ '=' :: Text.decimalInt value
  Text.ofString "Parsed(" ++ (Text.ofString ", ").intercalate stated ++ [')']

def agrees (part : Option Int) (value : Int) : Bool :=
  match part with
  | some stated => stated == value
  | none => true

/-- A year from itself or from its last two digits and its century, 1970 to 2069 without one. -/
def resolveYear (full century rest : Option Int) : Except Issue (Option Int) :=
  match full, rest, century with
  | some year, _, _ =>
    if agrees century (year / 100) && agrees rest (year % 100) then .ok (some year)
    else .error .impossible
  | none, some rest, some century => .ok (some (century * 100 + rest))
  | none, some rest, none => .ok (some (rest + if rest < 70 then 2000 else 1900))
  | none, none, some _ => .error .notEnough
  | none, none, none => .ok none

def year (fields : Fields) : Except Issue (Option Int) :=
  resolveYear (fields.get .year) (fields.get .century) (fields.get .yearOfCentury)

def isoYear (fields : Fields) : Except Issue (Option Int) :=
  resolveYear (fields.get .isoYear) (fields.get .isoCentury) (fields.get .isoYearOfCentury)

def issue {α : Type} (cause : Issue) : Except Error α := .error (.issue cause none)

def orOutOfRange : Option Date -> Except Error Date
  | some date => .ok date
  | none => issue .outOfRange

def dateOfYmd (year month day : Int) : Except Error Date := do
  orOutOfRange (<- Date.make? year month day)

def dateOfYearDay (year yearDay : Int) : Except Error Date :=
  if Calendar.daysInYear year < yearDay then issue .outOfRange
  else do
    let newYear <- dateOfYmd year 1 1
    match newYear.addDays? (yearDay - 1) with
    | some date => return date
    | none => throw .calendarEnd

def dateOfWeek (year week weekday start : Int) : Except Error Date := do
  let _ <- dateOfYmd year 1 1
  orOutOfRange (Date.ofWeekOfYear? year week weekday start)

def builtDate (fields : Fields) (year isoYear : Option Int) : Except Error (Option Date) :=
  match year, fields.get .month, fields.get .yearDay with
  | some year, some month, _ =>
    match fields.get .day with
    | some day => return some (<- dateOfYmd year month day)
    | none => issue .notEnough
  | some year, none, some yearDay => return some (<- dateOfYearDay year yearDay)
  | _, _, _ =>
    match fields.get .weekday with
    | none => return none
    | some weekday =>
      match year, fields.get .weekFromSunday, fields.get .weekFromMonday with
      | some year, some week, _ => return some (<- dateOfWeek year week weekday 6)
      | some year, none, some week => return some (<- dateOfWeek year week weekday 0)
      | _, _, _ =>
        match isoYear, fields.get .isoWeek with
        | some isoYear, some week =>
          return some (<- orOutOfRange (Date.ofIsoWeek? isoYear week weekday))
        | _, _ => return none

def matchesDate (fields : Fields) (year isoYear : Option Int) (date : Date) : Bool :=
  agrees year date.year && agrees (fields.get .weekday) date.weekdayIndex
    && agrees (fields.get .yearDay) date.yearDay && agrees isoYear date.isoYear
    && agrees (fields.get .isoWeek) date.isoWeek

def ofIssue {α : Type} (result : Except Issue α) : Except Error α :=
  result.mapError fun cause => .issue cause none

def fieldDate (fields : Fields) : Except Error (Option Date) := do
  let year <- ofIssue fields.year
  let isoYear <- ofIssue fields.isoYear
  match <- fields.builtDate year isoYear with
  | none => return none
  | some date =>
    if fields.matchesDate year isoYear date then return some date else issue .impossible

def stampSecond (fields : Fields) (timestamp : Int) : Int :=
  timestamp + (fields.get .offset).getD 0

def stampDate (fields : Fields) (timestamp : Int) : Except Error Date :=
  orOutOfRange
    (Date.ofDayNumber? (fields.stampSecond timestamp / 86400 + Calendar.epochDay))

def date (fields : Fields) : Except Error Date := do
  let built <- fields.fieldDate
  match fields.get .timestamp, built with
  | some timestamp, built =>
    let stamped <- fields.stampDate timestamp
    if built.all (· == stamped) then return stamped else issue .impossible
  | none, some date => return date
  | none, none => issue .notEnough

/-- A time as stated, in which no field has been held against its range. -/
structure Clock where
  hour : Int
  minute : Int
  second : Int
  nano : Int
  deriving DecidableEq, Repr

def clockOf (hour minute second nano : Int) : Clock :=
  if second = 60 then ⟨hour, minute, 59, nano + 1000000000⟩ else ⟨hour, minute, second, nano⟩

def fieldClock (fields : Fields) : Except Issue (Option Clock) :=
  match fields.get .half, fields.get .hourOfHalf, fields.get .minute with
  | none, none, none => if (fields.get .second).isSome then .error .notEnough else .ok none
  | some half, some hour, some minute =>
    .ok (some (clockOf (half * 12 + hour) minute ((fields.get .second).getD 0)
      ((fields.get .nanosecond).getD 0)))
  | _, _, _ => .error .notEnough

def stampClock (fields : Fields) (timestamp : Int) : Except Error Clock := do
  let _ <- fields.stampDate timestamp
  let second := fields.stampSecond timestamp % 86400
  return ⟨second / 3600, second % 3600 / 60, second % 60, (fields.get .nanosecond).getD 0⟩

def Clock.sameSecond (a b : Clock) : Bool :=
  a.hour == b.hour && a.minute == b.minute && a.second == b.second

def clock (fields : Fields) : Except Error Clock := do
  let built <- ofIssue fields.fieldClock
  match fields.get .timestamp, built with
  | some timestamp, built =>
    let stamped <- fields.stampClock timestamp
    match built with
    | some clock => if clock.sameSecond stamped then return clock else issue .impossible
    | none => return stamped
  | none, some clock => return clock
  | none, none => issue .notEnough

def time (fields : Fields) : Except Error Time := do
  let clock <- fields.clock
  Time.ofClock clock.hour clock.minute clock.second clock.nano

end Fields

end ZonedTime
