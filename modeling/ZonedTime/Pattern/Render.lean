import ZonedTime.Calendar.Names
import ZonedTime.Instant.Day
import ZonedTime.Pattern.Item

set_option autoImplicit false

namespace ZonedTime

structure Subject where
  date : Option Date
  time : Option Time
  offset : Option Offset
  zone : Option Text

namespace Subject

def needDate (subject : Subject) : Except Error Date :=
  match subject.date with
  | some date => .ok date
  | none => .error (.missing .date)

def needTime (subject : Subject) : Except Error Time :=
  match subject.time with
  | some time => .ok time
  | none => .error (.missing .time)

def needOffset (subject : Subject) : Except Error Offset :=
  match subject.offset with
  | some offset => .ok offset
  | none => .error (.missing .offset)

def needZone (subject : Subject) : Except Error Text :=
  match subject.zone with
  | some zone => .ok zone
  | none => .error (.missing .zone)

end Subject

def Date.subject (date : Date) : Subject := ⟨some date, none, none, none⟩

def Time.subject (time : Time) : Subject := ⟨none, some time, none, none⟩

def Reading.subject (reading : Reading) : Subject :=
  ⟨some reading.date, some reading.time, none, none⟩

def Instant.subject (instant : Instant) : Except Error Subject := do
  let name <- instant.zone.abbreviation instant.utc
  return ⟨some instant.wall.date, some instant.wall.time, some instant.offset, some name⟩

def Day.subject (day : Day) : Subject := ⟨some day.date, none, none, some day.zone.text⟩

namespace Pattern

def dateNumber (date : Date) : Number -> Int
  | .year => date.year
  | .century => date.year / 100
  | .yearOfCentury => date.year % 100
  | .isoYear => date.isoYear
  | .isoYearOfCentury => date.isoYear % 100
  | .month => date.month
  | .day => date.day
  | .weekFromSunday => date.weekOfYear 6
  | .weekFromMonday => date.weekOfYear 0
  | .isoWeek => date.isoWeek
  | .daysFromSunday => (date.weekdayIndex + 1) % 7
  | .weekdayFromMonday => date.weekdayIndex + 1
  | _ => date.yearDay

def timeNumber (time : Time) : Number -> Int
  | .hour => time.hour
  | .hour12 => if time.hour % 12 = 0 then 12 else time.hour % 12
  | .minute => time.minute
  | .second => time.shownSecond
  | _ => time.nano % 1000000000

def Number.ofTime : Number -> Bool
  | .hour | .hour12 | .minute | .second | .nanosecond => true
  | _ => false

-- A reading without an offset counts as one in UTC.
def timestamp (subject : Subject) : Except Error Int := do
  let date <- subject.needDate
  let time <- subject.needTime
  let offset := match subject.offset with
    | some offset => offset.seconds
    | none => 0
  return (Reading.mk date time).epochSecond - offset

def numberOf (subject : Subject) (number : Number) : Except Error Int :=
  if number = .timestamp then timestamp subject
  else if number.ofTime then do return timeNumber (<- subject.needTime) number
  else do return dateNumber (<- subject.needDate) number

/-- The digits with their padding; a minus sign comes before both. -/
def numberText (width : Nat) (padding : Padding) (n : Int) : Text :=
  let digits := Text.decimal n.natAbs
  let size := match padding with
    | .none => digits
    | .zero => digits.leftpad width '0'
    | .space => digits.leftpad width ' '
  if n < 0 then '-' :: size else size

def halfText (time : Time) (morning afternoon : String) : Text :=
  Text.ofString (if 12 ≤ time.hour then afternoon else morning)

def rfc3339Text (date : Date) (time : Time) (offset : Offset) : Text :=
  date.text ++ 'T' :: time.text ++ Offset.minutesText true offset.seconds

def formText (subject : Subject) : Form -> Except Error Text
  | .shortMonth => do return Calendar.short (Calendar.monthName (<- subject.needDate).month)
  | .longMonth => do return Calendar.monthName (<- subject.needDate).month
  | .shortWeekday => do
    return Calendar.short (Calendar.weekdayName (<- subject.needDate).weekdayIndex)
  | .longWeekday => do return Calendar.weekdayName (<- subject.needDate).weekdayIndex
  | .lowerHalf => do return halfText (<- subject.needTime) "am" "pm"
  | .upperHalf => do return halfText (<- subject.needTime) "AM" "PM"
  | .fraction => do return ZonedTime.fraction .auto (<- subject.needTime).nano
  | .digits count point => do
    let text := fractionDigits count (<- subject.needTime).nano
    return if point then text else text.drop 1
  | .zoneName => subject.needZone
  | .offset colon => do return Offset.fullText colon (<- subject.needOffset).seconds
  | .rfc3339 => do
    let date <- subject.needDate
    let time <- subject.needTime
    let offset <- subject.needOffset
    return rfc3339Text date time offset

def itemText (subject : Subject) : Item -> Except Error Text
  | .literal text => .ok text
  | .blank text => .ok text
  | .number number padding => do
    return numberText number.width padding (<- numberOf subject number)
  | .form form => formText subject form

def render (subject : Subject) : List Item -> Except Error Text
  | [] => .ok []
  | item :: rest => do
    let head <- itemText subject item
    let tail <- render subject rest
    return head ++ tail

def format (subject : Subject) (pattern : Text) : Except Error Text := do
  let items <- compile pattern
  render subject items

def shown (t : Text) : Text := Text.ofString "DelayedFormat(" ++ Text.Quoted.encode t ++ [')']

end Pattern

def Date.format (date : Date) (pattern : Text) : Except Error Text :=
  Pattern.format date.subject pattern

def Time.format (time : Time) (pattern : Text) : Except Error Text :=
  Pattern.format time.subject pattern

def Reading.format (reading : Reading) (pattern : Text) : Except Error Text :=
  Pattern.format reading.subject pattern

def Instant.format (instant : Instant) (pattern : Text) : Except Error Text := do
  Pattern.format (<- instant.subject) pattern

def Day.format (day : Day) (pattern : Text) : Except Error Text :=
  Pattern.format day.subject pattern

end ZonedTime
