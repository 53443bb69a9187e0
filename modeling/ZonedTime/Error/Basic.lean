import ZonedTime.Text.Quoted

set_option autoImplicit false

namespace ZonedTime

inductive Issue where
  | outOfRange
  | impossible
  | notEnough
  | invalid
  | tooShort
  | tooLong
  | badPattern
  deriving DecidableEq, Repr

def Issue.message : Issue -> String
  | .outOfRange => "input is out of range"
  | .impossible => "no possible date and time matching input"
  | .notEnough => "input is not enough for unique date and time"
  | .invalid => "input contains invalid characters"
  | .tooShort => "premature end of input"
  | .tooLong => "trailing input"
  | .badPattern => "bad or unsupported format string"

inductive Part where
  | date
  | time
  | offset
  | zone
  deriving DecidableEq, Repr

inductive RuleFault where
  | nonAscii
  | missingName
  | badName
  | digitsExpected (rest : Text)
  | twoDigitsExpected (rest : Text)
  | notNumeral (digits : Text)
  | hourRange (hours : Nat)
  | sixtyRange (digits : Text)
  | offsetRange
  | daylightOffsetRange
  | expected (c : Char)
  | badRule
  | julianDayRange (n : Nat)
  | yearDayRange (n : Nat)
  | trailing (rest : Text)
  deriving DecidableEq, Repr

inductive DataFault where
  | header
  | truncated
  | noTypes
  | typeIndex
  | notText
  deriving DecidableEq, Repr

inductive Error where
  /-- A calendar or clock field is checked for 32 bits before its range is looked at. -/
  | fieldWidth
  | year (n : Int)
  | month
  | day
  | hour
  | minute
  | second
  | microsecond
  | nanosecond (n : Int)
  | nanoseconds (n : Int)
  | leapSecond
  | timestamp
  | offset (n : Int)
  | fractionalOffset
  | digits (n : Int)
  | dayCount
  | unit (name : Text)
  | duration
  | result
  | utcReading
  | localReading
  | shiftedDay
  | calendarEnd
  | noNextDay
  | notFinite
  | notANumber
  | tooManyDays
  | unreadable (input : Text)
  | issue (issue : Issue) (input : Option Text)
  | missing (part : Part)
  | layout
  | subsecondOffset
  | naive
  | aware
  | disambiguation (setting : Text)
  | skipped
  | repeated
  | noStart (day : Text)
  | zoneOffset (seconds : Int) (zone : Text)
  | rule (fault : RuleFault)
  | data (fault : DataFault)
  | unknownZone (key : Text)
  | relativePath
  | noFile
  | packedSize
  | unsupported
  deriving DecidableEq, Repr

end ZonedTime
