import ZonedTime.Error.Basic

set_option autoImplicit false

namespace ZonedTime

open Text (ofString decimal decimalInt)

def Part.message : Part -> Text
  | .date => ofString "The format requires a date, which this value doesn't have"
  | .time => ofString "The format requires a time, which this value doesn't have"
  | .offset => ofString "The format requires an offset, which this value doesn't have"
  | .zone => ofString "The format requires a timezone, which this value doesn't have"

def RuleFault.message : RuleFault -> Text
  | .nonAscii => ofString "Invalid POSIX TZ string: non-ASCII characters found"
  | .missingName => ofString "Invalid TZ string: missing or empty name"
  | .badName => ofString "Invalid TZ string: invalid name"
  | .digitsExpected rest =>
    ofString "Invalid TZ string: expected digits, got '" ++ rest ++ ofString "'"
  | .twoDigitsExpected rest =>
    ofString "Invalid TZ string: expected 2 digits, got '" ++ rest ++ ofString "'"
  | .notNumeral digits =>
    ofString "invalid literal for int() with base 10: " ++ Text.Quoted.encode digits
  | .hourRange hours => ofString "Invalid TZ string: hour out of range: " ++ decimal hours
  | .sixtyRange digits =>
    ofString "Invalid TZ string: expected 00-59, got '" ++ digits ++ ofString "'"
  | .offsetRange => ofString "Invalid POSIX TZ string: offset out of range"
  | .daylightOffsetRange => ofString "Invalid POSIX TZ string: DST offset out of range"
  | .expected c => ofString "Invalid TZ string: expected '" ++ [c, '\'']
  | .badRule => ofString "Invalid DST rule"
  | .julianDayRange n => ofString "Invalid Julian day of year: " ++ decimal n
  | .yearDayRange n => ofString "Invalid day of year: " ++ decimal n
  | .trailing rest =>
    ofString "Invalid POSIX TZ string: unexpected trailing '" ++ rest ++ ofString "'"

def DataFault.message : DataFault -> Option Text
  | .header => some (ofString "Invalid header value")
  | .truncated => some (ofString "Unexpected end of TZif data")
  | .noTypes => some (ofString "No offset data in file")
  | .typeIndex => some (ofString "Invalid transition type index")
  | .notText => none

def Error.message : Error -> Option Text
  | .fieldWidth => none
  | .year n => some (ofString "year " ++ decimalInt n ++ ofString " is out of range")
  | .month => some (ofString "month must be in 1..12")
  | .day => some (ofString "day is out of range for month")
  | .hour => some (ofString "hour must be in 0..23")
  | .minute => some (ofString "minute must be in 0..59")
  | .second => some (ofString "second must be in 0..59")
  | .microsecond => some (ofString "microsecond must be in 0..999999")
  | .nanosecond n => some (ofString "nanosecond out of range: " ++ decimalInt n)
  | .nanoseconds n => some (ofString "nanoseconds out of range: " ++ decimalInt n)
  | .leapSecond => some (ofString "A leap second is only valid at second 59")
  | .timestamp => some (ofString "timestamp out of range")
  | .offset n => some (ofString "offset out of range: " ++ decimalInt n)
  | .fractionalOffset => some (ofString "offset must be a whole number of seconds")
  | .digits n => some (ofString "Invalid number of digits: " ++ decimalInt n)
  | .dayCount => some (ofString "Number of days must not be negative")
  | .unit name => some (ofString "Invalid unit: " ++ Text.Quoted.encode name)
  | .duration => some (ofString "Duration out of range")
  | .result => some (ofString "Result out of range")
  | .utcReading => some (ofString "Resulting instant out of range")
  | .localReading => some (ofString "Local date and time out of range")
  | .shiftedDay => some (ofString "Day out of range")
  | .calendarEnd => none
  | .noNextDay => some (ofString "There is no next day")
  | .notFinite => none
  | .notANumber => none
  | .tooManyDays => none
  | .unreadable input => some (ofString "Invalid format: " ++ Text.Quoted.encode input)
  | .issue why none => some (ofString why.message)
  | .issue why (some input) =>
    some (ofString "Invalid format: " ++ Text.Quoted.encode input ++ ofString " ("
      ++ ofString why.message ++ ofString ")")
  | .missing part => some part.message
  | .layout => none
  | .subsecondOffset => some (ofString "Sub-second offsets are not supported")
  | .naive =>
    some (ofString "Cannot create Instant from a naive datetime. "
      ++ ofString "Use LocalDateTime.from_py_datetime() for this.")
  | .aware => none
  | .disambiguation setting =>
    some (ofString "Invalid disambiguate setting: " ++ Text.Quoted.encode setting)
  | .skipped => some (ofString "The local time is skipped in this timezone")
  | .repeated => some (ofString "The local time is repeated in this timezone")
  | .noStart place =>
    some (ofString "No valid local time found at the start of " ++ place)
  | .zoneOffset seconds zone =>
    some (ofString "Offset of " ++ decimalInt seconds ++ ofString "s out of range in " ++ zone)
  | .rule fault => some fault.message
  | .data fault => fault.message
  | .unknownZone key =>
    some (ofString "No time zone found for key: " ++ Text.Quoted.encode key)
  | .relativePath => some (ofString "tzpaths must be absolute paths")
  | .noFile => none
  | .unsupported => none
  | .packedSize => none

end ZonedTime
