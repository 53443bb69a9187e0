import ZonedTime.Pattern.Item

set_option autoImplicit false

namespace ZonedTime.Pattern

def Padding.mark : Padding -> Char
  | .none => '-'
  | .zero => '0'
  | .space => '_'

def Number.label : Number -> String
  | .year => "YEAR"
  | .century => "YEAR_DIV_100"
  | .yearOfCentury => "YEAR_MOD_100"
  | .isoYear => "ISO_YEAR"
  | .isoYearOfCentury => "ISO_YEAR_MOD_100"
  | .month => "MONTH"
  | .day => "DAY"
  | .weekFromSunday => "WEEK_FROM_SUN"
  | .weekFromMonday => "WEEK_FROM_MON"
  | .isoWeek => "ISO_WEEK"
  | .daysFromSunday => "NUM_DAYS_FROM_SUN"
  | .weekdayFromMonday => "WEEKDAY_FROM_MON"
  | .yearDay => "ORDINAL"
  | .hour => "HOUR"
  | .hour12 => "HOUR12"
  | .minute => "MINUTE"
  | .second => "SECOND"
  | .nanosecond => "NANOSECOND"
  | .timestamp => "TIMESTAMP"

def Form.label : Form -> String
  | .shortMonth => "SHORT_MONTH_NAME"
  | .longMonth => "LONG_MONTH_NAME"
  | .shortWeekday => "SHORT_WEEKDAY_NAME"
  | .longWeekday => "LONG_WEEKDAY_NAME"
  | .lowerHalf => "LOWER_AMPM"
  | .upperHalf => "UPPER_AMPM"
  | .fraction => "NANOSECOND"
  | .digits count point => "NANOSECOND" ++ toString count ++ (if point then "" else "_NO_DOT")
  | .zoneName => "TIMEZONE_NAME"
  | .offset colon => if colon then "TIMEZONE_OFFSET_COLON" else "TIMEZONE_OFFSET"
  | .rfc3339 => "RFC3339"

end ZonedTime.Pattern
