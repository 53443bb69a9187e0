import ZonedTime.Written.Stamp

set_option autoImplicit false

namespace ZonedTime

def Instant.toRfc3339 (instant : Instant) (precision : Precision) (useZ : Bool) : Text :=
  instant.wall.date.text ++ 'T' :: instant.wall.time.textTo precision
    ++ (if useZ && instant.offset.seconds == 0 then ['Z']
        else Offset.minutesText true instant.offset.seconds)

namespace Rfc3339

def isSeparator (c : Char) : Bool := c == 'T' || c == 't' || c == ' '

def fractionRun : Scan Int := fun t =>
  let run := t.takeWhile Char.isDigit
  if run.isEmpty then .error (if t.isEmpty then .tooShort else .invalid)
  else if 9 < run.length then .error .invalid
  else .ok (Scan.nanosOfDigits run, t.drop run.length)

def fraction : Scan Int := do
  if (<- Scan.optional '.') then fractionRun else return 0

def hoursAndMinutes (negative : Bool) : Scan (Bool × Int × Int) := do
  let hours <- Scan.number 2
  Scan.char ':'
  let minutes <- Scan.number 2
  return (negative, hours, minutes)

def offset : Scan (Bool × Int × Int) := do
  let c <- Scan.one fun c => c == 'Z' || c == 'z' || c == '+' || c == '-'
  if c == 'Z' || c == 'z' then return (false, 0, 0) else hoursAndMinutes (c == '-')

/-- A text of the right shape: a reading with an offset of zero, and its offset. -/
def shape : Scan (Stamp × Bool × Int × Int) := do
  let year <- Scan.number 4
  Scan.char '-'
  let month <- Scan.number 2
  Scan.char '-'
  let day <- Scan.number 2
  let _ <- Scan.one isSeparator
  let hour <- Scan.number 2
  Scan.char ':'
  let minute <- Scan.number 2
  Scan.char ':'
  let second <- Scan.number 2
  let nano <- fraction
  let offset <- offset
  return ({ year, month, day, hour, minute, second, nano, offset := 0 }, offset)

def scan (t : Text) : Except Issue Stamp := do
  if !Text.isAscii t then throw .invalid
  let ((stamp, negative, hours, minutes), rest) <- shape.run t
  if 59 < minutes then throw .outOfRange
  if !rest.isEmpty then throw .tooLong
  let size := hours * 3600 + minutes * 60
  { stamp with offset := if negative then -size else size }.check

def parse (t : Text) : Except Error Stamp :=
  (scan t).mapError fun issue => .issue issue (some t)

end Rfc3339

def Instant.parseRfc3339 (t : Text) : Except Error Instant := do
  (<- Rfc3339.parse t).toInstant t

end ZonedTime
