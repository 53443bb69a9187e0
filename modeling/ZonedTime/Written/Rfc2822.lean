import ZonedTime.Calendar.Names
import ZonedTime.Written.Stamp

set_option autoImplicit false

namespace ZonedTime

open Calendar Text

def Instant.toRfc2822 (instant : Instant) : Text :=
  let date := instant.wall.date
  short (weekdayName date.weekdayIndex) ++ [',', ' '] ++ two date.day ++ [' ']
    ++ short (monthName date.month) ++ [' '] ++ four date.year ++ [' ']
    ++ instant.wall.time.clockText ++ [' '] ++ Offset.minutesText false instant.offset.seconds

namespace Rfc2822

def isParenthesis (c : Char) : Bool := c == '(' || c == ')'

def commentLength? (t : Text) : Option Nat :=
  let body := t.takeWhile (!isParenthesis ·)
  if t[body.length]? = some ')' then some (body.length + 1) else none

/-- Puts a blank in place of each comment that holds no other comment; `skip` more characters
belong to a comment that has been replaced. -/
def blankComments (skip : Nat) : Text -> Text
  | [] => []
  | c :: rest =>
    match skip with
    | more + 1 => blankComments more rest
    | 0 =>
      match if c == '(' then commentLength? rest else none with
      | some length => ' ' :: blankComments length rest
      | none => c :: blankComments 0 rest

def splitWeekday : List Text -> Except Issue (Option Text × List Text)
  | first :: second :: rest =>
    if isDigits first then .ok (none, first :: second :: rest)
    else if first.length = 4 ∧ first[3]? = some ',' then .ok (some (first.take 3), second :: rest)
    else if first.length = 3 ∧ second = [','] then .ok (some first, rest)
    else if first.length = 3 ∧ second.head? = some ',' then
      .ok (some first, second.drop 1 :: rest)
    else if 4 < first.length ∧ first[3]? = some ',' then
      .ok (some (first.take 3), first.drop 4 :: second :: rest)
    else .error .invalid
  | _ => .error .tooShort

def weekday : Option Text -> Except Issue (Option Int)
  | none => .ok none
  | some name =>
    match shortWeekday? name with
    | some index => .ok (some index)
    | none => .error .invalid

def day (t : Text) : Except Issue Int :=
  if !t.isEmpty && isDigits t && t.length ≤ 2 then .ok (value t) else .error .invalid

def month (t : Text) : Except Issue Int :=
  match shortMonth? t with
  | some month => .ok month
  | none => .error .invalid

/-- Two digits mean the years 1950 to 2049, and three are counted from 1900. -/
def year (t : Text) : Except Issue Int :=
  if !isDigits t || t.length < 2 || 4 < t.length then .error .invalid
  else if t.length = 2 then .ok (value t + (if value t < 50 then 2000 else 1900))
  else if t.length = 3 then .ok (value t + 1900)
  else .ok (value t)

def time (t : Text) : Except Issue (Int × Int × Int) :=
  let pieces := splitAll (· == ':') t
  if pieces.all fun piece => piece.length == 2 && isDigits piece then
    match pieces.map value with
    | [hour, minute] => .ok (hour, minute, 0)
    | [hour, minute, second] => .ok (hour, minute, second)
    | _ => .error .invalid
  else .error .invalid

/-- Zone names of known offset, in hours; any other name is at offset zero. -/
def zones : List (Text × Int) :=
  [(ofString "EST", -5), (ofString "EDT", -4), (ofString "CST", -6), (ofString "CDT", -5),
    (ofString "MST", -7), (ofString "MDT", -6), (ofString "PST", -8), (ofString "PDT", -7)]

def offset (t : Text) : Except Issue Int :=
  if t.head? = some '+' ∨ t.head? = some '-' then
    let digits := t.drop 1
    if t.length ≠ 5 ∨ !isDigits digits then .error .invalid
    else if 59 < value (digits.drop 2) then .error .outOfRange
    else
      let size : Int := value (digits.take 2) * 3600 + value (digits.drop 2) * 60
      .ok (if t.head? = some '-' then -size else size)
  else if t.all Char.isAlpha then .ok (((zones.lookup (upper t)).getD 0) * 3600)
  else .error .invalid

def fields : List Text -> Except Issue Stamp
  | dayText :: monthText :: yearText :: rest => do
    if rest.length < 2 then throw .tooShort
    let day <- day dayText
    let month <- month monthText
    let year <- year yearText
    let (hour, minute, second) <- time rest.dropLast.flatten
    let offset <- offset (rest.getLastD [])
    return { year, month, day, hour, minute, second, nano := 0, offset }
  | _ => .error .tooShort

def scan (t : Text) : Except Issue Stamp := do
  if !isAscii t then throw .invalid
  let (weekdayText, parts) <- splitWeekday (words isBlank (blankComments 0 t))
  let weekday <- weekday weekdayText
  let stamp <- (<- fields parts).check
  match weekday with
  | none => return stamp
  | some index =>
    if weekdayOfDay (dayNumber stamp.year stamp.month stamp.day) = index then return stamp
    else throw .impossible

def parse (t : Text) : Except Error Stamp :=
  (scan t).mapError fun issue => .issue issue (some t)

end Rfc2822

def Instant.parseRfc2822 (t : Text) : Except Error Instant := do
  (<- Rfc2822.parse t).toInstant t

end ZonedTime
