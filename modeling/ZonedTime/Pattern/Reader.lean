import ZonedTime.Pattern.Fields
import ZonedTime.Pattern.Render
import ZonedTime.Text.Expr
import ZonedTime.Written.Rfc3339

set_option autoImplicit false

namespace ZonedTime.Pattern

abbrev Gather := StateT Text (Except Error)

def scanned {α : Type} (scan : Scan α) : Gather α := fun t =>
  (scan.run t).mapError fun cause => .issue cause none

def literalText (expected : Text) : Scan Unit := fun t =>
  if expected.isPrefixOf t then .ok ((), t.drop expected.length)
  else if t.length < expected.length then .error .tooShort
  else .error .invalid

def skip (accepts : Char -> Bool) : Scan Unit := fun t => .ok ((), t.dropWhile accepts)

def signedNumber : Scan Int := do
  let negative <- Scan.optional '-'
  if !negative then
    let _ <- Scan.optional '+'
  let size : Int := Text.value (<- Scan.digits 1 20)
  return if negative then -size else size

def nanoseconds (least most : Nat) : Scan Int := do
  return Scan.nanosOfDigits (<- Scan.digits least most)

def numberValue : Number -> Scan Int
  | .timestamp => signedNumber
  | .nanosecond => nanoseconds 1 9
  | number => do return Text.value (<- Scan.digits 1 number.width)

def inRange (low high value : Int) (stated : List (Slot × Int)) :
    Except Issue (List (Slot × Int)) :=
  if low ≤ value ∧ value ≤ high then .ok stated else .error .outOfRange

def numberFields (value : Int) : Number -> Except Issue (List (Slot × Int))
  | .year => inRange 1 9999 value [(.year, value)]
  | .century => inRange 0 99 value [(.century, value)]
  | .yearOfCentury => inRange 0 99 value [(.yearOfCentury, value)]
  | .isoYear => inRange 1 9999 value [(.isoYear, value)]
  | .isoYearOfCentury => inRange 0 99 value [(.isoYearOfCentury, value)]
  | .month => inRange 1 12 value [(.month, value)]
  | .day => inRange 1 31 value [(.day, value)]
  | .weekFromSunday => inRange 0 53 value [(.weekFromSunday, value)]
  | .weekFromMonday => inRange 0 53 value [(.weekFromMonday, value)]
  | .isoWeek => inRange 1 53 value [(.isoWeek, value)]
  | .daysFromSunday => inRange 0 6 value [(.weekday, (value - 1) % 7)]
  | .weekdayFromMonday => inRange 1 7 value [(.weekday, value - 1)]
  | .yearDay => inRange 1 366 value [(.yearDay, value)]
  | .hour => inRange 0 23 value [(.half, value / 12), (.hourOfHalf, value % 12)]
  | .hour12 => inRange 1 12 value [(.hourOfHalf, value % 12)]
  | .minute => inRange 0 59 value [(.minute, value)]
  | .second => inRange 0 60 value [(.second, value)]
  | .nanosecond => .ok [(.nanosecond, value)]
  | .timestamp => .ok [(.timestamp, value)]

def number (number : Number) (padding : Padding) : Scan (List (Slot × Int)) := do
  if padding = .space then skip (· == ' ')
  let value <- numberValue number
  numberFields value number

/-- The length in lower case, where a capital I with a dot becomes two characters. -/
def lowerLength (t : Text) : Nat := t.length + t.count '\u0130'

def name (names : List Text) : Scan Int := fun t =>
  let start := t.take 3
  match Calendar.shortIndex? names start with
  | some index =>
    let rest := (names.getD index []).drop 3
    let after := t.drop 3
    if Text.lower (after.take rest.length) = Text.lower rest then
      .ok (index, after.drop rest.length)
    else .ok (index, after)
  | none => if lowerLength start < 3 then .error .tooShort else .error .invalid

def half : Scan Int := fun t =>
  let pair := t.take 2
  if lowerLength pair < 2 then .error .tooShort
  else if Text.lower pair = Text.ofString "am" then .ok (0, t.drop 2)
  else if Text.lower pair = Text.ofString "pm" then .ok (1, t.drop 2)
  else .error .invalid

def offset : Scan Int := do
  let sign <- Scan.one fun c => c == '+' || c == '-'
  let hours <- Scan.number 2
  let _ <- Scan.optional ':'
  let minutes <- Scan.number 2
  if 59 < minutes ∨ 23 < hours then Scan.fail .outOfRange
  let size := hours * 3600 + minutes * 60
  return if sign == '-' then -size else size

section

open Text.Expr

def fractionExpr : Text.Expr := times 0 1 (char '.' ++ times 1 8 (one Char.isDigit))

def offsetExpr : Text.Expr :=
  either (among "Zz") (among "+-" ++ digits 2 ++ char ':' ++ digits 2)

def stampExpr : Text.Expr :=
  digits 4 ++ char '-' ++ digits 2 ++ char '-' ++ digits 2 ++ among "Tt "
    ++ digits 2 ++ char ':' ++ digits 2 ++ char ':' ++ digits 2 ++ fractionExpr ++ offsetExpr

end

def rfc3339 : Gather (List (Slot × Int)) := fun t => do
  match stampExpr.rest? t with
  | none => throw (.issue .invalid none)
  | some rest =>
    let stamp <- Rfc3339.parse (t.take (t.length - rest.length))
    let leap := 1000000000 ≤ stamp.nano
    return (
      [(.year, stamp.year), (.month, stamp.month), (.day, stamp.day), (.half, stamp.hour / 12),
        (.hourOfHalf, stamp.hour % 12), (.minute, stamp.minute),
        (.second, if leap then 60 else stamp.second),
        (.nanosecond, if leap then stamp.nano - 1000000000 else stamp.nano),
        (.offset, stamp.offset)], rest)

def fractionAfterPoint : Scan (List (Slot × Int)) := do
  if (<- Scan.optional '.') then return [(.nanosecond, <- nanoseconds 1 9)] else return []

def fixedDigits (count : Nat) (point : Bool) : Scan (List (Slot × Int)) := do
  if point then Scan.char '.'
  return [(.nanosecond, <- nanoseconds count count)]

def form : Form -> Gather (List (Slot × Int))
  | .shortMonth | .longMonth =>
    scanned do return [(.month, (<- name Calendar.monthNames) + 1)]
  | .shortWeekday | .longWeekday =>
    scanned do return [(.weekday, <- name Calendar.weekdayNames)]
  | .lowerHalf | .upperHalf => scanned do return [(.half, <- half)]
  | .fraction => scanned fractionAfterPoint
  | .digits count point => scanned (fixedDigits count point)
  | .zoneName => scanned do
    skip fun c => !Text.isBlank c
    return []
  | .offset _ => scanned do return [(.offset, <- offset)]
  | .rfc3339 => rfc3339

def item : Item -> Gather (List (Slot × Int))
  | .literal text => scanned do
    literalText text
    return []
  | .blank _ => scanned do
    skip Text.isBlank
    return []
  | .number kind padding => scanned (number kind padding)
  | .form kind => form kind

def gather (fields : Fields) : List Item -> Gather Fields
  | [] => return fields
  | first :: rest => do
    let stated <- item first
    let fields <- Fields.ofIssue (fields.setAll stated)
    gather fields rest

def read (items : List Item) (t : Text) : Except Error Fields := do
  let (fields, rest) <- (gather .empty items).run t
  if rest.isEmpty then return fields else throw (.issue .tooLong none)

def parse (t pattern : Text) : Except Error Fields := do
  let items <- compile pattern
  read items t

end ZonedTime.Pattern

namespace ZonedTime

def Fields.reading (fields : Fields) : Except Error Reading := do
  let date <- fields.date
  let time <- fields.time
  return ⟨date, time⟩

def Date.parse (t pattern : Text) : Except Error Date := do (<- Pattern.parse t pattern).date

def Time.parse (t pattern : Text) : Except Error Time := do (<- Pattern.parse t pattern).time

def Reading.parse (t pattern : Text) : Except Error Reading := do
  (<- Pattern.parse t pattern).reading

def Instant.parseBy (t pattern : Text) : Except Error Instant := do
  let fields <- Pattern.parse t pattern
  match fields.get .offset with
  | none => throw (.issue .notEnough (some t))
  | some seconds =>
    let wall <- fields.reading
    let offset <- Offset.ofSeconds seconds
    match Instant.ofWall? wall offset (.fixed offset) with
    | some instant => return instant
    | none => throw (.issue .outOfRange (some t))

def Zone.parse (zone : Zone) (t pattern : Text) : Except Error Instant := do
  let fields <- Pattern.parse t pattern
  let wall <- fields.reading
  let candidates <- zone.instantsAt wall
  match fields.get .offset, candidates with
  | some seconds, candidates =>
    match candidates.toList.find? fun instant => instant.offset.seconds == seconds with
    | some instant => return instant
    | none => throw (.issue .impossible (some t))
  | none, .single instant => return instant
  | none, .skipped => throw (.issue .impossible (some t))
  | none, .ambiguous _ _ => throw (.issue .notEnough (some t))

end ZonedTime
