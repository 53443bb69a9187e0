import ZonedTime.Written.Stamp

/-!
The relaxed form that is read besides the strict one: fields of one digit, blanks between date and
time and before the offset, `UTC` as an offset, an offset with seconds or without colons.

    instant = date ('T' | 't' | blank+) time blank* zone
    zone    = 'Z' | 'z' | utc | sign hh [':'] mm [[':'] ss]
    date    = dddd[d...] '-' d[d] '-' d[d]
    time    = d[d] ':' d[d] ':' d[d] ['.' [d...]]
-/

set_option autoImplicit false

namespace ZonedTime.Lenient

def blanks : Scan Bool := fun t =>
  .ok ((t.takeWhile Text.isAsciiSpace).isEmpty, t.dropWhile Text.isAsciiSpace)

def digitRun (least : Nat) : Scan Int := fun t =>
  let run := t.takeWhile Char.isDigit
  if run.length < least then .error .invalid else .ok (Text.value run, t.drop run.length)

def shortNumber : Scan Int := do
  return Text.value (<- Scan.digits 1 2)

def separator : Scan Unit := do
  if !(<- Scan.optional 'T') then
    if !(<- Scan.optional 't') then
      if (<- blanks) then Scan.fail .invalid

def fraction : Scan Int := do
  if (<- Scan.optional '.') then return Scan.nanosOfDigits (<- Scan.digits 0 9) else return 0

def reading : Scan Stamp := do
  let year <- digitRun 4
  Scan.char '-'
  let month <- shortNumber
  Scan.char '-'
  let day <- shortNumber
  separator
  let hour <- shortNumber
  Scan.char ':'
  let minute <- shortNumber
  Scan.char ':'
  let second <- shortNumber
  let nano <- fraction
  return { year, month, day, hour, minute, second, nano, offset := 0 }

structure Shift where
  negative : Bool
  hours : Int
  minutes : Int
  seconds : Int
  deriving DecidableEq, Repr

def utcNames : List Text := [Text.ofString "z", Text.ofString "utc"]

def seconds : Scan Int := fun t =>
  if t.isEmpty then .ok (0, t) else (do
    let _ <- Scan.optional ':'
    Scan.number 2 : Scan Int).run t

def signed : Scan Shift := do
  let sign <- Scan.one fun c => c == '+' || c == '-'
  let hours <- Scan.number 2
  let _ <- Scan.optional ':'
  let minutes <- Scan.number 2
  let seconds <- seconds
  Scan.ended
  return { negative := sign == '-', hours, minutes, seconds }

def shift (t : Text) : Option Shift :=
  if utcNames.contains (Text.lower t) then some ⟨false, 0, 0, 0⟩
  else (signed.run t).toOption.map Prod.fst

def Shift.total (shift : Shift) : Int :=
  let size := shift.hours * 3600 + shift.minutes * 60 + shift.seconds
  if shift.negative then -size else size

def scan (t : Text) : Except Issue Stamp :=
  match reading.run t with
  | .error _ => .error .invalid
  | .ok (stamp, rest) =>
    let rest := rest.dropWhile Text.isAsciiSpace
    if rest.isEmpty then .error .notEnough
    else
      match shift rest with
      | none => .error .invalid
      | some shift =>
        if 59 < shift.minutes ∨ 59 < shift.seconds then .error .outOfRange
        else { stamp with offset := shift.total }.check

def parse (t : Text) : Except Error Stamp :=
  (scan t).mapError fun issue => .issue issue (some t)

end ZonedTime.Lenient

namespace ZonedTime

def Instant.parse (t : Text) : Except Error Instant := do
  (<- Lenient.parse t).toInstant t

end ZonedTime
