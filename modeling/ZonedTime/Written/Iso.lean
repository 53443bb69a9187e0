import ZonedTime.Reading.Basic
import ZonedTime.Text.Scan

set_option autoImplicit false

namespace ZonedTime

open Text (two four padded)

inductive Precision where
  | seconds
  | millis
  | micros
  | nanos
  | auto
  deriving DecidableEq, Repr

def autoDigits (nano : Int) : Nat :=
  let rest := nano % 1000000000
  if rest = 0 then 0
  else if rest % 1000000 = 0 then 3
  else if rest % 1000 = 0 then 6
  else 9

def Precision.digits (nano : Int) : Precision -> Nat
  | seconds => 0
  | millis => 3
  | micros => 6
  | nanos => 9
  | auto => autoDigits nano

def fractionDigits (digits : Nat) (nano : Int) : Text :=
  if digits = 0 then [] else '.' :: (padded 9 (nano % 1000000000).toNat).take digits

def fraction (precision : Precision) (nano : Int) : Text :=
  fractionDigits (precision.digits nano) nano

namespace Date

def text (date : Date) : Text :=
  four date.year ++ ['-'] ++ two date.month ++ ['-'] ++ two date.day

def shown (date : Date) : Text := Text.ofString "Date(" ++ date.text ++ [')']

def scanIso : Scan (Int × Int × Int) := do
  let year <- Scan.number 4
  Scan.char '-'
  let month <- Scan.number 2
  Scan.char '-'
  let day <- Scan.number 2
  return (year, month, day)

def parseIso? (t : Text) : Option Date :=
  match (scanIso.run t) with
  | .ok ((year, month, day), []) => ofYmd? year month day
  | _ => none

def parseIso (t : Text) : Except Error Date :=
  match parseIso? t with
  | some date => .ok date
  | none => .error (.unreadable t)

end Date

namespace Time

def clockText (time : Time) : Text :=
  two time.hour ++ [':'] ++ two time.minute ++ [':'] ++ two time.shownSecond

def textTo (precision : Precision) (time : Time) : Text :=
  time.clockText ++ fraction precision time.nano

def text (time : Time) : Text := time.textTo .auto

def shown (time : Time) : Text := Text.ofString "Time(" ++ time.text ++ [')']

/-- Second 60 is the second after second 59. -/
def ofShownSecond (second nano : Int) : Int × Int :=
  if second = 60 then (59, nano + 1000000000) else (second, nano)

def scanFraction : Scan Int := do
  if (<- Scan.optional '.') then return Scan.nanosOfDigits (<- Scan.digits 1 9) else return 0

def scanIso : Scan (Int × Int × Int × Int) := do
  let hour <- Scan.number 2
  Scan.char ':'
  let minute <- Scan.number 2
  Scan.char ':'
  let second <- Scan.number 2
  let nano <- scanFraction
  return (hour, minute, second, nano)

def parseIso? (t : Text) : Option Time :=
  match (scanIso.run t) with
  | .ok ((hour, minute, second, nano), []) =>
    let (second, nano) := ofShownSecond second nano
    (ofFields hour minute second nano).toOption
  | _ => none

def parseIso (t : Text) : Except Error Time :=
  match parseIso? t with
  | some time => .ok time
  | none => .error (.unreadable t)

end Time

namespace Reading

def textWith (separator : Char) (reading : Reading) : Text :=
  reading.date.text ++ separator :: reading.time.text

def text (reading : Reading) : Text := reading.textWith 'T'

def shown (reading : Reading) : Text :=
  Text.ofString "LocalDateTime(" ++ reading.textWith ' ' ++ [')']

def parseIso? (t : Text) : Option Reading :=
  match t.drop 10 with
  | separator :: rest =>
    if separator = 'T' ∨ separator = 't' then do
      let date <- Date.parseIso? (t.take 10)
      let time <- Time.parseIso? rest
      return ⟨date, time⟩
    else none
  | [] => none

def parseIso (t : Text) : Except Error Reading :=
  match parseIso? t with
  | some reading => .ok reading
  | none => .error (.unreadable t)

end Reading

end ZonedTime
