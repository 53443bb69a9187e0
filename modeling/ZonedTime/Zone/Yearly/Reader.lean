import ZonedTime.Text.DigitTable
import ZonedTime.Zone.Yearly

/-!
Reading yearly rules from text such as `CET-1CEST,M3.5.0,M10.5.0/3`.

    zone   = name offset [name [offset] ',' change ',' change]
    name   = three or more letters | '<' characters '>'
    offset = ['+' | '-'] h[h[h]] [':' mm [':' ss]]
    change = ('M' month '.' week '.' weekday | 'J' n | n) ['/' offset]

Offsets are written to the west of UTC and kept to the east. A whole rule is plain ASCII; a change
that is read on its own may have digits of any script.
-/

set_option autoImplicit false

namespace ZonedTime

abbrev RuleScan := StateT Text (Except RuleFault)

namespace RuleScan

def refuse {α : Type} (fault : RuleFault) : RuleScan α := fun _ => .error fault

def nextIs (c : Char) (rest : Text) : Bool := rest.head? == some c

def skipIf (c : Char) : RuleScan Bool := fun t =>
  if nextIs c t then .ok (true, t.drop 1) else .ok (false, t)

def expect (c : Char) (fault : RuleFault) : RuleScan Unit := do
  if !(<- skipIf c) then refuse fault

/-- Not every digit can stand in a numeral. -/
def numeral (digits : Text) : Except RuleFault Nat :=
  match Text.numeral? digits with
  | some n => .ok n
  | none => .error (.notNumeral digits)

def digits (most : Nat) : RuleScan Nat := fun t => do
  let run := (t.take most).takeWhile Text.isAnyDigit
  if run.isEmpty then throw (.digitsExpected t)
  let n <- numeral run
  return (n, t.drop run.length)

def sixty : RuleScan Nat := fun t => do
  let pair := t.take 2
  if pair.length < 2 || !pair.all Text.isAnyDigit then throw (.twoDigitsExpected t)
  let n <- numeral pair
  if 59 < n then throw (.sixtyRange pair)
  return (n, t.drop 2)

def isNegative : RuleScan Bool := do
  if (<- skipIf '+') then return false
  skipIf '-'

def minutesAndSeconds : RuleScan Nat := do
  if (<- skipIf ':') then
    let minutes <- sixty
    if (<- skipIf ':') then
      let seconds <- sixty
      return minutes * 60 + seconds
    else return minutes * 60
  else return 0

def clock (mostHours : Nat) : RuleScan Int := do
  let negative <- isNegative
  let hours <- digits 3
  if mostHours < hours then refuse (.hourRange hours)
  let size : Nat := hours * 3600 + (<- minutesAndSeconds)
  return if negative then -(size : Int) else size

def offset : RuleScan Int := do
  let west <- clock 24
  if 86400 ≤ west.natAbs then refuse .offsetRange
  return -west

def quotedName : RuleScan Text := fun t =>
  let name := t.takeWhile (· != '>')
  if name.isEmpty || name.length = t.length then .error .missingName
  else .ok (name, t.drop (name.length + 1))

def plainName : RuleScan Text := fun t =>
  let name := t.takeWhile Char.isAlpha
  if name.length = t.length then .error .missingName
  else if name.length < 3 then .error .badName
  else .ok (name, t.drop name.length)

def zoneName : RuleScan Text := do
  if (<- skipIf '<') then quotedName else plainName

def monthDay : RuleScan ChangeDay := do
  let month <- digits 2
  expect '.' (.expected '.')
  let week <- digits 1
  expect '.' (.expected '.')
  let weekday <- digits 1
  if month < 1 || 12 < month || week < 1 || 5 < week || 6 < weekday then refuse .badRule
  return if week = 5 then .last month weekday else .nth month week weekday

def changeDay : RuleScan ChangeDay := do
  if (<- skipIf 'M') then
    monthDay
  else if (<- skipIf 'J') then
    let n <- digits 3
    if n < 1 || 365 < n then refuse (.julianDayRange n)
    return .julian n
  else
    let n <- digits 3
    if 365 < n then refuse (.yearDayRange n)
    return .yearDay (n + 1)

def change : RuleScan Change := do
  let day <- changeDay
  let time <- if (<- skipIf '/') then clock 167 else pure 7200
  return ⟨day, time⟩

def daylightOffset (standard : Int) : RuleScan Int := do
  if (<- skipIf ',') then
    if 86400 ≤ standard + 3600 then refuse .daylightOffsetRange
    return standard + 3600
  else
    let written <- offset
    expect ',' (.expected ',')
    return written

def daylight (standard : Int) : RuleScan Daylight := do
  let name <- zoneName
  let offset <- daylightOffset standard
  let start <- change
  expect ',' (.expected ',')
  let stop <- change
  return { offset, name, start, stop }

def endOfRule : RuleScan Unit := fun t =>
  if t.isEmpty then .ok ((), t) else .error (.trailing t)

def zone : RuleScan Yearly := do
  let name <- zoneName
  let standard <- offset
  if (<- get).isEmpty then
    return { standard, name, daylight := none }
  else
    let daylight <- daylight standard
    endOfRule
    return { standard, name, daylight := some daylight }

end RuleScan

namespace Yearly

def parse (t : Text) : Except RuleFault Yearly :=
  if !Text.isAscii t then .error .nonAscii
  else (RuleScan.zone.run t).map Prod.fst

def parseChange (t : Text) : Except RuleFault (Change × Text) := RuleScan.change.run t

end Yearly

end ZonedTime
