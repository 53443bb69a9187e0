import ZonedTime.Zone.Change
import ZonedTime.Zone.Resolution

set_option autoImplicit false

namespace ZonedTime

structure Daylight where
  offset : Int
  name : Text
  start : Change
  stop : Change
  deriving DecidableEq, Repr

structure Yearly where
  standard : Int
  name : Text
  daylight : Option Daylight
  deriving DecidableEq, Repr

namespace Yearly

open Calendar (yearOfEpoch)

-- The year is the one that standard time shows. In the other half of the world daylight saving
-- time spans the new year, and so it is standard time that lies between the changes.
def inDaylight (standard : Int) (daylight : Daylight) (second : Int) : Bool :=
  let year := yearOfEpoch (second + standard)
  let start := daylight.start.localSecond year - standard
  let stop := daylight.stop.localSecond year - daylight.offset
  if start < stop then start ≤ second && second < stop
  else !(stop ≤ second && second < start)

def offsetAtUtc (rule : Yearly) (second : Int) : Int :=
  match rule.daylight with
  | none => rule.standard
  | some daylight =>
    if inDaylight rule.standard daylight second then daylight.offset else rule.standard

def nameAtUtc (rule : Yearly) (second : Int) : Text :=
  match rule.daylight with
  | none => rule.name
  | some daylight =>
    if inDaylight rule.standard daylight second then daylight.name else rule.name

/-- The offsets at a local second, where `inner` holds from `first` to `second` of a year's local
seconds and `outer` before and after. -/
def offsetsBetween (outer inner first second wall : Int) : Resolution Int :=
  let shift := inner - outer
  if 0 ≤ shift then
    if wall < first then .single outer
    else if wall < first + shift then .skipped
    else if wall < second - shift then .single inner
    else if wall < second then .ambiguous inner outer
    else .single outer
  else
    if wall < first + shift then .single outer
    else if wall < first then .ambiguous outer inner
    else if wall < second then .single inner
    else if wall < second - shift then .skipped
    else .single outer

def offsetsAtWall (rule : Yearly) (wall : Int) : Resolution Int :=
  match rule.daylight with
  | none => .single rule.standard
  | some daylight =>
    let year := yearOfEpoch wall
    let start := daylight.start.localSecond year
    let stop := daylight.stop.localSecond year
    if start < stop then offsetsBetween rule.standard daylight.offset start stop wall
    else offsetsBetween daylight.offset rule.standard stop start wall

open Text (ofString decimalInt)

def shown (rule : Yearly) : Text :=
  ofString "TzStr(std=" ++ decimalInt rule.standard
    ++ (match rule.daylight with
        | none => []
        | some daylight =>
          ofString ", dst=Dst(offset=" ++ decimalInt daylight.offset
            ++ ofString ", start=" ++ daylight.start.shown
            ++ ofString ", end=" ++ daylight.stop.shown ++ [')'])
    ++ [')']

end Yearly

end ZonedTime
