import ZonedTime.Instant.Basic

/-!
Exchange with clocks that count microseconds, know no leap second and give offsets from UTC in
microseconds. A reading stops at the end of second 59 for a leap second; an instant goes on into
the next second.
-/

set_option autoImplicit false

namespace ZonedTime

structure MicroStamp where
  year : Int
  month : Int
  day : Int
  hour : Int
  minute : Int
  second : Int
  micro : Int
  offset : Option Int
  deriving DecidableEq, Repr

namespace MicroStamp

def reading (stamp : MicroStamp) : Except Error Reading := do
  if !fitsField stamp.micro then throw .fieldWidth
  let reading <- Reading.make
    ⟨stamp.year, stamp.month, stamp.day, stamp.hour, stamp.minute, stamp.second, 0⟩
  if stamp.micro < 0 ∨ 999999 < stamp.micro then throw .microsecond
  return ⟨reading.date, { reading.time with nano := stamp.micro * 1000 }⟩

def ofReading (reading : Reading) (micro : Int) (offset : Option Int) : MicroStamp where
  year := reading.date.year
  month := reading.date.month
  day := reading.date.day
  hour := reading.time.hour
  minute := reading.time.minute
  second := reading.time.second
  micro := micro
  offset := offset

def toReading (stamp : MicroStamp) : Except Error Reading := do
  let reading <- stamp.reading
  if stamp.offset.isSome then throw .aware
  return reading

def toInstant (stamp : MicroStamp) : Except Error Instant := do
  let reading <- stamp.reading
  match stamp.offset with
  | none => throw .naive
  | some offset =>
    if offset % 1000000 ≠ 0 then throw .subsecondOffset
    reading.atOffset (<- Offset.ofSeconds (offset / 1000000))

end MicroStamp

def Reading.toMicro (reading : Reading) : MicroStamp :=
  .ofReading reading reading.time.clockMicros none

/-- The wall of the instant; at the end of the calendar a leap second becomes its last moment. -/
def Instant.toMicro (instant : Instant) : MicroStamp :=
  let offset := some (instant.offset.seconds * 1000000)
  let nano := instant.wall.time.nano
  if 1000000000 ≤ nano then
    match Reading.ofEpoch? (instant.wall.epochSecond + 1) 0 with
    | some next => .ofReading next ((nano - 1000000000) / 1000) offset
    | none => .ofReading .last 999999 offset
  else .ofReading instant.wall (nano / 1000) offset

end ZonedTime
