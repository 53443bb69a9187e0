import ZonedTime.Written.Iso
import ZonedTime.Zone.Basic

set_option autoImplicit false

namespace ZonedTime

structure Instant where
  utc : Reading
  wall : Reading
  offset : Offset
  zone : Zone

namespace Instant

/-- The wall is ahead of UTC by the offset and shows the same nanosecond. -/
def Coherent (instant : Instant) : Prop :=
  instant.wall.epochSecond = instant.utc.epochSecond + instant.offset.seconds
    ∧ instant.wall.time.nano = instant.utc.time.nano

instance (instant : Instant) : Decidable instant.Coherent := by
  unfold Coherent
  infer_instance

def ofUtc (utc : Reading) (zone : Zone) : Except Error Instant := do
  let offset <- zone.offsetAtUtc utc
  match utc.shift? offset.seconds with
  | some wall => return { utc, wall, offset, zone }
  | none => throw .localReading

def ofWall? (wall : Reading) (offset : Offset) (zone : Zone) : Option Instant :=
  (wall.shift? (-offset.seconds)).map fun utc => { utc, wall, offset, zone }

def ofTimestamp (seconds nanos : Int) (zone : Zone) : Except Error Instant :=
  if nanos < 0 ∨ 2000000000 ≤ nanos then .error (.nanoseconds nanos)
  else if 1000000000 ≤ nanos ∧ seconds % 60 ≠ 59 then .error .leapSecond
  else
    match Reading.ofEpoch? seconds nanos with
    | some utc => ofUtc utc zone
    | none => .error .timestamp

def ofMillis (n : Int) (zone : Zone) : Except Error Instant :=
  ofTimestamp (n / 1000) (n % 1000 * 1000000) zone

def ofNanos (n : Int) (zone : Zone) : Except Error Instant :=
  ofTimestamp (n / 1000000000) (n % 1000000000) zone

def inZone (instant : Instant) (zone : Zone) : Except Error Instant := ofUtc instant.utc zone

def timestamp (instant : Instant) : Int := instant.utc.epochSecond

def timestampMillis (instant : Instant) : Int :=
  instant.timestamp * 1000 + instant.utc.time.nano / 1000000

def timestampNanos (instant : Instant) : Int :=
  instant.timestamp * 1000000000 + instant.utc.time.nano

def withUtc? (instant : Instant) (utc : Reading) : Except Error (Option Instant) := do
  let offset <- instant.zone.offsetAtUtc utc
  return (utc.shift? offset.seconds).map fun wall =>
    { utc, wall, offset, zone := instant.zone }

def addNanos? (instant : Instant) (n : Int) : Except Error (Option Instant) :=
  match instant.utc.addNanos? n with
  | some utc => instant.withUtc? utc
  | none => .ok none

def addNanos (instant : Instant) (n : Int) : Except Error Instant := do
  match <- instant.addNanos? n with
  | some sum => return sum
  | none => throw .result

def add? (instant : Instant) (duration : Duration) : Except Error (Option Instant) :=
  instant.addNanos? duration.nanos

def sub? (instant : Instant) (duration : Duration) : Except Error (Option Instant) :=
  instant.addNanos? (-duration.nanos)

def add (instant : Instant) (duration : Duration) : Except Error Instant :=
  instant.addNanos duration.nanos

def sub (instant : Instant) (duration : Duration) : Except Error Instant :=
  instant.addNanos (-duration.nanos)

def since (instant other : Instant) : Duration := instant.utc.since other.utc

/-- The nanoseconds in the last of some digits of the fraction of a second. -/
def digitSpan (digits : Int) : Except Error Int :=
  if digits < 0 then .error (.digits digits) else .ok (Nat.pow 10 (9 - min digits.toNat 9))

def truncate (instant : Instant) (digits : Int) : Except Error Instant := do
  let span <- digitSpan digits
  let rest := instant.utc.time.nano % span
  if rest = 0 then return instant else instant.addNanos (-rest)

def round (instant : Instant) (digits : Int) : Except Error Instant := do
  let span <- digitSpan digits
  let rest := instant.utc.time.nano % span
  if rest = 0 then return instant
  else if span - rest ≤ rest then instant.addNanos (span - rest)
  else instant.addNanos (-rest)

def eq (a b : Instant) : Bool := a.utc == b.utc

def lt (a b : Instant) : Bool := a.utc.lt b.utc

def same (a b : Instant) : Bool :=
  a.utc == b.utc && a.offset == b.offset && a.zone.same b.zone

def text (instant : Instant) : Text :=
  instant.wall.textWith ' ' ++ ' ' :: (match instant.zone with
    | .utc => Text.ofString "UTC"
    | _ => instant.offset.text)

def shown (instant : Instant) : Text :=
  Text.ofString "Instant(" ++ instant.wall.textWith 'T'
    ++ (match instant.zone with
        | .utc => ['Z']
        | .place site => instant.offset.text ++ ['['] ++ site.text ++ [']']
        | _ => instant.offset.text)
    ++ [')']

end Instant

def Zone.instantsAt (zone : Zone) (wall : Reading) : Except Error (Resolution Instant) := do
  let offsets <- zone.offsetsAtWall wall
  return offsets.filterMap fun offset => Instant.ofWall? wall offset zone

namespace Reading

def inUtc (reading : Reading) : Instant where
  utc := reading
  wall := reading
  offset := .zero
  zone := .utc

def atOffset (reading : Reading) (offset : Offset) : Except Error Instant :=
  match Instant.ofWall? reading offset (.fixed offset) with
  | some instant => .ok instant
  | none => .error .utcReading

/-- Which of two instants is meant; by name, since any other name is refused once it is needed. -/
def choose (setting : Text) : Resolution Instant -> Except Error Instant
  | .ambiguous earlier later =>
    if setting = Text.ofString "earlier" then .ok earlier
    else if setting = Text.ofString "later" then .ok later
    else if setting = Text.ofString "raise" then .error .repeated
    else .error (.disambiguation setting)
  | resolution => resolution.unwrap

def inZone (reading : Reading) (zone : Zone) (setting : Text) : Except Error Instant := do
  choose setting (<- zone.instantsAt reading)

end Reading

namespace Instant

def first : Instant := Reading.first.inUtc

def last : Instant := Reading.last.inUtc

end Instant

end ZonedTime
