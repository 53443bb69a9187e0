import ZonedTime.Error.Basic
import ZonedTime.Numeric.Binary64

set_option autoImplicit false

namespace ZonedTime

structure Duration where
  nanos : Int
  deriving DecidableEq, Repr

namespace Duration

inductive Unit where
  | week
  | day
  | hour
  | minute
  | second
  | millisecond
  | microsecond
  | nanosecond
  deriving DecidableEq, Repr

def Unit.nanos : Unit -> Nat
  | .week => 604800000000000
  | .day => 86400000000000
  | .hour => 3600000000000
  | .minute => 60000000000
  | .second => 1000000000
  | .millisecond => 1000000
  | .microsecond => 1000
  | .nanosecond => 1

def Unit.rounding : List (Text × Unit) :=
  [(Text.ofString "hour", .hour), (Text.ofString "minute", .minute),
    (Text.ofString "second", .second), (Text.ofString "millisecond", .millisecond),
    (Text.ofString "microsecond", .microsecond), (Text.ofString "nanosecond", .nanosecond)]

/-- The number of nanoseconds in `2 ^ 63 - 1` milliseconds. -/
def bound : Int := 9223372036854775807000000

def InRange (duration : Duration) : Prop := -bound ≤ duration.nanos ∧ duration.nanos ≤ bound

instance (duration : Duration) : Decidable duration.InRange := by
  unfold InRange
  infer_instance

def ofNanos? (n : Int) : Option Duration :=
  if InRange ⟨n⟩ then some ⟨n⟩ else none

def ofNanos (n : Int) : Except Error Duration :=
  match ofNanos? n with
  | some duration => .ok duration
  | none => .error .duration

def zero : Duration := ⟨0⟩

def max : Duration := ⟨bound⟩

def min : Duration := ⟨-bound⟩

inductive Amount where
  | whole (n : Int)
  | real (x : Binary64)
  deriving DecidableEq, Repr

/-- A whole amount is scaled exactly, the other kind in its own precision and then cut off. -/
def Amount.nanos (unit : Unit) : Amount -> Except Error Int
  | .whole n => .ok (n * unit.nanos)
  | .real x =>
    match x.scale unit.nanos with
    | .nan => .error .notANumber
    | .infinite _ => .error .notFinite
    | .finite negative mantissa exponent => .ok (Binary64.truncate negative mantissa exponent)

def totalNanos : List (Unit × Amount) -> Except Error Int
  | [] => .ok 0
  | (unit, amount) :: rest => do
    let head <- amount.nanos unit
    let tail <- totalNanos rest
    return head + tail

def ofParts (parts : List (Unit × Amount)) : Except Error Duration := do
  ofNanos (<- totalNanos parts)

def ofParts? (parts : List (Unit × Amount)) : Except Error (Option Duration) :=
  match ofParts parts with
  | .ok duration => .ok (some duration)
  | .error .duration => .ok none
  | .error .notFinite => .ok none
  | .error e => .error e

def add? (a b : Duration) : Option Duration := ofNanos? (a.nanos + b.nanos)

def sub? (a b : Duration) : Option Duration := ofNanos? (a.nanos - b.nanos)

def add (a b : Duration) : Except Error Duration := ofNanos (a.nanos + b.nanos)

def sub (a b : Duration) : Except Error Duration := ofNanos (a.nanos - b.nanos)

def mul (a : Duration) (n : Int) : Except Error Duration := ofNanos (a.nanos * n)

def neg (a : Duration) : Duration := ⟨-a.nanos⟩

def abs (a : Duration) : Duration := ⟨a.nanos.natAbs⟩

/-- The multiple of `step` nearest to `n`, the even one of two. -/
def nearestMultiple (n step : Int) : Int :=
  let quotient := n / step
  let rest := n % step
  let up := rest * 2 > step || (rest * 2 == step && quotient % 2 == 1)
  (quotient + (if up then 1 else 0)) * step

def round (a : Duration) (unit : Unit) : Except Error Duration :=
  ofNanos (nearestMultiple a.nanos unit.nanos)

def roundTo (a : Duration) (name : Text) : Except Error Duration :=
  match Unit.rounding.lookup name with
  | some unit => a.round unit
  | none => .error (.unit name)

def inUnits (a : Duration) (unit : Unit) : Binary64 := .ofRatio a.nanos unit.nanos

def secondsAndNanos (a : Duration) : Int × Int := (a.nanos / 1000000000, a.nanos % 1000000000)

structure Parts where
  hours : Int
  minutes : Int
  seconds : Int
  nanos : Int
  deriving DecidableEq, Repr

def sizeParts (a : Duration) : Parts where
  hours := (a.nanos.natAbs : Int) / 3600000000000
  minutes := (a.nanos.natAbs : Int) % 3600000000000 / 60000000000
  seconds := (a.nanos.natAbs : Int) % 60000000000 / 1000000000
  nanos := (a.nanos.natAbs : Int) % 1000000000

def parts (a : Duration) : Parts :=
  let size := a.sizeParts
  if a.nanos < 0 then ⟨-size.hours, -size.minutes, -size.seconds, -size.nanos⟩ else size

structure DayTime where
  days : Int
  seconds : Int
  micros : Int
  deriving DecidableEq, Repr

def DayTime.ofMicros (micros : Int) : Except Error DayTime :=
  let days := micros / 86400000000
  if -999999999 ≤ days ∧ days ≤ 999999999 then
    .ok ⟨days, micros % 86400000000 / 1000000, micros % 1000000⟩
  else .error .tooManyDays

def toDayTime (a : Duration) : Except Error DayTime := DayTime.ofMicros (a.nanos / 1000)

def ofDayTime (span : DayTime) : Except Error Duration := do
  let span <- DayTime.ofMicros
    (span.days * 86400000000 + span.seconds * 1000000 + span.micros)
  ofNanos ((span.days * 86400000000 + span.seconds * 1000000 + span.micros) * 1000)

end Duration

end ZonedTime
