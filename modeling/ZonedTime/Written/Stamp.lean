import ZonedTime.Instant.Basic

set_option autoImplicit false

namespace ZonedTime

structure Stamp where
  year : Int
  month : Int
  day : Int
  hour : Int
  minute : Int
  second : Int
  nano : Int
  offset : Int
  deriving DecidableEq, Repr

namespace Stamp

def InRange (stamp : Stamp) : Prop :=
  IsDate stamp.year stamp.month stamp.day ∧ stamp.hour < 24 ∧ stamp.minute < 60
    ∧ stamp.second ≤ 60 ∧ stamp.offset.natAbs < 86400

instance (stamp : Stamp) : Decidable stamp.InRange := by
  unfold InRange
  infer_instance

def foldLeapSecond (stamp : Stamp) : Stamp :=
  if stamp.second = 60 then { stamp with second := 59, nano := stamp.nano + 1000000000 }
  else stamp

def check (stamp : Stamp) : Except Issue Stamp :=
  if stamp.InRange then .ok stamp.foldLeapSecond else .error .outOfRange

def checkFor (input : Text) (stamp : Stamp) : Except Error Stamp :=
  stamp.check.mapError fun issue => .issue issue (some input)

def reading (stamp : Stamp) : Except Error Reading :=
  Reading.ofClock
    ⟨stamp.year, stamp.month, stamp.day, stamp.hour, stamp.minute, stamp.second, stamp.nano⟩

def toInstant (input : Text) (stamp : Stamp) : Except Error Instant := do
  let wall <- stamp.reading
  let offset <- Offset.ofSeconds stamp.offset
  match Instant.ofWall? wall offset (.fixed offset) with
  | some instant => return instant
  | none => throw (.issue .outOfRange (some input))

end Stamp

end ZonedTime
