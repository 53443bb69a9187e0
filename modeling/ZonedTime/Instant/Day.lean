import ZonedTime.Instant.Basic

set_option autoImplicit false

namespace ZonedTime

structure Day where
  date : Date
  zone : Zone

namespace Day

def text (day : Day) : Text := day.date.text ++ ' ' :: day.zone.text

def shown (day : Day) : Text := Text.ofString "Day(" ++ day.text ++ [')']

def probes (date : Date) : List Reading :=
  (List.range 25).map fun (k : Nat) => ⟨date, .ofSecondOfDay (900 * (k : Int)) 0⟩

def firstOf : Resolution Instant -> Option Instant
  | .skipped => none
  | .single instant => some instant
  | .ambiguous earlier later => some (if later.lt earlier then later else earlier)

def firstIn (zone : Zone) : List Reading -> Except Error (Option Instant)
  | [] => .ok none
  | probe :: rest => do
    match firstOf (<- zone.instantsAt probe) with
    | some instant => return some instant
    | none => firstIn zone rest

def start (day : Day) : Except Error Instant := do
  match <- firstIn day.zone (probes day.date) with
  | some instant => return instant
  | none => throw (.noStart day.text)

def shift? (day : Day) (n : Int) : Option Day :=
  if n = 0 then some day else (day.date.addDays? n).map fun date => ⟨date, day.zone⟩

def addDays? (day : Day) (n : Int) : Except Error (Option Day) :=
  if n < 0 then .error .dayCount else .ok (day.shift? n)

def subDays? (day : Day) (n : Int) : Except Error (Option Day) :=
  if n < 0 then .error .dayCount else .ok (day.shift? (-n))

def succ? (day : Day) : Option Day := day.shift? 1

def pred? (day : Day) : Option Day := day.shift? (-1)

def addDays (day : Day) (n : Int) : Except Error Day :=
  match day.shift? n with
  | some shifted => .ok shifted
  | none => .error .shiftedDay

def subDays (day : Day) (n : Int) : Except Error Day := day.addDays (-n)

def length (day : Day) : Except Error Duration := do
  match day.succ? with
  | none => throw .noNextDay
  | some next =>
    let stop <- next.start
    let start <- day.start
    return stop.since start

def eq (a b : Day) : Bool := a.date == b.date

def lt (a b : Day) : Bool := a.date.lt b.date

end Day

def Instant.day (instant : Instant) : Day := ⟨instant.wall.date, instant.zone⟩

end ZonedTime
