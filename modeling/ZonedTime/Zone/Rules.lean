import ZonedTime.Zone.Search
import ZonedTime.Zone.Yearly

/-!
The offsets of one zone over all time: a table of recorded transitions, in force up to the last
of them, and a yearly rule for the time after it.

The table is kept twice. `byUtc` says from which epoch second on an offset holds; `byWall` says
until which local epoch second it holds and by how much it changes then.
-/

set_option autoImplicit false

namespace ZonedTime

structure Period where
  offset : Int
  name : Text
  deriving DecidableEq, Repr

/-- The end of a period: its offset and what is added to it. -/
structure Shift where
  offset : Int
  change : Int
  deriving DecidableEq, Repr

abbrev Transition := Int × Period

structure Rules where
  key : Option Text
  byUtc : Array Transition
  byWall : Array (Int × Shift)
  footer : Option Yearly
  deriving DecidableEq

namespace Rules

def firstSecond : Int := -62135596800

def lastSecond : Int := 253402300799

def clampSecond (second : Int) : Int := max firstSecond (min lastSecond second)

-- A gap ends where it does by the new offset, a fold where it does by the old one.
def wallTable (before : Int) : List Transition -> List (Int × Shift)
  | [] => []
  | (second, period) :: rest =>
    (clampSecond (second + max before period.offset), ⟨before, period.offset - before⟩)
      :: wallTable period.offset rest

def ofTransitions (key : Option Text) (first : Period) (transitions : List Transition)
    (footer : Option Yearly) : Rules where
  key := key
  byUtc := ((firstSecond, first) :: transitions).toArray
  byWall := (wallTable first.offset transitions).toArray
  footer := footer

def ofYearly (rule : Yearly) : Rules where
  key := none
  byUtc := #[]
  byWall := #[]
  footer := some rule

/-- The period before the table's entry at an index; the first one begins before all time. -/
def periodBefore? (rules : Rules) (index : Nat) : Option Period :=
  (rules.byUtc[index - 1]?).map Prod.snd

def finalPeriod (rules : Rules) : Period :=
  match rules.byUtc.back? with
  | some (_, period) => period
  | none => ⟨0, []⟩

def recorded? (rules : Rules) (second : Int) : Option Period :=
  (Table.firstAfter? rules.byUtc second).bind rules.periodBefore?

def offsetAtUtc (rules : Rules) (second : Int) : Int :=
  match rules.recorded? second with
  | some period => period.offset
  | none =>
    match rules.footer with
    | some rule => rule.offsetAtUtc second
    | none => rules.finalPeriod.offset

def nameAtUtc (rules : Rules) (second : Int) : Text :=
  match rules.recorded? second with
  | some period => period.name
  | none =>
    match rules.footer with
    | some rule => rule.nameAtUtc second
    | none => rules.finalPeriod.name

def offsetsNear (finish : Int) (shift : Shift) (wall : Int) : Resolution Int :=
  if wall < finish - shift.change.natAbs then .single shift.offset
  else if shift.change < 0 then .ambiguous shift.offset (shift.offset + shift.change)
  else if 0 < shift.change then .skipped
  else .single shift.offset

def finalOffset (rules : Rules) : Int :=
  match rules.byWall.back? with
  | some (_, shift) => shift.offset + shift.change
  | none => rules.finalPeriod.offset

def ending? (rules : Rules) (wall : Int) : Option (Int × Shift) :=
  (Table.firstAfter? rules.byWall wall).bind fun index => rules.byWall[index]?

def offsetsAtWall (rules : Rules) (wall : Int) : Resolution Int :=
  match rules.ending? wall with
  | some (finish, shift) => offsetsNear finish shift wall
  | none =>
    match rules.footer with
    | some rule => rule.offsetsAtWall wall
    | none => .single rules.finalOffset

/-- Equal keys, tables and yearly rules; the names of periods do not count. -/
def same (a b : Rules) : Bool :=
  a.key == b.key
    && a.byUtc.toList.map (fun entry => (entry.1, entry.2.offset))
      == b.byUtc.toList.map (fun entry => (entry.1, entry.2.offset))
    && a.byWall == b.byWall && a.footer == b.footer

end Rules

end ZonedTime
