import ZonedTime.Text.Blank
import ZonedTime.Error.Basic

set_option autoImplicit false

namespace ZonedTime.Pattern

inductive Padding where
  | none
  | zero
  | space
  deriving DecidableEq, Repr

inductive Number where
  | year
  | century
  | yearOfCentury
  | isoYear
  | isoYearOfCentury
  | month
  | day
  | weekFromSunday
  | weekFromMonday
  | isoWeek
  | daysFromSunday
  | weekdayFromMonday
  | yearDay
  | hour
  | hour12
  | minute
  | second
  | nanosecond
  | timestamp
  deriving DecidableEq, Repr

inductive Form where
  | shortMonth
  | longMonth
  | shortWeekday
  | longWeekday
  | lowerHalf
  | upperHalf
  | fraction
  | digits (count : Nat) (point : Bool)
  | zoneName
  | offset (colon : Bool)
  | rfc3339
  deriving DecidableEq, Repr

inductive Item where
  | literal (text : Text)
  | blank (text : Text)
  | number (number : Number) (padding : Padding)
  | form (form : Form)
  deriving DecidableEq, Repr

/-- The number of digits, at least when written with padding and at most when read. -/
def Number.width : Number -> Nat
  | .year => 4
  | .isoYear => 4
  | .daysFromSunday => 1
  | .weekdayFromMonday => 1
  | .yearDay => 3
  | .nanosecond => 9
  | .timestamp => 1
  | _ => 2

def zeroPadded (number : Number) : Item := .number number .zero

def spacePadded (number : Number) : Item := .number number .space

def literal (c : Char) : Item := .literal [c]

def blank (c : Char) : Item := .blank [c]

def slashDate : List Item :=
  [zeroPadded .month, literal '/', zeroPadded .day, literal '/', zeroPadded .yearOfCentury]

def clock : List Item :=
  [zeroPadded .hour, literal ':', zeroPadded .minute, literal ':', zeroPadded .second]

def directives : List (Text × List Item) :=
  [(['Y'], [zeroPadded .year]),
    (['C'], [zeroPadded .century]),
    (['y'], [zeroPadded .yearOfCentury]),
    (['G'], [zeroPadded .isoYear]),
    (['g'], [zeroPadded .isoYearOfCentury]),
    (['m'], [zeroPadded .month]),
    (['b'], [.form .shortMonth]),
    (['h'], [.form .shortMonth]),
    (['B'], [.form .longMonth]),
    (['d'], [zeroPadded .day]),
    (['e'], [spacePadded .day]),
    (['a'], [.form .shortWeekday]),
    (['A'], [.form .longWeekday]),
    (['w'], [zeroPadded .daysFromSunday]),
    (['u'], [zeroPadded .weekdayFromMonday]),
    (['U'], [zeroPadded .weekFromSunday]),
    (['W'], [zeroPadded .weekFromMonday]),
    (['V'], [zeroPadded .isoWeek]),
    (['j'], [zeroPadded .yearDay]),
    (['D'], slashDate),
    (['x'], slashDate),
    (['F'],
      [zeroPadded .year, literal '-', zeroPadded .month, literal '-', zeroPadded .day]),
    (['v'],
      [spacePadded .day, literal '-', .form .shortMonth, literal '-', zeroPadded .year]),
    (['H'], [zeroPadded .hour]),
    (['k'], [spacePadded .hour]),
    (['I'], [zeroPadded .hour12]),
    (['l'], [spacePadded .hour12]),
    (['p'], [.form .upperHalf]),
    (['P'], [.form .lowerHalf]),
    (['M'], [zeroPadded .minute]),
    (['S'], [zeroPadded .second]),
    (['f'], [zeroPadded .nanosecond]),
    (['.', 'f'], [.form .fraction]),
    (['.', '3', 'f'], [.form (.digits 3 true)]),
    (['.', '6', 'f'], [.form (.digits 6 true)]),
    (['.', '9', 'f'], [.form (.digits 9 true)]),
    (['3', 'f'], [.form (.digits 3 false)]),
    (['6', 'f'], [.form (.digits 6 false)]),
    (['9', 'f'], [.form (.digits 9 false)]),
    (['R'], [zeroPadded .hour, literal ':', zeroPadded .minute]),
    (['T'], clock),
    (['X'], clock),
    (['r'],
      [zeroPadded .hour12, literal ':', zeroPadded .minute, literal ':', zeroPadded .second,
        blank ' ', .form .upperHalf]),
    (['c'],
      [.form .shortWeekday, blank ' ', .form .shortMonth, blank ' ', spacePadded .day, blank ' ']
        ++ clock ++ [blank ' ', zeroPadded .year]),
    (['Z'], [.form .zoneName]),
    (['z'], [.form (.offset false)]),
    ([':', 'z'], [.form (.offset true)]),
    (['+'], [.form .rfc3339]),
    (['s'], [.number .timestamp .none]),
    (['t'], [blank '\t']),
    (['n'], [blank '\n']),
    (['%'], [literal '%'])]

def keyLength : Text -> Nat
  | '.' :: 'f' :: _ => 2
  | '.' :: _ => 3
  | '3' :: _ => 2
  | '6' :: _ => 2
  | '9' :: _ => 2
  | ':' :: _ => 2
  | _ => 1

def directive? (t : Text) : Option (List Item × Nat) :=
  let key := t.take (keyLength t)
  (directives.lookup key).map fun items => (items, key.length)

def paddingOf? (c : Char) : Option Padding :=
  if c == '-' then some .none
  else if c == '_' then some .space
  else if c == '0' then some .zero
  else none

/-- A padding can be given to a directive that stands for one number. -/
def repad? (padding : Padding) : List Item -> Option (List Item)
  | [.number number _] => some [.number number padding]
  | _ => none

def padded? (t : Text) : Option (List Item × Nat) :=
  match t.head?.bind paddingOf? with
  | some padding => do
    let (items, length) <- directive? (t.drop 1)
    let items <- repad? padding items
    return (items, length + 1)
  | none => directive? t

def isPlain (c : Char) : Bool := c != '%' && !Text.isBlank c

def compile? (pattern : Text) : Option (List Item) :=
  match pattern with
  | [] => some []
  | c :: rest =>
    if c == '%' then
      match padded? rest with
      | some (items, length) => (compile? (rest.drop length)).map (items ++ ·)
      | none => none
    else if Text.isBlank c then
      let run := rest.takeWhile Text.isBlank
      (compile? (rest.drop run.length)).map (.blank (c :: run) :: ·)
    else
      let run := rest.takeWhile isPlain
      (compile? (rest.drop run.length)).map (.literal (c :: run) :: ·)
termination_by pattern.length
decreasing_by all_goals (simp only [List.length_cons, List.length_drop]; omega)

def compile (pattern : Text) : Except Error (List Item) :=
  match compile? pattern with
  | some items => .ok items
  | none => .error (.issue .badPattern (some pattern))

end ZonedTime.Pattern
