import ZonedTime.Error.Basic
import ZonedTime.Text.DigitTable

/-!
Fitting a text into a field by a layout such as `*^12.8`.

    layout = [[fill] align] ['0'] [width] ['.' precision] ['s']
    align  = '<' | '>' | '^'

A zero before the width is the fill unless one is given. The precision cuts the text. Both numbers
may be in digits of any script.
-/

set_option autoImplicit false

namespace ZonedTime

inductive Align where
  | left
  | right
  | center
  deriving DecidableEq, Repr

def Align.ofChar? (c : Char) : Option Align :=
  if c == '<' then some .left
  else if c == '>' then some .right
  else if c == '^' then some .center
  else none

structure Layout where
  fill : Char
  align : Align
  width : Nat
  precision : Option Nat
  deriving DecidableEq, Repr

namespace Layout

def alignment (t : Text) : Option Char × Option Align × Text :=
  match t with
  | fill :: c :: rest =>
    match Align.ofChar? c with
    | some align => (some fill, some align, rest)
    | none =>
      match Align.ofChar? fill with
      | some align => (none, some align, c :: rest)
      | none => (none, none, t)
  | [c] =>
    match Align.ofChar? c with
    | some align => (none, some align, [])
    | none => (none, none, t)
  | [] => (none, none, [])

def count? (t : Text) : Option (Nat × Text) := do
  let run := t.takeWhile Text.isDecimalDigit
  let n <- Text.numeral? run
  if 9223372036854775807 < n then none else some (n, t.drop run.length)

def precision? (t : Text) : Option (Option Nat × Text) :=
  match t with
  | '.' :: rest => do
    let (n, after) <- count? rest
    if after.length = rest.length then none else some (some n, after)
  | _ => some (none, t)

def parse? (t : Text) : Option Layout := do
  let (fill, align, rest) := alignment t
  let zero := fill.isNone && rest.head? == some '0'
  let rest := if zero then rest.drop 1 else rest
  let (width, rest) <- count? rest
  let (precision, rest) <- precision? rest
  if rest.isEmpty || rest == ['s'] then
    some {
      fill := fill.getD (if zero then '0' else ' ')
      align := align.getD .left
      width
      precision }
  else none

def apply (layout : Layout) (t : Text) : Text :=
  let shown := match layout.precision with
    | some most => t.take most
    | none => t
  let room := layout.width - shown.length
  let before := match layout.align with
    | .left => 0
    | .right => room
    | .center => room / 2
  List.replicate before layout.fill ++ shown ++ List.replicate (room - before) layout.fill

end Layout

def Text.fit (layout t : Text) : Except Error Text :=
  match Layout.parse? layout with
  | some parsed => .ok (parsed.apply t)
  | none => .error .layout

end ZonedTime
