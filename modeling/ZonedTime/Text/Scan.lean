import ZonedTime.Text.Blank
import ZonedTime.Error.Basic

set_option autoImplicit false

namespace ZonedTime

abbrev Scan := StateT Text (Except Issue)

namespace Scan

def fail {α : Type} (issue : Issue) : Scan α := fun _ => .error issue

def digits (least most : Nat) : Scan Text := fun t =>
  let run := (t.take most).takeWhile Char.isDigit
  if least ≤ run.length then .ok (run, t.drop run.length)
  else if run.length = t.length then .error .tooShort
  else .error .invalid

def number (width : Nat) : Scan Int := do
  return Text.value (<- digits width width)

def one (accepts : Char -> Bool) : Scan Char := fun t =>
  match t with
  | [] => .error .tooShort
  | c :: rest => if accepts c then .ok (c, rest) else .error .invalid

def char (expected : Char) : Scan Unit := do
  let _ <- one (· == expected)

def optional (expected : Char) : Scan Bool := fun t =>
  match t with
  | c :: rest => if c == expected then .ok (true, rest) else .ok (false, t)
  | [] => .ok (false, [])

def ended : Scan Unit := fun t =>
  match t with
  | [] => .ok ((), [])
  | _ :: _ => .error .tooLong

def nanosOfDigits (digits : Text) : Int :=
  Text.value (digits ++ List.replicate (9 - digits.length) '0')

end Scan

end ZonedTime
