import ZonedTime.Text.Basic

set_option autoImplicit false

namespace ZonedTime.Text

inductive Expr where
  | one (accepts : Char -> Bool)
  | both (first second : Expr)
  | either (first second : Expr)
  /-- So many times, and as often again as `extra` allows. -/
  | times (count extra : Nat) (part : Expr)

namespace Expr

instance : Append Expr := ⟨both⟩

def char (c : Char) : Expr := one (· == c)

def among (s : String) : Expr := one fun c => (ofString s).contains c

def digits (count : Nat) : Expr := times count 0 (one Char.isDigit)

-- One more is tried before none.
def upTo (step : Text -> List Text) : Nat -> Text -> List Text
  | 0, t => [t]
  | extra + 1, t => (step t).flatMap (upTo step extra) ++ [t]

def repeated (step : Text -> List Text) (extra : Nat) : Nat -> Text -> List Text
  | 0, t => upTo step extra t
  | count + 1, t => (step t).flatMap (repeated step extra count)

/-- What can be left of a text when the expression has taken its start, the preferred way first. -/
def rests : Expr -> Text -> List Text
  | one _, [] => []
  | one accepts, c :: rest => if accepts c then [rest] else []
  | both first second, t => (first.rests t).flatMap second.rests
  | either first second, t => first.rests t ++ second.rests t
  | times count extra part, t => repeated part.rests extra count t

-- Unfolding this on a text that is not known would try every way.
@[irreducible] def rest? (expr : Expr) (t : Text) : Option Text := (expr.rests t).head?

end Expr

end ZonedTime.Text
