set_option autoImplicit false

namespace ZonedTime

abbrev Text := List Char

namespace Text

def ofString (s : String) : Text := s.toList

def digitChar (n : Nat) : Char := Char.ofNat (48 + n % 10)

def digitValue (c : Char) : Nat := c.toNat - 48

def decimal (n : Nat) : Text :=
  if n < 10 then [digitChar n] else decimal (n / 10) ++ [digitChar n]
termination_by n
decreasing_by omega

def decimalInt (n : Int) : Text :=
  if n < 0 then '-' :: decimal n.natAbs else decimal n.natAbs

def padded (width n : Nat) : Text := (decimal n).leftpad width '0'

def two (n : Int) : Text := padded 2 n.toNat

def four (n : Int) : Text := padded 4 n.toNat

def value (digits : Text) : Nat :=
  digits.foldl (fun total c => 10 * total + digitValue c) 0

-- Letters outside ASCII have no case here: every word that is matched without case is ASCII.
def lower (t : Text) : Text := t.map Char.toLower

def upper (t : Text) : Text := t.map Char.toUpper

def isAscii (t : Text) : Bool := t.all fun c => c.toNat < 128

def isDigits (t : Text) : Bool := t.all Char.isDigit

def dropRight (c : Char) (t : Text) : Text := (t.reverse.dropWhile (· == c)).reverse

/-- Splits at every character for which `sep` holds; `n` separators give `n + 1` pieces. -/
def splitAll (sep : Char -> Bool) : Text -> List Text
  | [] => [[]]
  | c :: rest =>
    if sep c then [] :: splitAll sep rest
    else match splitAll sep rest with
      | [] => [[c]]
      | piece :: pieces => (c :: piece) :: pieces

def words (sep : Char -> Bool) (t : Text) : List Text :=
  (splitAll sep t).filter fun piece => !piece.isEmpty

def hasInfix (part : Text) : Text -> Bool
  | [] => part.isEmpty
  | c :: rest => part.isPrefixOf (c :: rest) || hasInfix part rest

def le : Text -> Text -> Bool
  | [], _ => true
  | _ :: _, [] => false
  | a :: s, b :: t => a.toNat < b.toNat || (a == b && le s t)

end Text

end ZonedTime
