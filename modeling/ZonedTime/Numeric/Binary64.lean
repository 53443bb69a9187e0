/-!
Double precision in exact integer arithmetic. A finite number is `mantissa * 2 ^ exponent` with
at most 53 bits; `ofRatio` is the nearest number to a quotient of integers, with a tie going to
the even mantissa.
-/

set_option autoImplicit false

namespace ZonedTime

def roundHalfEven (num den : Nat) : Nat :=
  let low := num / den
  let rest := num % den
  if 2 * rest > den ∨ (2 * rest = den ∧ low % 2 = 1) then low + 1 else low

inductive Binary64 where
  | nan
  | infinite (negative : Bool)
  | finite (negative : Bool) (mantissa : Nat) (exponent : Int)
  deriving DecidableEq, Repr

namespace Binary64

def fullMantissa : Nat := 1 <<< 52

def ofBits (bits : Nat) : Binary64 :=
  let negative := bits.testBit 63
  let biased : Nat := (bits >>> 52) % 2048
  let tail : Nat := bits % fullMantissa
  if biased = 2047 then (if tail = 0 then infinite negative else nan)
  else if biased = 0 then finite negative tail (-1074)
  else finite negative (fullMantissa + tail) ((biased : Int) - 1075)

def signBit (negative : Bool) : Nat := if negative then 1 <<< 63 else 0

def toBits : Binary64 -> Nat
  | nan => 4095 <<< 51
  | infinite negative => signBit negative + (2047 <<< 52)
  | finite negative mantissa exponent =>
    signBit negative
      + (if mantissa < fullMantissa then mantissa
         else ((exponent + 1075).toNat <<< 52) + (mantissa - fullMantissa))

def binaryExponent (num den : Nat) : Int :=
  let guess : Int := (num.log2 : Int) - den.log2
  if num <<< (-guess).toNat < den <<< guess.toNat then guess - 1 else guess

def ofQuotient (negative : Bool) (num den : Nat) : Binary64 :=
  if num = 0 then finite negative 0 (-1074)
  else
    let exponent := max (binaryExponent num den - 52) (-1074)
    let mantissa := roundHalfEven (num <<< (-exponent).toNat) (den <<< exponent.toNat)
    let carried := mantissa = 1 <<< 53
    let exponent := if carried then exponent + 1 else exponent
    let mantissa := if carried then fullMantissa else mantissa
    if exponent > 971 then infinite negative else finite negative mantissa exponent

def ofRatio (num : Int) (den : Nat) : Binary64 := ofQuotient (num < 0) num.natAbs den

def scale (x : Binary64) (factor : Nat) : Binary64 :=
  match x with
  | nan => nan
  | infinite negative => infinite negative
  | finite negative mantissa exponent =>
    ofQuotient negative ((mantissa * factor) <<< exponent.toNat) (1 <<< (-exponent).toNat)

def truncate (negative : Bool) (mantissa : Nat) (exponent : Int) : Int :=
  let size : Nat := (mantissa <<< exponent.toNat) >>> (-exponent).toNat
  if negative then -(size : Int) else size

end Binary64

end ZonedTime
