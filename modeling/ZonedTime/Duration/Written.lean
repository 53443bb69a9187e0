import ZonedTime.Duration.Basic

set_option autoImplicit false

namespace ZonedTime.Duration

open Text (decimal padded)

def shortFraction (nanos : Nat) : Text :=
  if nanos = 0 then [] else Text.dropRight '0' ('.' :: padded 9 nanos)

def part (n : Nat) (letter : Char) : Text := if n = 0 then [] else decimal n ++ [letter]

def isoParts (size : Parts) : Text :=
  part size.hours.toNat 'H' ++ part size.minutes.toNat 'M'
    ++ (if size.seconds = 0 ∧ size.nanos = 0 then []
        else decimal size.seconds.toNat ++ shortFraction size.nanos.toNat ++ ['S'])

def sign (duration : Duration) : Text := if duration.nanos < 0 then ['-'] else []

def toIso (duration : Duration) : Text :=
  let parts := isoParts duration.sizeParts
  duration.sign ++ ['P', 'T'] ++ (if parts.isEmpty then ['0', 'S'] else parts)

def toClock (duration : Duration) : Text :=
  let size := duration.sizeParts
  duration.sign ++ padded 2 size.hours.toNat ++ [':'] ++ padded 2 size.minutes.toNat ++ [':']
    ++ padded 2 size.seconds.toNat ++ shortFraction size.nanos.toNat

def shown (duration : Duration) : Text :=
  Text.ofString "Duration(" ++ duration.toClock ++ [')']

end ZonedTime.Duration
