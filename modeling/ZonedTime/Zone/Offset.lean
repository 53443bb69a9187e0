import ZonedTime.Duration.Basic

set_option autoImplicit false

namespace ZonedTime

structure Offset where
  seconds : Int
  withinDay : -86400 < seconds ∧ seconds < 86400
  deriving DecidableEq

namespace Offset

open Text (two)

def ofSeconds? (seconds : Int) : Option Offset :=
  if withinDay : -86400 < seconds ∧ seconds < 86400 then some ⟨seconds, withinDay⟩ else none

def ofSeconds (seconds : Int) : Except Error Offset :=
  match ofSeconds? seconds with
  | some offset => .ok offset
  | none => .error (.offset seconds)

def zero : Offset := ⟨0, by decide⟩

def west (seconds : Int) : Except Error Offset := ofSeconds (-seconds)

def ofHours (hours : Int) : Except Error Offset := ofSeconds (hours * 3600)

def ofDuration (duration : Duration) : Except Error Offset :=
  if duration.nanos % 1000000000 = 0 then ofSeconds (duration.nanos / 1000000000)
  else .error .fractionalOffset

def toDuration (offset : Offset) : Duration := ⟨offset.seconds * 1000000000⟩

def signChar (seconds size : Int) : Char := if seconds < 0 ∧ size ≠ 0 then '-' else '+'

def separator (colon : Bool) : Text := if colon then [':'] else []

def minutesText (colon : Bool) (seconds : Int) : Text :=
  let size : Int := seconds.natAbs
  signChar seconds (size / 60) :: two (size / 3600) ++ separator colon ++ two (size % 3600 / 60)

def fullText (colon : Bool) (seconds : Int) : Text :=
  let size : Int := seconds.natAbs
  signChar seconds size :: two (size / 3600) ++ separator colon ++ two (size % 3600 / 60)
    ++ (if size % 60 = 0 then [] else separator colon ++ two (size % 60))

def text (offset : Offset) : Text := fullText true offset.seconds

def shown (offset : Offset) : Text := Text.ofString "FixedOffset(" ++ offset.text ++ [')']

end Offset

end ZonedTime
