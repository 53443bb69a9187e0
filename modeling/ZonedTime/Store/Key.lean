import ZonedTime.Error.Basic

set_option autoImplicit false

namespace ZonedTime.Key

def allows (c : Char) : Bool :=
  c.isAlphanum || c == '-' || c == '_' || c == '+' || c == '/' || c == '.'

def allowsFirst (c : Char) : Bool := c != '.' && c != '-' && c != '+' && c != '/'

def isSafe (key : Text) : Bool :=
  0 < key.length && key.length < 100 && key.all allows
    && !Text.hasInfix ['.', '.'] key
    && !Text.hasInfix ['/', '/'] key
    && !Text.hasInfix ['/', '.', '/'] key
    && allowsFirst (key.headD '/')
    && key.getLastD '/' != '/'

def check (key : Text) : Except Error Text :=
  if isSafe key then .ok key else .error (.unknownZone key)

def marker : Text := Text.ofString "zoneinfo"

def fromLastMarker? : Text -> Option Text
  | [] => none
  | c :: rest =>
    match fromLastMarker? rest with
    | some found => some found
    | none => if marker.isPrefixOf (c :: rest) then some (c :: rest) else none

def ofPath? (path : Text) : Option Text := do
  let found <- fromLastMarker? path
  let key := (found.dropWhile (· != '/')).drop 1
  if key.isEmpty then none else some key

end ZonedTime.Key
