import ZonedTime.Error.Basic

set_option autoImplicit false

namespace ZonedTime

inductive Resolution (α : Type) where
  | skipped
  | single (value : α)
  | ambiguous (earlier later : α)
  deriving DecidableEq, Repr

namespace Resolution

variable {α β : Type}

def toList : Resolution α -> List α
  | skipped => []
  | single value => [value]
  | ambiguous earlier later => [earlier, later]

def single? : Resolution α -> Option α
  | single value => some value
  | _ => none

def earliest? : Resolution α -> Option α
  | skipped => none
  | single value => some value
  | ambiguous earlier _ => some earlier

def latest? : Resolution α -> Option α
  | skipped => none
  | single value => some value
  | ambiguous _ later => some later

def isPossible : Resolution α -> Bool
  | skipped => false
  | _ => true

def map (f : α -> β) : Resolution α -> Resolution β
  | skipped => skipped
  | single value => single (f value)
  | ambiguous earlier later => ambiguous (f earlier) (f later)

def mapM (f : α -> Except Error β) : Resolution α -> Except Error (Resolution β)
  | skipped => .ok skipped
  | single value => do return single (<- f value)
  | ambiguous earlier later => do
    let first <- f earlier
    let second <- f later
    return ambiguous first second

def filterMap (f : α -> Option β) : Resolution α -> Resolution β
  | skipped => skipped
  | single value =>
    match f value with
    | some image => single image
    | none => skipped
  | ambiguous earlier later =>
    match f earlier, f later with
    | some first, some second => ambiguous first second
    | some first, none => single first
    | none, some second => single second
    | none, none => skipped

def unwrap : Resolution α -> Except Error α
  | skipped => .error .skipped
  | single value => .ok value
  | ambiguous _ _ => .error .repeated

def shown (text : α -> Text) : Resolution α -> Text
  | skipped => Text.ofString "Skipped()"
  | single value => Text.ofString "Single(" ++ text value ++ [')']
  | ambiguous earlier later =>
    Text.ofString "Ambiguous(" ++ text earlier ++ [',', ' '] ++ text later ++ [')']

end Resolution

end ZonedTime
