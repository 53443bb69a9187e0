import ZonedTime.Bytes.Basic
import ZonedTime.Text.Basic

/-!
Paths, and a tree of files whose root is written `@`. A path is absolute if it starts at that root
or at `/`; nothing outside the tree exists.
-/

set_option autoImplicit false

namespace ZonedTime

namespace Path

def isAbsolute (path : Text) : Bool := path.head? == some '/' || path.head? == some '@'

def components (path : Text) : List Text :=
  (Text.words (· == '/') path).filter (· != ['.'])

/-- The slashes at the start, of which two are kept and more count as one. -/
def rootOf (path : Text) : Text :=
  let slashes := path.takeWhile (· == '/')
  if slashes.length = 2 then slashes else slashes.take 1

def normal (path : Text) : Text := rootOf path ++ ['/'].intercalate (components path)

def join (base name : Text) : Text :=
  if name.head? = some '/' then name
  else if base = [] ∨ base.getLast? = some '/' then base ++ name
  else base ++ '/' :: name

end Path

/-- Files by their components, and the folders that hold or held them. -/
structure Files where
  entries : List (List Text × Bytes)
  folders : List (List Text)
  deriving DecidableEq, Repr

namespace Files

def empty : Files := ⟨[], [[]]⟩

def ancestors (path : List Text) : List (List Text) :=
  (List.range path.length).map fun n => path.take n

def write (files : Files) (path : List Text) (bytes : Bytes) : Files where
  entries := (path, bytes) :: files.entries.filter (·.1 != path)
  folders := ancestors path ++ files.folders

def remove? (files : Files) (path : List Text) : Option Files :=
  if (files.entries.lookup path).isSome then
    some { files with entries := files.entries.filter (·.1 != path) }
  else none

/-- Follows names from a place; only in a folder can one stay or go back. -/
def walk (files : Files) (place : List Text) : List Text -> Option (List Text)
  | [] => some place
  | name :: rest =>
    if name = ['.'] then
      if files.folders.contains place then files.walk place rest else none
    else if name = ['.', '.'] then
      if files.folders.contains place && !place.isEmpty then files.walk place.dropLast rest
      else none
    else files.walk (place ++ [name]) rest

def locate? (files : Files) (path : Text) : Option (List Text) :=
  match Text.words (· == '/') path with
  | ['@'] :: rest => if path.head? = some '@' then files.walk [] rest else none
  | _ => none

def read? (files : Files) (path : Text) : Option Bytes :=
  (files.locate? path).bind fun place => files.entries.lookup place

def below (files : Files) (folder : Text) : List (List Text × Bytes) :=
  match files.locate? folder with
  | none => []
  | some place =>
    files.entries.filterMap fun (path, bytes) =>
      if place.isPrefixOf path && place.length < path.length then
        some (path.drop place.length, bytes)
      else none

end Files

end ZonedTime
