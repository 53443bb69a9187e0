import ZonedTime.Zone.Rules

/-!
The cache of loaded rules. `recent` holds the eight keys last asked for, oldest first, and
`lookup` every key whose rules are still in use somewhere. Rules loaded at different times are
different objects, told apart by a number.
-/

set_option autoImplicit false

namespace ZonedTime

structure Loaded where
  id : Nat
  rules : Rules
  deriving DecidableEq

structure Cache where
  lookup : List (Text × Loaded)
  recent : List (Text × Loaded)
  fresh : Nat
  deriving DecidableEq

namespace Cache

def capacity : Nat := 8

def empty : Cache := ⟨[], [], 0⟩

def touch (recent : List (Text × Loaded)) (key : Text) (loaded : Loaded) :
    List (Text × Loaded) :=
  let kept := (recent.lookup key).getD loaded
  let moved := recent.filter (·.1 != key) ++ [(key, kept)]
  if capacity < moved.length then moved.drop 1 else moved

def withLatest (cache : Cache) (key : Text) (loaded : Loaded) : Cache :=
  { cache with recent := touch cache.recent key loaded }

def get (load : Text -> Except Error Rules) (cache : Cache) (key : Text) :
    Except Error (Loaded × Cache) :=
  match cache.lookup.lookup key with
  | some loaded => .ok (loaded, cache.withLatest key loaded)
  | none => do
    let loaded : Loaded := ⟨cache.fresh, <- load key⟩
    let stored :=
      { cache with lookup := (key, loaded) :: cache.lookup, fresh := cache.fresh + 1 }
    return (loaded, stored.withLatest key loaded)

def clear (cache : Cache) : Cache := { cache with lookup := [], recent := [] }

def clearKeys (cache : Cache) (keys : List Text) : Cache :=
  { cache with
    lookup := cache.lookup.filter (!keys.contains ·.1)
    recent := cache.recent.filter (!keys.contains ·.1) }

def collect (cache : Cache) (used : List Nat) : Cache :=
  let alive := used ++ cache.recent.map (·.2.id)
  { cache with lookup := cache.lookup.filter (alive.contains ·.2.id) }

end Cache

end ZonedTime
