set_option autoImplicit false

namespace ZonedTime.Table

variable {α : Type}

def search (entries : Array (Int × α)) (x : Int) (low high : Nat)
    (inside : high ≤ entries.size) : Nat :=
  if some_left : low < high then
    let middle := (low + high) / 2
    have below : middle < high := by omega
    have within : middle < entries.size := by omega
    if entries[middle].1 ≤ x then search entries x (middle + 1) high inside
    else search entries x low middle (by omega)
  else low
termination_by high - low

def firstAfter? (entries : Array (Int × α)) (x : Int) : Option Nat :=
  let index := search entries x 0 entries.size (Nat.le_refl _)
  if index = entries.size then none else some index

end ZonedTime.Table
