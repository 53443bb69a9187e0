import Mathlib.Data.Set.Card
import ZonedTime.Zone.Resolution

set_option autoImplicit false

namespace ZonedTime

/-- The local seconds around a change of offset, which the wall skips or repeats. -/
structure Window where
  first : Int
  last : Int
  ordered : first ≤ last

namespace Window

def around (second before after : Int) : Window where
  first := second + min before after
  last := second + max before after
  ordered := by omega

@[simp]
theorem around_first (second before after : Int) :
    (around second before after).first = second + min before after := rfl

@[simp]
theorem around_last (second before after : Int) :
    (around second before after).last = second + max before after := rfl

end Window

def showing (offsetAt : Int -> Int) (wall : Int) : Set Int :=
  {second | second + offsetAt second = wall}

theorem encard_showing {offsetAt : Int -> Int} {wall : Int} {offsets : Resolution Int}
    (nodup : offsets.toList.Nodup)
    (exact : ∀ offset, offset ∈ offsets.toList ↔ offsetAt (wall - offset) = offset) :
    (showing offsetAt wall).encard = offsets.toList.length := by
  have image : showing offsetAt wall =
      (fun offset => wall - offset) '' (offsets.toList.toFinset : Set Int) := by
    ext second
    simp only [showing, Set.mem_ofPred_eq, Set.mem_image, List.coe_toFinset]
    constructor
    · intro shown
      refine ⟨wall - second, (exact _).mpr ?_, by omega⟩
      rw [show wall - (wall - second) = second by omega]
      omega
    · rintro ⟨offset, member, rfl⟩
      have := (exact offset).mp member
      omega
  have injective : Function.Injective fun offset : Int => wall - offset := by
    intro a b same
    simp only at same
    omega
  rw [image, injective.encard_image, Set.encard_coe_eq_coe_finsetCard,
    List.toFinset_card_of_nodup nodup]

end ZonedTime
