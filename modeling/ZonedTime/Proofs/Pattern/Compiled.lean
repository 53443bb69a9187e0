import Mathlib.Data.List.Basic
import ZonedTime.Pattern.Item

/-!
What patterns compile to. What is true of literals, blanks, numbers in any padding and all listed
directives is true of every item.
-/

set_option autoImplicit false

namespace ZonedTime.Pattern

section

variable {p : Item -> Prop}

theorem directive?_forall (listed : ∀ entry ∈ directives, ∀ item ∈ entry.2, p item) {t : Text}
    {items : List Item} {length : Nat} (found : directive? t = some (items, length)) :
    ∀ item ∈ items, p item := by
  obtain ⟨stood, looked, same⟩ := Option.map_eq_some_iff.mp found
  obtain ⟨before, after, place, -⟩ := List.lookup_eq_some_iff.mp looked
  cases same
  have member : (t.take (keyLength t), items) ∈ directives := by
    rw [place]
    simp
  exact listed _ member

theorem padded?_forall (number : ∀ kind padding, p (.number kind padding))
    (listed : ∀ entry ∈ directives, ∀ item ∈ entry.2, p item) {t : Text}
    {items : List Item} {length : Nat} (found : padded? t = some (items, length)) :
    ∀ item ∈ items, p item := by
  unfold padded? at found
  split at found
  next padding _ =>
    simp only [Option.bind_eq_bind, Option.bind_eq_some_iff] at found
    obtain ⟨⟨plain, _⟩, -, again, repadded, same⟩ := found
    cases same
    unfold repad? at repadded
    split at repadded
    next =>
      cases repadded
      intro item member
      rw [List.mem_singleton.mp member]
      exact number _ padding
    next => cases repadded
  next => exact directive?_forall listed found

theorem compile?_forall (literal : ∀ t, p (.literal t)) (blank : ∀ t, p (.blank t))
    (number : ∀ kind padding, p (.number kind padding))
    (listed : ∀ entry ∈ directives, ∀ item ∈ entry.2, p item) {pattern : Text}
    {items : List Item} (compiled : compile? pattern = some items) : ∀ item ∈ items, p item := by
  fun_induction compile? pattern generalizing items with
  | case1 =>
    cases compiled
    simp
  | case2 c rest percent found length padded ih =>
    obtain ⟨later, compiledLater, rfl⟩ := Option.map_eq_some_iff.mp compiled
    intro item member
    rcases List.mem_append.mp member with here | there
    next => exact padded?_forall number listed padded item here
    next => exact ih compiledLater item there
  | case3 c rest percent unknown =>
    cases compiled
  | case4 c rest other isBlank run =>
    rename_i ih
    obtain ⟨later, compiledLater, rfl⟩ := Option.map_eq_some_iff.mp compiled
    exact List.forall_mem_cons.mpr ⟨blank _, ih compiledLater⟩
  | case5 c rest other notBlank run =>
    rename_i ih
    obtain ⟨later, compiledLater, rfl⟩ := Option.map_eq_some_iff.mp compiled
    exact List.forall_mem_cons.mpr ⟨literal _, ih compiledLater⟩

end

end ZonedTime.Pattern
