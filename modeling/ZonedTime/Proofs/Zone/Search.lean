import Mathlib.Algebra.Group.Nat.Defs
import Mathlib.Logic.Function.Iterate
import ZonedTime.Zone.Search

set_option autoImplicit false

namespace ZonedTime.Table

variable {α : Type}

def InOrder (entries : List (Int × α)) : Prop := entries.Pairwise fun a b => a.1 ≤ b.1

theorem InOrder.getElem_le {entries : Array (Int × α)} (inOrder : InOrder entries.toList)
    {i j : Nat} (ordered : i ≤ j) (inside : j < entries.size) :
    entries[i].1 ≤ entries[j].1 := by
  rcases Nat.lt_or_eq_of_le ordered with before | rfl
  next =>
    exact List.pairwise_iff_getElem.mp inOrder i j (by simp only [Array.length_toList]; omega)
      (by simp only [Array.length_toList]; omega) before
  next => exact Int.le_refl _

theorem search_le (entries : Array (Int × α)) (x : Int) (low high : Nat)
    (inside : high ≤ entries.size) (ordered : low ≤ high) :
    search entries x low high inside ≤ high := by
  fun_induction search entries x low high inside with
  | case1 low high inside some_left middle below within early ih => exact ih below
  | case2 low high inside some_left middle below within late ih => have := ih (by omega); omega
  | case3 low high inside none_left => exact ordered

/-- Where all entries before `low` and none from `high` on are up to `x`, so it is for the place
that is found. -/
theorem search_splits (entries : Array (Int × α)) (x : Int) (low high : Nat)
    (inside : high ≤ entries.size) (inOrder : InOrder entries.toList)
    (before : ∀ i (within : i < entries.size), i < low → entries[i].1 ≤ x)
    (after : ∀ i (within : i < entries.size), high ≤ i → x < entries[i].1) :
    ∀ i (within : i < entries.size),
      i < search entries x low high inside ↔ entries[i].1 ≤ x := by
  fun_induction search entries x low high inside with
  | case1 low high inside some_left middle below within early ih =>
    apply ih _ after
    intro i isEntry left
    have := inOrder.getElem_le (show i ≤ middle by omega) within
    omega
  | case2 low high inside some_left middle below within late ih =>
    apply ih before
    intro i isEntry right
    have := inOrder.getElem_le right isEntry
    omega
  | case3 low high inside none_left =>
    intro i isEntry
    constructor
    next => exact before i isEntry
    next =>
      intro early
      apply Nat.lt_of_not_le
      intro right
      have := after i isEntry (by omega)
      omega

theorem firstAfter?_eq_findIdx? (entries : Array (Int × α)) (x : Int)
    (inOrder : InOrder entries.toList) :
    firstAfter? entries x = entries.findIdx? fun entry => x < entry.1 := by
  have splits := search_splits entries x 0 entries.size (Nat.le_refl _) inOrder
    (fun i _ left => absurd left (Nat.not_lt_zero i)) (fun i within right => by omega)
  have bound := search_le entries x 0 entries.size (Nat.le_refl _) (Nat.zero_le _)
  unfold firstAfter?
  generalize search entries x 0 entries.size (Nat.le_refl _) = index at splits bound
  symm
  by_cases ended : index = entries.size
  next =>
    simp only [ended, if_true, Array.findIdx?_eq_none_iff, decide_eq_false_iff_not]
    intro entry member
    obtain ⟨i, within, rfl⟩ := Array.mem_iff_getElem.mp member
    have := (splits i within).mp (by omega)
    omega
  next =>
    simp only [ended, if_false, Array.findIdx?_eq_some_iff_getElem, decide_eq_true_eq]
    refine ⟨by omega, ?_, ?_⟩
    next =>
      have := splits index (by omega)
      omega
    next =>
      intro j left
      have := (splits j (by omega)).mp left
      omega

def halve (entries : Array (Int × α)) (x : Int) (range : Nat × Nat) : Nat × Nat :=
  if range.1 < range.2 then
    let middle := (range.1 + range.2) / 2
    match entries[middle]? with
    | some entry => if entry.1 ≤ x then (middle + 1, range.2) else (range.1, middle)
    | none => range
  else range

theorem halve_inside {entries : Array (Int × α)} (x : Int) {low high : Nat}
    (some_left : low < high) (within : (low + high) / 2 < entries.size) :
    halve entries x (low, high) =
      if entries[(low + high) / 2].1 ≤ x then ((low + high) / 2 + 1, high)
      else (low, (low + high) / 2) := by
  simp only [halve, some_left, if_true, Array.getElem?_eq_getElem within]

theorem iterate_halve (entries : Array (Int × α)) (x : Int) (low high : Nat)
    (inside : high ≤ entries.size) (ordered : low ≤ high) (passes : Nat)
    (enough : high - low < 2 ^ passes) :
    (halve entries x)^[passes] (low, high) =
      (search entries x low high inside, search entries x low high inside) := by
  fun_induction search entries x low high inside generalizing passes with
  | case1 low high inside some_left middle below within early ih =>
    cases passes with
    | zero => omega
    | succ passes =>
      rw [Nat.pow_succ] at enough
      rw [Function.iterate_succ_apply, halve_inside x some_left within, if_pos early]
      exact ih below passes (by omega)
  | case2 low high inside some_left middle below within late ih =>
    cases passes with
    | zero => omega
    | succ passes =>
      rw [Nat.pow_succ] at enough
      rw [Function.iterate_succ_apply, halve_inside x some_left within, if_neg late]
      exact ih (by omega) passes (by omega)
  | case3 low high inside none_left =>
    have still : halve entries x (low, high) = (low, high) := if_neg none_left
    have same : high = low := by omega
    rw [Function.iterate_fixed still, same]

theorem getD_firstAfter? (entries : Array (Int × α)) (x : Int) :
    (firstAfter? entries x).getD entries.size =
      search entries x 0 entries.size (Nat.le_refl _) := by
  by_cases ended : search entries x 0 entries.size (Nat.le_refl _) = entries.size
  next => simp only [firstAfter?, ended, if_true, Option.getD_none]
  next => simp only [firstAfter?, ended, if_false, Option.getD_some]

/-- In a table in order of time, with or without repeated times, the first entry after `x` is
found, and none is found exactly if no entry comes after `x`. The search is over at that place after
as many passes as it takes to halve the table to nothing. -/
theorem firstAfter?_first {entries : Array (Int × α)} (inOrder : InOrder entries.toList)
    (x : Int) :
    (∀ index, firstAfter? entries x = some index ↔
      ∃ within : index < entries.size, x < entries[index].1
        ∧ ∀ earlier (before : earlier < index), entries[earlier].1 ≤ x)
      ∧ (firstAfter? entries x = none ↔ ∀ entry ∈ entries, entry.1 ≤ x)
      ∧ ∀ passes, entries.size < 2 ^ passes →
        (halve entries x)^[passes] (0, entries.size) =
          ((firstAfter? entries x).getD entries.size,
            (firstAfter? entries x).getD entries.size) := by
  refine ⟨fun index => ?_, ?_, fun passes enough => ?_⟩
  next =>
    rw [firstAfter?_eq_findIdx? entries x inOrder, Array.findIdx?_eq_some_iff_getElem]
    simp only [decide_eq_true_eq, Int.not_lt]
  next =>
    rw [firstAfter?_eq_findIdx? entries x inOrder, Array.findIdx?_eq_none_iff]
    simp only [decide_eq_false_iff_not, Int.not_lt]
  next =>
    rw [getD_firstAfter?]
    exact iterate_halve entries x 0 entries.size (Nat.le_refl _) (Nat.zero_le _) passes enough

def repeated : Array (Int × Char) := #[(-9, 'w'), (4, 's'), (4, 'd'), (7, 'w')]

theorem firstAfter?_first_repeated :
    InOrder repeated.toList ∧ firstAfter? repeated 3 = some 1 ∧ firstAfter? repeated 4 = some 3
      ∧ firstAfter? repeated 7 = none ∧ (halve repeated 4)^[3] (0, 4) = (3, 3) := by
  have inOrder : InOrder repeated.toList := by
    simp [InOrder, repeated]
  have before := ((firstAfter?_first inOrder 3).1 1).mpr (by decide)
  obtain ⟨found, -, passes⟩ := firstAfter?_first inOrder 4
  have after := (found 3).mpr (by decide)
  have ended := (firstAfter?_first inOrder 7).2.1.mpr (by decide)
  have stands := passes 3 (by decide)
  rw [after] at stands
  exact ⟨inOrder, before, after, ended, stands⟩

end ZonedTime.Table
