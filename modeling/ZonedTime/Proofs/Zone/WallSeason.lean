import ZonedTime.Proofs.Zone.Yearly

/-!
What the wall says of a yearly rule, wherever its changes lie: the season by the changes of one
year in the order that they have on the wall, except in the gap that one of them leaves.
-/

set_option autoImplicit false

namespace ZonedTime.Yearly

open Calendar

/-- The readings that a change of the year skips. Only one of the changes is forward. -/
def InGap (standard : Int) (daylight : Daylight) (year wall : Int) : Prop :=
  (daylight.start.localSecond year ≤ wall
    ∧ wall < daylight.start.localSecond year + (daylight.offset - standard))
  ∨ (daylight.stop.localSecond year ≤ wall
    ∧ wall < daylight.stop.localSecond year - (daylight.offset - standard))

instance (daylight : Daylight) (year : Int) : Decidable (StartsFirst daylight year) := by
  unfold StartsFirst
  infer_instance

instance (daylight : Daylight) (year onStandard onDaylight : Int) :
    Decidable (InSeason daylight year onStandard onDaylight) := by
  unfold InSeason
  infer_instance

instance (standard : Int) (daylight : Daylight) (year wall : Int) :
    Decidable (InGap standard daylight year wall) := by
  unfold InGap
  infer_instance

variable {standard : Int} {daylight : Daylight} {year : Int}

theorem InGap.between {first wall last : Int} (low : InGap standard daylight year first)
    (high : InGap standard daylight year last) (after : first ≤ wall) (before : wall ≤ last) :
    InGap standard daylight year wall := by
  unfold InGap at *
  omega

theorem mem_offsetsBetween_iff {outer inner first second : Int} (ordered : first ≤ second)
    (wall offset : Int) :
    offset ∈ (offsetsBetween outer inner first second wall).toList ↔
      ((offset = outer ∧ (wall < first ∨ second - (inner - outer) ≤ wall))
        ∨ (offset = inner ∧ first + (inner - outer) ≤ wall ∧ wall < second))
      ∧ ¬ (first ≤ wall ∧ wall < first + (inner - outer)
        ∨ second ≤ wall ∧ wall < second - (inner - outer)) := by
  simp only [offsetsBetween]
  repeat' split
  all_goals simp only [Resolution.toList, List.mem_cons, List.not_mem_nil, or_false, false_iff]
  all_goals omega

theorem mem_offsetsAtWall_iff (name : Text) (wall offset : Int) :
    offset ∈ (offsetsAtWall ⟨standard, name, some daylight⟩ wall).toList ↔
      ((offset = standard ∧ ¬ InSeason daylight (yearOfEpoch wall) wall
        (wall - standard + daylight.offset))
      ∨ (offset = daylight.offset ∧ InSeason daylight (yearOfEpoch wall)
        (wall - daylight.offset + standard) wall))
      ∧ ¬ InGap standard daylight (yearOfEpoch wall) wall := by
  unfold InSeason StartsFirst InGap
  simp only [offsetsAtWall]
  split
  next first =>
    rw [mem_offsetsBetween_iff (by omega)]
    omega
  next first =>
    rw [mem_offsetsBetween_iff (by omega)]
    omega

theorem offsetsAtWall_eq_skipped_iff (name : Text) (wall : Int) :
    offsetsAtWall ⟨standard, name, some daylight⟩ wall = .skipped ↔
      InGap standard daylight (yearOfEpoch wall) wall := by
  unfold InGap
  simp only [offsetsAtWall, offsetsBetween]
  repeat' split
  all_goals simp only [reduceCtorEq, true_iff, false_iff]
  all_goals omega

/-- Of one year's readings those between two that do not exist do not exist either. -/
theorem skipped_between (rule : Yearly) {first wall last : Int}
    (sameYear : yearOfEpoch first = yearOfEpoch wall ∧ yearOfEpoch last = yearOfEpoch wall)
    (low : rule.offsetsAtWall first = .skipped) (high : rule.offsetsAtWall last = .skipped)
    (after : first ≤ wall) (before : wall ≤ last) : rule.offsetsAtWall wall = .skipped := by
  obtain ⟨standard, name, _ | daylight⟩ := rule
  next => cases low
  next =>
    rw [offsetsAtWall_eq_skipped_iff] at low high ⊢
    rw [sameYear.1] at low
    rw [sameYear.2] at high
    exact low.between high after before

/-- Within a year a reading that the wall shows at all is shown no later, counted in UTC, than a
later reading is at any of its offsets. -/
theorem exists_not_later (rule : Yearly) {reading later offset : Int} (ordered : reading ≤ later)
    (sameYear : yearOfEpoch reading = yearOfEpoch later)
    (shown : offset ∈ (rule.offsetsAtWall later).toList)
    (visible : rule.offsetsAtWall reading ≠ .skipped) :
    ∃ other ∈ (rule.offsetsAtWall reading).toList, reading - other ≤ later - offset := by
  obtain ⟨standard, name, _ | daylight⟩ := rule
  next =>
    obtain rfl : offset = standard := List.mem_singleton.mp shown
    exact ⟨offset, .head _, Int.sub_le_sub_right ordered offset⟩
  next =>
    rw [ne_eq, offsetsAtWall_eq_skipped_iff] at visible
    rw [mem_offsetsAtWall_iff, ← sameYear] at shown
    by_cases still : offset ∈ (offsetsAtWall ⟨standard, name, some daylight⟩ reading).toList
    next => exact ⟨offset, still, by omega⟩
    next =>
      -- The change between the two readings leads to the later one's offset from the other one. If
      -- it is a change back, the later reading is past all that the clock shows twice.
      refine ⟨standard + daylight.offset - offset, ?_, ?_⟩
      next =>
        rw [mem_offsetsAtWall_iff] at still ⊢
        unfold InSeason StartsFirst InGap at *
        omega
      next =>
        rw [mem_offsetsAtWall_iff] at still
        unfold InSeason StartsFirst InGap at *
        omega

end ZonedTime.Yearly
