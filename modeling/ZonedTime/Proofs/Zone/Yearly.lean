import ZonedTime.Proofs.Reading.SecondLine
import ZonedTime.Proofs.Zone.Showing
import ZonedTime.Zone.Yearly

/-!
Yearly rules in both directions. Both look at the changes of one year, but not always of the same
one: around the new year they agree where it is the same season in the one year and in the other.
-/

set_option autoImplicit false

namespace ZonedTime

open Calendar

namespace Yearly

def startWindow (standard : Int) (daylight : Daylight) (year : Int) : Window where
  first := daylight.start.localSecond year + min 0 (daylight.offset - standard)
  last := daylight.start.localSecond year + max 0 (daylight.offset - standard)
  ordered := by omega

def stopWindow (standard : Int) (daylight : Daylight) (year : Int) : Window where
  first := daylight.stop.localSecond year - max 0 (daylight.offset - standard)
  last := daylight.stop.localSecond year - min 0 (daylight.offset - standard)
  ordered := by omega

/-- Both changes of a year are made in that year and away from each other. -/
structure Regular (standard : Int) (daylight : Daylight) (year : Int) : Prop where
  startInside : newYear year ≤ (startWindow standard daylight year).first
    ∧ (startWindow standard daylight year).last ≤ newYear (year + 1)
  stopInside : newYear year ≤ (stopWindow standard daylight year).first
    ∧ (stopWindow standard daylight year).last ≤ newYear (year + 1)
  apart : (startWindow standard daylight year).last < (stopWindow standard daylight year).first
    ∨ (stopWindow standard daylight year).last < (startWindow standard daylight year).first

def StartsFirst (daylight : Daylight) (year : Int) : Prop :=
  daylight.start.localSecond year < daylight.stop.localSecond year

/-- Whether a moment is in daylight saving time by the changes of a year. The moment is given by
what clocks on standard time and clocks on daylight saving time show then. -/
def InSeason (daylight : Daylight) (year onStandard onDaylight : Int) : Prop :=
  (StartsFirst daylight year → daylight.start.localSecond year ≤ onStandard
    ∧ onDaylight < daylight.stop.localSecond year)
  ∧ (¬ StartsFirst daylight year → onDaylight < daylight.stop.localSecond year
    ∨ daylight.start.localSecond year ≤ onStandard)

theorem mem_offsetsBetween {outer inner first second : Int}
    (apart : first + max 0 (inner - outer) ≤ second - max 0 (inner - outer)) (wall offset : Int) :
    offset ∈ (offsetsBetween outer inner first second wall).toList ↔
      (offset = outer ∧ (wall < first ∨ second - (inner - outer) ≤ wall))
        ∨ (offset = inner ∧ first + (inner - outer) ≤ wall ∧ wall < second) := by
  simp only [offsetsBetween]
  -- Either sign of the shift gives the same two stretches of the wall, which overlap or leave a
  -- gap between them.
  repeat' split
  all_goals simp only [Resolution.toList, List.mem_cons, List.not_mem_nil, or_false, false_iff]
  all_goals omega

variable {standard : Int} {daylight : Daylight}

theorem inDaylight_iff {second : Int}
    (regular : Regular standard daylight (yearOfEpoch (second + standard))) :
    inDaylight standard daylight second ↔
      InSeason daylight (yearOfEpoch (second + standard)) (second + standard)
        (second + daylight.offset) := by
  -- The windows lie apart, so that in UTC the changes come in the same order as on the wall.
  have apart := regular.apart
  unfold inDaylight InSeason StartsFirst
  simp only [startWindow, stopWindow] at apart ⊢
  split <;> simp only [Bool.and_eq_true, Bool.not_eq_true', Bool.and_eq_false_iff,
    decide_eq_true_eq, decide_eq_false_iff_not] <;> omega

theorem offsetAtUtc_eq_iff (name : Text) {second : Int} (offset : Int)
    (regular : Regular standard daylight (yearOfEpoch (second + standard))) :
    offsetAtUtc ⟨standard, name, some daylight⟩ second = offset ↔
      (offset = standard ∧ ¬ InSeason daylight (yearOfEpoch (second + standard))
        (second + standard) (second + daylight.offset))
      ∨ (offset = daylight.offset ∧ InSeason daylight (yearOfEpoch (second + standard))
        (second + standard) (second + daylight.offset)) := by
  rw [← inDaylight_iff regular]
  simp only [offsetAtUtc]
  by_cases shown : inDaylight standard daylight second <;>
    simp only [shown, if_true, if_false, Bool.false_eq_true, not_true, not_false_eq_true,
      and_true, and_false, or_false, false_or] <;> exact eq_comm

theorem mem_offsetsAtWall (name : Text) {wall : Int} (offset : Int)
    (regular : Regular standard daylight (yearOfEpoch wall)) :
    offset ∈ (offsetsAtWall ⟨standard, name, some daylight⟩ wall).toList ↔
      (offset = standard ∧ ¬ InSeason daylight (yearOfEpoch wall) wall
        (wall - standard + daylight.offset))
      ∨ (offset = daylight.offset ∧ InSeason daylight (yearOfEpoch wall)
        (wall - daylight.offset + standard) wall) := by
  have apart := regular.apart
  unfold InSeason StartsFirst
  simp only [offsetsAtWall, startWindow, stopWindow] at apart ⊢
  split
  next first =>
    rw [mem_offsetsBetween (by omega)]
    omega
  next first =>
    rw [mem_offsetsBetween (by omega)]
    omega

/-- While it is one year on standard time and another one on daylight saving time, the season is
on just if it spans the new year. -/
theorem inSeason_at_newYear {year turn onStandard : Int} (regular : Regular standard daylight year)
    (atTurn : turn = newYear year ∨ turn = newYear (year + 1))
    (between : onStandard < turn ↔ turn ≤ onStandard + (daylight.offset - standard)) :
    InSeason daylight year onStandard (onStandard + (daylight.offset - standard)) ↔
      ¬ StartsFirst daylight year := by
  obtain ⟨startInside, stopInside, apart⟩ := regular
  unfold InSeason StartsFirst
  simp only [startWindow, stopWindow] at startInside stopInside apart
  omega

theorem inSeason_neighbours {year onStandard : Int} (before : Regular standard daylight year)
    (after : Regular standard daylight (year + 1))
    (between : onStandard < newYear (year + 1) ↔
      newYear (year + 1) ≤ onStandard + (daylight.offset - standard)) :
    (InSeason daylight year onStandard (onStandard + (daylight.offset - standard)) ↔
      InSeason daylight (year + 1) onStandard (onStandard + (daylight.offset - standard))) ↔
    (StartsFirst daylight year ↔ StartsFirst daylight (year + 1)) := by
  rw [inSeason_at_newYear before (.inr rfl) between, inSeason_at_newYear after (.inl rfl) between]
  exact not_iff_not

/-- Clocks on standard time show the year of the wall or, over a new year, the one next to it. -/
theorem yearOfEpoch_onStandard
    (regular : ∀ year, 1 ≤ year → year ≤ 9999 → Regular standard daylight year)
    (reading : Reading) {onStandard : Int}
    (shown : onStandard + (daylight.offset - standard) = reading.epochSecond) :
    yearOfEpoch onStandard = reading.date.year
    ∨ (1 ≤ reading.date.year - 1 ∧ yearOfEpoch onStandard = reading.date.year - 1
      ∧ onStandard < newYear reading.date.year)
    ∨ (reading.date.year + 1 ≤ 9999 ∧ yearOfEpoch onStandard = reading.date.year + 1
      ∧ newYear (reading.date.year + 1) ≤ onStandard) := by
  have inYear := reading.in_year
  obtain ⟨first, last, -⟩ := reading.date.real
  generalize reading.date.year = year at *
  -- The windows fit into each year, and so does the difference of the offsets.
  have fits : ∀ other, 1 ≤ other → other ≤ 9999 →
      newYear other + max 0 (daylight.offset - standard)
        - min 0 (daylight.offset - standard) ≤ newYear (other + 1) := by
    intro other first last
    have inside := (regular other first last).startInside
    simp only [startWindow] at inside
    omega
  by_cases early : onStandard < newYear year ∧ year ≠ 1
  next =>
    have before := fits (year - 1) (by omega) (by omega)
    rw [Int.sub_add_cancel] at before
    refine .inr (.inl ⟨by omega, ?_, early.1⟩)
    refine yearOfEpoch_eq (by omega) (by omega) (.inr (by omega)) (.inr ?_)
    rw [Int.sub_add_cancel]
    exact early.1
  next =>
    by_cases late : newYear (year + 1) ≤ onStandard ∧ year ≠ 9999
    next =>
      have after := fits (year + 1) (by omega) (by omega)
      refine .inr (.inr ⟨by omega, ?_, late.1⟩)
      exact yearOfEpoch_eq (by omega) (by omega) (.inr late.1) (.inr (by omega))
    next => exact .inl (yearOfEpoch_eq first last (by omega) (by omega))

theorem inSeason_onStandard
    (regular : ∀ year, 1 ≤ year → year ≤ 9999 → Regular standard daylight year)
    (alike : ∀ year, 1 ≤ year → year < 9999 →
      (StartsFirst daylight year ↔ StartsFirst daylight (year + 1)))
    (reading : Reading) {onStandard : Int}
    (shown : onStandard + (daylight.offset - standard) = reading.epochSecond) :
    InSeason daylight (yearOfEpoch onStandard) onStandard reading.epochSecond ↔
      InSeason daylight reading.date.year onStandard reading.epochSecond := by
  have inYear := reading.in_year
  obtain ⟨first, last, -⟩ := reading.date.real
  have here := regular reading.date.year first last
  rcases yearOfEpoch_onStandard regular reading shown with
    same | ⟨ahead, year, early⟩ | ⟨ahead, year, late⟩
  next => rw [same]
  next =>
    obtain ⟨before, next⟩ : ∃ before, reading.date.year = before + 1 :=
      ⟨reading.date.year - 1, by omega⟩
    rw [next, Int.add_sub_cancel] at ahead year
    rw [next] at here early inYear last ⊢
    have order := alike before ahead (by omega)
    rw [year]
    rw [← shown] at inYear ⊢
    exact (inSeason_neighbours (regular before ahead (by omega)) here (by omega)).mpr order
  next =>
    have order := alike reading.date.year first (by omega)
    rw [year]
    rw [← shown] at inYear ⊢
    exact ((inSeason_neighbours here (regular _ (by omega) ahead) (by omega)).mpr order).symm

theorem exact_iff (name : Text)
    (regular : ∀ year, 1 ≤ year → year ≤ 9999 → Regular standard daylight year)
    {wall onStandard : Int} (shown : wall = onStandard + (daylight.offset - standard)) :
    (∀ offset, offset ∈ (offsetsAtWall ⟨standard, name, some daylight⟩ wall).toList ↔
      offsetAtUtc ⟨standard, name, some daylight⟩ (wall - offset) = offset) ↔
    daylight.offset = standard ∨ (InSeason daylight (yearOfEpoch onStandard) onStandard wall ↔
      InSeason daylight (yearOfEpoch wall) onStandard wall) := by
  have regularAt : ∀ second, Regular standard daylight (yearOfEpoch second) := fun second =>
    regular _ (yearOfEpoch_range second).1 (yearOfEpoch_range second).2
  have onWall : wall - standard + standard = wall := by omega
  have offWall : wall - daylight.offset + standard = onStandard := by omega
  have daylightWall : wall - daylight.offset + daylight.offset = wall := by omega
  constructor
  next =>
    intro exact
    by_cases still : daylight.offset = standard
    next => exact .inl still
    next =>
      have both := exact daylight.offset
      rw [mem_offsetsAtWall name _ (regularAt _), offsetAtUtc_eq_iff name _ (regularAt _)] at both
      simp only [still, false_and, true_and, false_or, offWall, daylightWall] at both
      exact .inr both.symm
  next =>
    intro season offset
    rw [mem_offsetsAtWall name _ (regularAt _), offsetAtUtc_eq_iff name _ (regularAt _)]
    by_cases still : daylight.offset = standard
    next =>
      -- In season or not, both sides come down to the one offset.
      simp only [still, ← and_or_left, Int.sub_add_cancel]
      exact and_congr_right fun _ => by simp [or_comm, Classical.em]
    next =>
      by_cases ofStandard : offset = standard
      next => simp only [ofStandard, onWall, Ne.symm still, false_and, or_false]
      next =>
        refine or_congr (by simp only [ofStandard, false_and]) (and_congr_right ?_)
        rintro rfl
        rw [offWall, daylightWall]
        exact (season.resolve_left still).symm

theorem exists_over_newYear {year : Int} (first : 1 ≤ year) (last : year < 9999)
    (before : Regular standard daylight year) (after : Regular standard daylight (year + 1))
    (moves : daylight.offset ≠ standard) :
    ∃ (reading : Reading) (onStandard : Int),
      reading.epochSecond = onStandard + (daylight.offset - standard)
      ∧ (onStandard < newYear (year + 1) ↔ newYear (year + 1) ≤ reading.epochSecond)
      ∧ (yearOfEpoch onStandard = year ∧ yearOfEpoch reading.epochSecond = year + 1
        ∨ yearOfEpoch onStandard = year + 1 ∧ yearOfEpoch reading.epochSecond = year) := by
  have low := newYear_mono first
  have high := newYear_mono (show year + 1 + 1 ≤ 10000 by omega)
  have fits := And.intro before.startInside after.startInside
  simp only [startWindow] at fits
  have early : ∀ {second}, newYear year ≤ second → second < newYear (year + 1) →
      yearOfEpoch second = year := fun low high =>
    yearOfEpoch_eq first (by omega) (.inr low) (.inr high)
  have late : ∀ {second}, newYear (year + 1) ≤ second → second < newYear (year + 1 + 1) →
      yearOfEpoch second = year + 1 := fun low high =>
    yearOfEpoch_eq (by omega) (by omega) (.inr low) (.inr high)
  -- Standard time is late with the new year or early, so the last second of the old year will do
  -- or the first one of the new year.
  rcases Int.lt_or_gt_of_ne moves with west | east
  next =>
    obtain ⟨reading, place⟩ := Reading.exists_epochSecond
      (show newYear 1 ≤ newYear (year + 1) - 1 by omega) (by omega)
    refine ⟨reading, _, (Int.sub_add_cancel _ _).symm, by omega, .inr ⟨?_, ?_⟩⟩
    next => exact late (by omega) (by omega)
    next => exact early (by omega) (by omega)
  next =>
    obtain ⟨reading, place⟩ := Reading.exists_epochSecond
      (show newYear 1 ≤ newYear (year + 1) by omega) (by omega)
    refine ⟨reading, _, (Int.sub_add_cancel _ _).symm, by omega, .inl ⟨?_, ?_⟩⟩
    next => exact early (by omega) (by omega)
    next => exact late (by omega) (by omega)

/-- Where the changes of each year stay within it and apart, the two directions agree on every
reading just if there is nothing to change or the start and the stop never change places. -/
theorem offsetsAtWall_exact_iff (name : Text)
    (regular : ∀ year, 1 ≤ year → year ≤ 9999 → Regular standard daylight year) :
    let rule : Yearly := ⟨standard, name, some daylight⟩
    (∀ (reading : Reading) (offset : Int),
      offset ∈ (rule.offsetsAtWall reading.epochSecond).toList ↔
        rule.offsetAtUtc (reading.epochSecond - offset) = offset) ↔
    daylight.offset = standard ∨ ∀ year, 1 ≤ year → year < 9999 →
      (StartsFirst daylight year ↔ StartsFirst daylight (year + 1)) := by
  intro rule
  constructor
  next =>
    intro exact
    by_cases still : daylight.offset = standard
    next => exact .inl still
    next =>
      refine .inr fun year first last => ?_
      have before := regular year first (by omega)
      have after := regular (year + 1) (by omega) (by omega)
      obtain ⟨reading, onStandard, shown, crossed, years⟩ :=
        exists_over_newYear first last before after still
      have season := ((exact_iff name regular shown).mp (exact reading)).resolve_left still
      rw [shown] at crossed
      refine (inSeason_neighbours before after crossed).mp ?_
      rw [← shown]
      rcases years with ⟨early, late⟩ | ⟨late, early⟩
      next => rwa [early, late] at season
      next =>
        rw [early, late] at season
        exact season.symm
  next =>
    intro alike reading
    have shown : reading.epochSecond = reading.epochSecond - (daylight.offset - standard)
        + (daylight.offset - standard) := by omega
    refine (exact_iff name regular shown).mpr (alike.imp id fun alike => ?_)
    rw [reading.yearOfEpoch_epochSecond]
    exact inSeason_onStandard regular alike reading shown.symm

theorem julian_localSecond (n time year : Int) :
    (Change.mk (.julian n) time).localSecond year =
      newYear year + (n + (if isLeap year && 59 < n then 1 else 0) - 1) * 86400 + time := by
  simp only [Change.localSecond, ChangeDay.dayNumber, ChangeDay.anchor, ChangeDay.shift,
    Calendar.dayNumber, daysBeforeMonth_first, newYear, secondsPerDay]
  omega

theorem yearDay_localSecond (n time year : Int) :
    (Change.mk (.yearDay n) time).localSecond year =
      newYear year + (min n (daysInYear year) - 1) * 86400 + time := by
  simp only [Change.localSecond, ChangeDay.dayNumber, ChangeDay.anchor, ChangeDay.shift,
    Calendar.dayNumber, daysBeforeMonth_first, newYear, secondsPerDay]
  omega

def tehran : Daylight :=
  ⟨16200, ['+', '0', '4', '3', '0'], ⟨.julian 79, 86400⟩, ⟨.julian 263, 86400⟩⟩

theorem offsetsAtWall_exact_tehran :
    (∀ year, 1 ≤ year → year ≤ 9999 → Regular 12600 tehran year)
    ∧ ∀ (reading : Reading) (offset : Int),
      offset ∈ (offsetsAtWall ⟨12600, [], some tehran⟩ reading.epochSecond).toList ↔
        offsetAtUtc ⟨12600, [], some tehran⟩ (reading.epochSecond - offset) = offset := by
  have regular : ∀ year, 1 ≤ year → year ≤ 9999 → Regular 12600 tehran year := by
    intro year _ _
    have length := newYear_succ year
    constructor <;>
      cases leap : isLeap year <;>
      simp [startWindow, stopWindow, tehran, julian_localSecond, leap, length, daysInYear] <;>
      omega
  refine ⟨regular, (offsetsAtWall_exact_iff [] regular).mpr (.inr fun year _ _ => ?_)⟩
  unfold StartsFirst tehran
  rw [julian_localSecond, julian_localSecond, julian_localSecond, julian_localSecond]
  simp

/-- A start in the morning and a stop in the evening of one day, but leap years put the start on the
next day. -/
def flipping : Daylight := ⟨3600, [], ⟨.julian 100, 21600⟩, ⟨.yearDay 100, 64800⟩⟩

theorem flipping_inexact :
    (∀ year, 1 ≤ year → year ≤ 9999 → Regular 0 flipping year)
    ∧ ¬ ∀ (reading : Reading) (offset : Int),
      offset ∈ (offsetsAtWall ⟨0, [], some flipping⟩ reading.epochSecond).toList ↔
        offsetAtUtc ⟨0, [], some flipping⟩ (reading.epochSecond - offset) = offset := by
  constructor
  next =>
    intro year _ _
    have length := newYear_succ year
    constructor <;>
      cases leap : isLeap year <;>
      simp [startWindow, stopWindow, flipping, julian_localSecond, yearDay_localSecond, leap,
        length, daysInYear] <;>
      omega
  next =>
    intro exact
    have night := exact ⟨⟨2024, 1, 1, by decide⟩, ⟨0, 10, 0, 0, by decide⟩⟩ 3600
    exact absurd night (by decide)

end Yearly

end ZonedTime
