import Mathlib.Data.Int.Interval
import Mathlib.Data.Set.Card
import ZonedTime.Proofs.Calendar.WeekLine

set_option autoImplicit false

namespace ZonedTime

open Calendar

namespace Date

noncomputable def countBefore (date : Date) (kind : Date -> Prop) : Nat :=
  {other : Date | other.lt date ∧ kind other}.ncard

def daysFromSunday (date : Date) : Int := (date.weekdayIndex + 1) % 7

def IsLeapDay (date : Date) : Prop := date.month = 2 ∧ date.day = 29

theorem daysFromSunday_eq (date : Date) : date.daysFromSunday = date.dayNumber % 7 := by
  unfold daysFromSunday weekdayIndex weekdayOfDay
  omega

theorem dayNumber_injective : Function.Injective dayNumber := fun _ _ => eq_of_dayNumber_eq

theorem finite : Finite Date :=
  Finite.of_injective (fun date : Date => (⟨date.dayNumber, date.dayNumber_bounds⟩ :
    Set.Icc (1 : Int) lastDay)) fun _ _ same => eq_of_dayNumber_eq (congrArg Subtype.val same)

theorem lt_trichotomy (a b : Date) : a.lt b ∨ a = b ∨ b.lt a := by
  simp only [lt_iff_dayNumber_lt]
  rcases Int.lt_trichotomy a.dayNumber b.dayNumber with earlier | same | later
  next => exact .inl earlier
  next => exact .inr (.inl (eq_of_dayNumber_eq same))
  next => exact .inr (.inr later)

theorem countBefore_lt {a b : Date} {kind : Date -> Prop} (ofKind : kind a) (earlier : a.lt b) :
    a.countBefore kind < b.countBefore kind := by
  have := finite
  refine Set.ncard_lt_ncard ⟨fun other ⟨before, same⟩ => ⟨?_, same⟩, fun all => ?_⟩
  next =>
    rw [lt_iff_dayNumber_lt] at *
    omega
  next =>
    obtain ⟨before, -⟩ := all ⟨earlier, ofKind⟩
    rw [lt_iff_dayNumber_lt] at before
    omega

theorem eq_of_countBefore_eq (kind : Date -> Prop) {a b : Date} (first : kind a)
    (second : kind b) (same : a.countBefore kind = b.countBefore kind) : a = b := by
  rcases lt_trichotomy a b with earlier | equal | later
  next => exact absurd same (Nat.ne_of_lt (countBefore_lt first earlier))
  next => exact equal
  next => exact absurd same.symm (Nat.ne_of_lt (countBefore_lt second later))

theorem countBefore_eq_card {date : Date} {kind : Date -> Prop} (places : Finset Int)
    (mem : ∀ n, n ∈ places ↔ ∃ other : Date, (other.lt date ∧ kind other) ∧ other.dayNumber = n) :
    date.countBefore kind = places.card := by
  have image : dayNumber '' {other : Date | other.lt date ∧ kind other} = ↑places := by
    ext n
    exact (mem n).symm
  rw [countBefore, ← Set.ncard_image_of_injective _ dayNumber_injective, image,
    Set.ncard_coe_finset]

theorem exists_before_iff (date : Date) (n : Int) :
    (∃ other : Date, other.lt date ∧ other.year = date.year ∧ other.dayNumber = n) ↔
      daysBeforeYear date.year < n ∧ n < date.dayNumber := by
  constructor
  next =>
    rintro ⟨other, earlier, same, rfl⟩
    have inYear := other.dayNumber_in_year
    rw [same] at inYear
    exact ⟨inYear.1, (lt_iff_dayNumber_lt _ _).mp earlier⟩
  next =>
    rintro ⟨after, before⟩
    have inYear := date.dayNumber_in_year
    have bounds := date.dayNumber_bounds
    have low := daysBeforeYear_mono date.real.1
    have start := daysBeforeYear_range.1
    obtain ⟨other, found⟩ := Option.isSome_iff_exists.mp
      (ofDayNumber?_isSome (n := n) (by omega) (by omega))
    have place := dayNumber_of_ofDayNumber? found
    refine ⟨other, (lt_iff_dayNumber_lt _ _).mpr (by omega), ?_, place⟩
    rw [year_of_ofDayNumber? found]
    exact yearOfDay_eq after (by omega)

theorem countBefore_inYear (date : Date) :
    (date.countBefore (·.year = date.year) : Int) = date.yearDay - 1 := by
  have first := date.yearDay_bounds.1
  have place := date.dayNumber_eq
  rw [countBefore_eq_card (Finset.Ioo (daysBeforeYear date.year) date.dayNumber), Int.card_Ioo]
  next => omega
  next =>
    intro n
    simp only [Finset.mem_Ioo, ← exists_before_iff, and_assoc]

theorem isLeapDay_iff (date : Date) : date.IsLeapDay ↔ date.isLeap = true ∧ date.yearDay = 60 := by
  obtain ⟨-, -, firstMonth, lastMonth, firstDay, lastDay⟩ := date.real
  constructor
  next =>
    rintro ⟨month, day⟩
    rw [month, day, daysInMonth, if_pos rfl] at lastDay
    have leap : date.isLeap = true := by
      by_contra common
      rw [Date.isLeap] at common
      rw [if_neg common] at lastDay
      omega
    refine ⟨leap, ?_⟩
    rw [yearDay, month, day, leap]
    rfl
  next =>
    rintro ⟨leap, place⟩
    have inMonth := date.yearDay_in_month
    rw [leap, place] at inMonth
    have month : date.month = 2 := by
      refine step_unique (daysBeforeMonth_mono true) inMonth (by decide)
    refine ⟨month, ?_⟩
    rw [yearDay, month, leap] at place
    change 31 + date.day = 60 at place
    omega

theorem isLeapDay_iff_dayNumber {year : Int} (leap : Calendar.isLeap year = true) {date : Date}
    (same : date.year = year) : date.IsLeapDay ↔ date.dayNumber = daysBeforeYear year + 60 := by
  rw [isLeapDay_iff, Date.isLeap, dayNumber_eq, same]
  constructor
  next =>
    rintro ⟨-, sixtieth⟩
    rw [sixtieth]
  next => exact fun place => ⟨leap, by omega⟩

theorem countBefore_withoutLeapDay (date : Date) :
    (date.countBefore (fun other => other.year = date.year ∧ ¬ other.IsLeapDay) : Int) =
      date.yearDay - 1 - (if date.isLeap = true ∧ 60 < date.yearDay then 1 else 0) := by
  by_cases leap : date.isLeap = true
  next =>
    have first := date.yearDay_bounds.1
    have place := date.dayNumber_eq
    rw [countBefore_eq_card ((Finset.Ioo (daysBeforeYear date.year) date.dayNumber).erase
      (daysBeforeYear date.year + 60)), Finset.card_erase_eq_ite, Int.card_Ioo]
    next =>
      simp only [Finset.mem_Ioo, leap, true_and]
      split <;> split <;> omega
    next =>
      intro n
      rw [Finset.mem_erase, Finset.mem_Ioo, ← exists_before_iff]
      constructor
      next =>
        rintro ⟨notLeap, other, earlier, same, rfl⟩
        exact ⟨other, ⟨earlier, same, fun leapDay =>
          notLeap ((isLeapDay_iff_dayNumber leap same).mp leapDay)⟩, rfl⟩
      next =>
        rintro ⟨other, ⟨earlier, same, notLeap⟩, rfl⟩
        exact ⟨fun place => notLeap ((isLeapDay_iff_dayNumber leap same).mpr place), other, earlier,
          same, rfl⟩
  next =>
    have none (other : Date) : other.year = date.year ∧ ¬ other.IsLeapDay ↔
        other.year = date.year := by
      refine and_iff_left_of_imp fun same leapDay => leap ?_
      have found := ((isLeapDay_iff other).mp leapDay).1
      rwa [Date.isLeap, same] at found
    simp only [none, countBefore_inYear, leap, Bool.false_eq_true, false_and, if_false,
      Int.sub_zero]

/-- The days between `a` and `b` that have the place of `b` in the week. -/
def weekly (a b : Int) : Finset Int :=
  (Finset.range ((b - a - 1) / 7).toNat).image fun k : Nat => b - 7 * (k + 1)

theorem mem_weekly {a b n : Int} : n ∈ weekly a b ↔ (a < n ∧ n < b) ∧ n % 7 = b % 7 := by
  simp only [weekly, Finset.mem_image, Finset.mem_range]
  constructor
  next =>
    rintro ⟨k, few, rfl⟩
    omega
  next =>
    rintro ⟨inside, same⟩
    exact ⟨((b - n) / 7 - 1).toNat, by omega, by omega⟩

theorem card_weekly {a b : Int} (ordered : a < b) :
    ((weekly a b).card : Int) = (b - a - 1) / 7 := by
  rw [weekly, Finset.card_image_of_injective, Finset.card_range]
  next => omega
  next =>
    intro k l same
    simp only at same
    omega

def IsWeekdayOf (year month weekday : Int) (date : Date) : Prop :=
  date.year = year ∧ date.month = month ∧ date.daysFromSunday = weekday

theorem exists_date_in_month (date : Date) (day : Int) (first : 1 ≤ day)
    (last : day ≤ daysInMonth date.year date.month) :
    ∃ other : Date, other.year = date.year ∧ other.month = date.month ∧ other.day = day
      ∧ other.dayNumber = date.dayNumber - date.day + day := by
  obtain ⟨firstYear, lastYear, firstMonth, lastMonth, -⟩ := date.real
  refine ⟨⟨date.year, date.month, day, firstYear, lastYear, firstMonth, lastMonth, first, last⟩,
    rfl, rfl, rfl, ?_⟩
  simp only [dayNumber, Calendar.dayNumber]
  omega

theorem dayNumber_sub_day {a b : Date} (year : a.year = b.year) (month : a.month = b.month) :
    a.dayNumber - a.day = b.dayNumber - b.day := by
  simp only [dayNumber, Calendar.dayNumber, year, month]
  omega

theorem countBefore_isWeekdayOf {date : Date} {year month weekday : Int}
    (ofKind : date.IsWeekdayOf year month weekday) :
    (date.countBefore (IsWeekdayOf year month weekday) : Int) = (date.day - 1) / 7 := by
  obtain ⟨rfl, rfl, rfl⟩ := ofKind
  obtain ⟨-, -, -, -, firstDay, lastDay⟩ := date.real
  rw [countBefore_eq_card (weekly (date.dayNumber - date.day) date.dayNumber),
    card_weekly (by omega)]
  next => congr 1; omega
  next =>
    intro n
    rw [mem_weekly]
    constructor
    next =>
      rintro ⟨⟨after, before⟩, same⟩
      obtain ⟨other, year, month, -, place⟩ :=
        date.exists_date_in_month (n - (date.dayNumber - date.day)) (by omega) (by omega)
      refine ⟨other, ⟨(lt_iff_dayNumber_lt _ _).mpr (by omega), year, month, ?_⟩, by omega⟩
      rw [daysFromSunday_eq, daysFromSunday_eq]
      omega
    next =>
      rintro ⟨other, ⟨earlier, year, month, weekday⟩, rfl⟩
      rw [daysFromSunday_eq, daysFromSunday_eq] at weekday
      have start := dayNumber_sub_day year month
      have firstOther := other.real.2.2.2.2.1
      exact ⟨⟨by omega, (lt_iff_dayNumber_lt _ _).mp earlier⟩, weekday⟩

theorem year_of_dayNumber {date : Date} {year : Int} (after : daysBeforeYear year < date.dayNumber)
    (upTo : date.dayNumber ≤ daysBeforeYear (year + 1)) : date.year = year :=
  step_unique daysBeforeYear_mono date.dayNumber_in_year ⟨after, upTo⟩

theorem fields_of_dayNumber {date : Date} {year month day : Int} (real : IsDate year month day)
    (place : date.dayNumber = Calendar.dayNumber year month day) :
    date.year = year ∧ date.month = month ∧ date.day = day := by
  have same : date = ⟨year, month, day, real⟩ := eq_of_dayNumber_eq place
  rw [same]
  exact ⟨rfl, rfl, rfl⟩

theorem isWeekdayOf_of_dayNumber {date : Date} {year month day weekday : Int}
    (real : IsDate year month day) (place : date.dayNumber = Calendar.dayNumber year month day)
    (inWeek : Calendar.dayNumber year month day % 7 = weekday) :
    date.IsWeekdayOf year month weekday ∧ date.day = day := by
  obtain ⟨sameYear, sameMonth, sameDay⟩ := fields_of_dayNumber real place
  refine ⟨⟨sameYear, sameMonth, ?_⟩, sameDay⟩
  rw [daysFromSunday_eq, place, inWeek]

theorem last_isWeekdayOf {date other : Date} {year month weekday : Int}
    (ofKind : date.IsWeekdayOf year month weekday) (late : daysInMonth year month - 7 < date.day)
    (same : other.IsWeekdayOf year month weekday) : ¬ date.lt other := by
  obtain ⟨rfl, rfl, rfl⟩ := ofKind
  obtain ⟨year, month, weekday⟩ := same
  have start := dayNumber_sub_day year month
  have lastDay := other.real.2.2.2.2.2
  rw [year, month] at lastDay
  rw [daysFromSunday_eq, daysFromSunday_eq] at weekday
  rw [lt_iff_dayNumber_lt]
  omega

end Date

end ZonedTime
