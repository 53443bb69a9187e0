import ZonedTime.Proofs.Calendar.Counting
import ZonedTime.Proofs.Zone.ChangeDate
import ZonedTime.Proofs.Zone.RuleSpelling

set_option autoImplicit false

namespace ZonedTime

open Calendar

namespace ChangeDay

section

variable {year : Int} (first : 1 ≤ year) (final : year ≤ 9999) {date : Date}
include first final

theorem last_place {month weekday : Int} (inRange : (last month weekday).InRange)
    (place : date.dayNumber = (last month weekday).dayNumber year) :
    date.IsWeekdayOf year month weekday ∧ daysInMonth year month - 7 < date.day := by
  obtain ⟨⟨firstMonth, lastMonth⟩, inWeek⟩ := inRange
  have long := daysInMonth_ge year month
  simp only [dayNumber, anchor, shift, sundayIndex] at place
  generalize start : Calendar.dayNumber year month (daysInMonth year month) = n at place
  have inMonth : IsDate year month (daysInMonth year month - (n % 7 - weekday) % 7) :=
    ⟨first, final, firstMonth, lastMonth, by omega, by omega⟩
  have onLine : Calendar.dayNumber year month (daysInMonth year month - (n % 7 - weekday) % 7) =
      n - (n % 7 - weekday) % 7 := by
    rw [← start]
    simp only [Calendar.dayNumber]
    omega
  have found : date.IsWeekdayOf year month weekday ∧ _ :=
    Date.isWeekdayOf_of_dayNumber inMonth (place.trans onLine.symm) (by omega)
  exact ⟨found.1, by omega⟩

theorem nth_place {month n weekday : Int} (inRange : (nth month n weekday).InRange)
    (place : date.dayNumber = (nth month n weekday).dayNumber year) :
    date.IsWeekdayOf year month weekday ∧ (date.day - 1) / 7 = n - 1 := by
  obtain ⟨⟨firstMonth, lastMonth⟩, counted, inWeek⟩ := inRange
  have long := daysInMonth_ge year month
  simp only [dayNumber, anchor, shift, sundayIndex] at place
  generalize start : Calendar.dayNumber year month 1 = day at place
  have inMonth : IsDate year month (1 + ((weekday - day % 7) % 7 + 7 * (n - 1))) :=
    ⟨first, final, firstMonth, lastMonth, by omega, by omega⟩
  have onLine : Calendar.dayNumber year month (1 + ((weekday - day % 7) % 7 + 7 * (n - 1))) =
      day + ((weekday - day % 7) % 7 + 7 * (n - 1)) := by
    rw [← start]
    simp only [Calendar.dayNumber]
    omega
  have found : date.IsWeekdayOf year month weekday ∧ _ :=
    Date.isWeekdayOf_of_dayNumber inMonth (by omega) (by omega)
  exact ⟨found.1, by omega⟩

end

section

variable {year n : Int} {date : Date}

theorem yearDay_of_place {rule : ChangeDay} (inRange : rule.InRange)
    (place : date.dayNumber = rule.dayNumber year) :
    date.year = year ∧ date.yearDay = rule.dayNumber year - daysBeforeYear year := by
  have inYear := dayNumber_in_year inRange year
  rw [← place] at inYear
  have sameYear := Date.year_of_dayNumber inYear.1 inYear.2
  have yearDay := date.dayNumber_eq
  rw [sameYear] at yearDay
  exact ⟨sameYear, by omega⟩

theorem julian_place (inRange : (julian n).InRange)
    (place : date.dayNumber = (julian n).dayNumber year) :
    date.year = year ∧
      date.yearDay = n + (if date.isLeap = true ∧ 59 < n then 1 else 0) := by
  obtain ⟨sameYear, yearDay⟩ := yearDay_of_place inRange place
  refine ⟨sameYear, ?_⟩
  simp only [dayNumber, anchor, shift, Calendar.dayNumber, daysBeforeMonth_first, Bool.and_eq_true,
    decide_eq_true_eq] at yearDay
  rw [yearDay, Date.isLeap, sameYear]
  omega

theorem yearDay_place (inRange : (yearDay n).InRange)
    (place : date.dayNumber = (yearDay n).dayNumber year) :
    date.year = year ∧ date.yearDay = min n (daysInYear year) := by
  obtain ⟨sameYear, found⟩ := yearDay_of_place inRange place
  refine ⟨sameYear, ?_⟩
  simp only [dayNumber, anchor, shift, Calendar.dayNumber, daysBeforeMonth_first] at found
  omega

end

end ChangeDay

inductive WrittenDay where
  /-- The weekday `d` of the `n`th week of month `m` in `Mm.n.d`. -/
  | ofMonth (month week weekday : Nat)
  /-- `Jn` -/
  | julian (n : Nat)
  /-- The number alone. -/
  | fromZero (n : Nat)

namespace WrittenDay

/-- The date of a year that goes by this name. Sunday is weekday 0, and the fifth week is the last
one. -/
def Falls (year : Int) (date : Date) : WrittenDay -> Prop
  | ofMonth month week weekday =>
    date.IsWeekdayOf year month weekday ∧
      if week = 5 then ∀ other : Date, other.IsWeekdayOf year month weekday → ¬ date.lt other
      else date.countBefore (Date.IsWeekdayOf year month weekday) + 1 = week
  | julian n =>
    (date.year = year ∧ ¬ date.IsLeapDay) ∧
      date.countBefore (fun other => other.year = year ∧ ¬ other.IsLeapDay) + 1 = n
  | fromZero n =>
    date.year = year ∧
      if n = 365 ∧ isLeap year = false then date.month = 12 ∧ date.day = 31
      else date.countBefore (·.year = year) = n

theorem Falls.unique {written : WrittenDay} {year : Int} {a b : Date}
    (first : written.Falls year a) (second : written.Falls year b) : a = b := by
  cases written with
  | ofMonth month week weekday =>
    obtain ⟨ofKind, place⟩ := first
    obtain ⟨same, other⟩ := second
    split at place
    next last =>
      rw [if_pos last] at other
      rcases Date.lt_trichotomy a b with earlier | equal | later
      next => exact absurd earlier (place b same)
      next => exact equal
      next => exact absurd later (other a ofKind)
    next counted =>
      rw [if_neg counted] at other
      exact Date.eq_of_countBefore_eq _ ofKind same (Nat.add_right_cancel (place.trans other.symm))
  | julian n =>
    obtain ⟨ofKind, place⟩ := first
    obtain ⟨same, other⟩ := second
    exact Date.eq_of_countBefore_eq (fun other => other.year = year ∧ ¬ other.IsLeapDay) ofKind
      same (Nat.add_right_cancel (place.trans other.symm))
  | fromZero n =>
    obtain ⟨ofKind, place⟩ := first
    obtain ⟨same, other⟩ := second
    split at place
    next last =>
      rw [if_pos last] at other
      apply Date.eq_of_dayNumber_eq
      simp only [Date.dayNumber, ofKind, place.1, place.2, same, other.1, other.2]
    next counted =>
      rw [if_neg counted] at other
      exact Date.eq_of_countBefore_eq (·.year = year) ofKind same (place.trans other.symm)

def day : WrittenDay -> ChangeDay
  | ofMonth month week weekday =>
    if week = 5 then .last month weekday else .nth month week weekday
  | julian n => .julian n
  | fromZero n => .yearDay (n + 1)

def InRange : WrittenDay -> Prop
  | ofMonth month week weekday =>
    (1 ≤ month ∧ month ≤ 12) ∧ (1 ≤ week ∧ week ≤ 5) ∧ weekday ≤ 6
  | julian n => 1 ≤ n ∧ n ≤ 365
  | fromZero n => n ≤ 365

variable {written : WrittenDay}

theorem day_inRange (inRange : written.InRange) : written.day.InRange := by
  cases written with
  | ofMonth month week weekday =>
    obtain ⟨inYear, inMonth, inWeek⟩ := inRange
    simp only [day]
    split
    next => simp only [ChangeDay.InRange]; omega
    next => simp only [ChangeDay.InRange]; omega
  | julian n =>
    simp only [day, ChangeDay.InRange, InRange] at *
    omega
  | fromZero n =>
    simp only [day, ChangeDay.InRange, InRange] at *
    omega

theorem falls_of_dayNumber (inRange : written.InRange) {year : Int} (first : 1 ≤ year)
    (last : year ≤ 9999) {date : Date} (place : date.dayNumber = written.day.dayNumber year) :
    written.Falls year date := by
  have kept := day_inRange inRange
  cases written with
  | ofMonth month week weekday =>
    simp only [day] at kept place
    simp only [Falls]
    split
    next fifth =>
      rw [if_pos fifth] at kept place
      obtain ⟨ofKind, late⟩ := ChangeDay.last_place first last kept place
      exact ⟨ofKind, fun other same => Date.last_isWeekdayOf ofKind late same⟩
    next counted =>
      rw [if_neg counted] at kept place
      obtain ⟨ofKind, week⟩ := ChangeDay.nth_place first last kept place
      have before := Date.countBefore_isWeekdayOf ofKind
      exact ⟨ofKind, by omega⟩
  | julian n =>
    obtain ⟨rfl, yearDay⟩ := ChangeDay.julian_place kept place
    have before := date.countBefore_withoutLeapDay
    refine ⟨⟨rfl, fun leapDay => ?_⟩, ?_⟩
    next =>
      obtain ⟨leap, sixtieth⟩ := date.isLeapDay_iff.mp leapDay
      simp only [leap, true_and] at yearDay
      split at yearDay <;> omega
    next =>
      by_cases late : date.isLeap = true ∧ 59 < (n : Int)
      next =>
        rw [if_pos late] at yearDay
        rw [if_pos ⟨late.1, by omega⟩] at before
        omega
      next =>
        rw [if_neg late] at yearDay
        rw [if_neg fun past => late ⟨past.1, by omega⟩] at before
        omega
  | fromZero n =>
    obtain ⟨rfl, yearDay⟩ := ChangeDay.yearDay_place kept place
    have before := date.countBefore_inYear
    have inYear : n ≤ 365 := inRange
    refine ⟨rfl, ?_⟩
    simp only [daysInYear] at yearDay
    split
    next newYearsEve =>
      obtain ⟨rfl, common⟩ := newYearsEve
      simp only [common, Bool.false_eq_true, if_false] at yearDay
      have december : daysInMonth date.year 12 = 31 := rfl
      have real : IsDate date.year 12 31 := ⟨first, last, by omega, by omega, by omega, by omega⟩
      refine (Date.fields_of_dayNumber real ?_).2
      have before : daysBeforeMonth false 12 = 334 := rfl
      rw [date.dayNumber_eq, Calendar.dayNumber, common]
      omega
    next within =>
      cases leap : isLeap date.year with
      | true =>
        simp only [leap, if_true] at yearDay
        omega
      | false =>
        simp only [leap, Bool.false_eq_true, if_false, and_true] at yearDay within
        omega

structure Numeral (most : Nat) (w : Text) (n : Nat) : Prop where
  digits : w.all Text.isAnyDigit = true
  filled : w ≠ []
  short : w.length ≤ most
  value : Text.numeral? w = some n

inductive Spelled : WrittenDay -> Text -> Prop where
  | ofMonth {m k d : Text} {month week weekday : Nat} (monthWord : Numeral 2 m month)
      (weekWord : Numeral 1 k week) (weekdayWord : Numeral 1 d weekday) :
      Spelled (.ofMonth month week weekday) ('M' :: m ++ '.' :: k ++ '.' :: d)
  | julian {w : Text} {n : Nat} (word : Numeral 3 w n) : Spelled (.julian n) ('J' :: w)
  | fromZero {w : Text} {n : Nat} (word : Numeral 3 w n) : Spelled (.fromZero n) w

/-- The text of a change says this day and this time, 2 o'clock where it says none. -/
def ReadFrom (written : WrittenDay) (t : Text) (time : Int) (rest : Text) : Prop :=
  ∃ w later, written.Spelled w ∧ t = w ++ later ∧
    ((later = rest ∧ time = 7200) ∨
      ∃ v, later = '/' :: v ∧ Reads (RuleScan.clock 167) v time rest)

end WrittenDay

namespace RuleScan

theorem digits_takes {most n : Nat} {t rest : Text} (read : Reads (digits most) t n rest) :
    ∃ w, WrittenDay.Numeral most w n ∧ t = w ++ rest := by
  change digits most t = .ok (n, rest) at read
  unfold digits at read
  simp only at read
  split at read
  next => cases read
  next filled =>
    cases value : Text.numeral? ((t.take most).takeWhile Text.isAnyDigit) with
    | none =>
      rw [numeral, value] at read
      cases read
    | some n =>
      rw [numeral, value] at read
      cases read
      have short := (List.takeWhile_prefix (l := t.take most) Text.isAnyDigit).length_le
      have starts : (t.take most).takeWhile Text.isAnyDigit <+: t :=
        (List.takeWhile_prefix _).trans (List.take_prefix _ t)
      exact ⟨_, ⟨List.all_takeWhile, by simpa using filled,
        Nat.le_trans short (List.length_take_le most t), value⟩,
        (List.prefix_iff_eq_append.mp starts).symm⟩

theorem monthDay_takes {t rest : Text} {day : ChangeDay} (read : Reads monthDay t day rest) :
    ∃ month week weekday w, (WrittenDay.ofMonth month week weekday).Spelled ('M' :: w)
      ∧ (WrittenDay.ofMonth month week weekday).InRange
      ∧ day = (WrittenDay.ofMonth month week weekday).day ∧ t = w ++ rest := by
  obtain ⟨month, _, monthRead, fromDot⟩ := read.of_bind
  obtain ⟨_, _, firstDot, fromWeek⟩ := Reads.of_bind fromDot
  obtain ⟨week, _, weekRead, fromSecondDot⟩ := Reads.of_bind fromWeek
  obtain ⟨_, _, secondDot, fromWeekday⟩ := Reads.of_bind fromSecondDot
  obtain ⟨weekday, _, weekdayRead, checked⟩ := Reads.of_bind fromWeekday
  obtain ⟨m, monthWord, rfl⟩ := digits_takes monthRead
  cases expect_takes firstDot
  obtain ⟨k, weekWord, rfl⟩ := digits_takes weekRead
  cases expect_takes secondDot
  obtain ⟨d, weekdayWord, rfl⟩ := digits_takes weekdayRead
  simp only at checked
  split at checked
  next => cases checked
  next inRange =>
    cases checked
    simp only [Bool.or_eq_true, decide_eq_true_eq, not_or, Nat.not_lt] at inRange
    refine ⟨month, week, weekday, _, .ofMonth monthWord weekWord weekdayWord, ?_, rfl, by simp⟩
    simp only [WrittenDay.InRange]
    omega

theorem changeDay_takes {t rest : Text} {day : ChangeDay} (read : Reads changeDay t day rest) :
    ∃ (written : WrittenDay) (w : Text), written.Spelled w ∧ written.InRange
      ∧ day = written.day ∧ t = w ++ rest := by
  obtain ⟨_, _, skippedM, chosen⟩ := read.of_bind
  rcases skipIf_cases skippedM with ⟨rfl, rfl⟩ | ⟨rfl, rfl, -⟩
  next =>
    obtain ⟨month, week, weekday, w, spelled, inRange, same, rfl⟩ := monthDay_takes chosen
    exact ⟨_, _, spelled, inRange, same, rfl⟩
  next =>
    obtain ⟨_, _, skippedJ, counted⟩ := Reads.of_bind chosen
    rcases skipIf_cases skippedJ with ⟨rfl, rfl⟩ | ⟨rfl, rfl, -⟩
    next =>
      obtain ⟨n, _, numeral, checked⟩ := Reads.of_bind counted
      obtain ⟨w, word, rfl⟩ := digits_takes numeral
      simp only at checked
      split at checked
      next => cases checked
      next inRange =>
        cases checked
        simp only [Bool.or_eq_true, decide_eq_true_eq, not_or, Nat.not_lt] at inRange
        exact ⟨.julian n, _, .julian word, inRange, rfl, rfl⟩
    next =>
      obtain ⟨n, _, numeral, checked⟩ := Reads.of_bind counted
      obtain ⟨w, word, rfl⟩ := digits_takes numeral
      simp only at checked
      split at checked
      next => cases checked
      next inRange =>
        cases checked
        exact ⟨.fromZero n, _, .fromZero word, Nat.le_of_not_lt inRange, rfl, rfl⟩

theorem change_takes {t rest : Text} {found : Change} (read : Reads change t found rest) :
    ∃ written : WrittenDay, written.ReadFrom t found.time rest ∧ written.InRange
      ∧ found.day = written.day := by
  obtain ⟨day, later, dayRead, timed⟩ := read.of_bind
  obtain ⟨written, w, spelled, inRange, rfl, rfl⟩ := changeDay_takes dayRead
  obtain ⟨_, _, skipped, chosen⟩ := Reads.of_bind timed
  rcases skipIf_cases skipped with ⟨rfl, rfl⟩ | ⟨rfl, rfl, -⟩
  next =>
    obtain ⟨time, _, clock, ended⟩ := Reads.of_bind chosen
    cases ended
    exact ⟨written, ⟨w, _, spelled, rfl, .inr ⟨_, rfl, clock⟩⟩, inRange, rfl⟩
  next =>
    cases chosen
    exact ⟨written, ⟨w, _, spelled, rfl, .inl ⟨rfl, rfl⟩⟩, inRange, rfl⟩

end RuleScan

namespace Yearly

open Text (ofString)

/-- In every year of the calendar a change that can be read comes on one date, and that is the only
one that goes by the name in the text. -/
theorem parseChange_falls {t rest : Text} {change : Change}
    (read : parseChange t = .ok (change, rest)) :
    ∃ written : WrittenDay, written.ReadFrom t change.time rest ∧
      ∀ year : Int, 1 ≤ year → year ≤ 9999 →
        ∃ date, change.day.date year = .ok date ∧ date.year = year ∧
          ∀ other, written.Falls year other ↔ other = date := by
  obtain ⟨written, readFrom, inRange, same⟩ := RuleScan.change_takes read
  refine ⟨written, readFrom, fun year first last => ?_⟩
  rw [same]
  obtain ⟨date, found, place⟩ :=
    ChangeDay.exists_date (WrittenDay.day_inRange inRange) first last
  have falls := WrittenDay.falls_of_dayNumber inRange first last place
  have inYear := (ChangeDay.yearDay_of_place (WrittenDay.day_inRange inRange) place).1
  refine ⟨date, found, inYear, fun other => ⟨fun same => same.unique falls, ?_⟩⟩
  rintro rfl
  exact falls

/-- In a leap year the 60th day without February 29 is the 61st one. -/
theorem parseChange_falls_inMarch :
    parseChange (ofString "J60/-1,365") = .ok (⟨.julian 60, -3600⟩, ofString ",365")
      ∧ ∃ written : WrittenDay,
        written.ReadFrom (ofString "J60/-1,365") (-3600) (ofString ",365")
          ∧ ∃ date, (ChangeDay.julian 60).date 2024 = .ok date ∧ date.month = 3 ∧ date.day = 1
            ∧ ∀ other, written.Falls 2024 other ↔ other = date := by
  have read : parseChange (ofString "J60/-1,365") =
      .ok (⟨.julian 60, -3600⟩, ofString ",365") := by decide +kernel
  have computed : ((ChangeDay.julian 60).date 2024).map (fun date => (date.month, date.day)) =
      .ok (3, 1) := by decide +kernel
  obtain ⟨written, readFrom, dates⟩ := parseChange_falls read
  obtain ⟨date, found, -, falls⟩ := dates 2024 (by decide) (by decide)
  change (ChangeDay.julian 60).date 2024 = .ok date at found
  rw [found] at computed
  have fields := Prod.mk.inj (Except.ok.inj computed)
  exact ⟨read, written, readFrom, date, found, fields.1, fields.2, falls⟩

end Yearly

end ZonedTime
