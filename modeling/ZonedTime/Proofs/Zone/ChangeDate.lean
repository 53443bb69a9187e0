import ZonedTime.Proofs.Calendar.DayLine
import ZonedTime.Proofs.Text.Scanning
import ZonedTime.Zone.Yearly.Reader

set_option autoImplicit false

namespace ZonedTime

open Calendar

namespace ChangeDay

def InRange : ChangeDay -> Prop
  | last month weekday => (1 ≤ month ∧ month ≤ 12) ∧ (0 ≤ weekday ∧ weekday ≤ 6)
  | nth month n weekday =>
    (1 ≤ month ∧ month ≤ 12) ∧ (1 ≤ n ∧ n ≤ 4) ∧ (0 ≤ weekday ∧ weekday ≤ 6)
  | yearDay n => 1 ≤ n ∧ n ≤ 366
  | julian n => 1 ≤ n ∧ n ≤ 365

variable {rule : ChangeDay}

theorem daysInMonth_ge (year month : Int) : 28 ≤ daysInMonth year month := by
  unfold daysInMonth
  repeat' split
  all_goals omega

theorem month_in_year (year : Int) {month : Int} (first : 1 ≤ month) (last : month ≤ 12) :
    0 ≤ daysBeforeMonth (isLeap year) month
      ∧ daysBeforeMonth (isLeap year) month + daysInMonth year month ≤ daysInYear year := by
  have low := daysBeforeMonth_mono (isLeap year) first
  have high := daysBeforeMonth_mono (isLeap year) (show month + 1 ≤ 13 by omega)
  rw [daysBeforeMonth_first] at low
  rw [daysBeforeMonth_end, daysBeforeMonth_succ year first last] at high
  exact ⟨low, high⟩

theorem dayNumber_in_year (inRange : rule.InRange) (year : Int) :
    daysBeforeYear year < rule.dayNumber year
      ∧ rule.dayNumber year ≤ daysBeforeYear (year + 1) := by
  rw [daysBeforeYear_succ]
  have length : daysInYear year = 365 + (if isLeap year then 1 else 0) := by
    unfold daysInYear
    split <;> rfl
  cases rule with
  | last month weekday =>
    obtain ⟨⟨first, last⟩, -⟩ := inRange
    have inYear := month_in_year year first last
    have long := daysInMonth_ge year month
    simp only [dayNumber, anchor, shift, Calendar.dayNumber]
    omega
  | nth month n weekday =>
    obtain ⟨⟨first, last⟩, firstWeek, -⟩ := inRange
    have inYear := month_in_year year first last
    have long := daysInMonth_ge year month
    simp only [dayNumber, anchor, shift, Calendar.dayNumber]
    omega
  | yearDay n =>
    obtain ⟨first, last⟩ := inRange
    simp only [dayNumber, anchor, shift, Calendar.dayNumber, daysBeforeMonth_first]
    omega
  | julian n =>
    obtain ⟨first, last⟩ := inRange
    simp only [dayNumber, anchor, shift, Calendar.dayNumber, daysBeforeMonth_first,
      Bool.and_eq_true, decide_eq_true_eq]
    -- The day after February 28 is skipped in leap years, so 365 reaches the last day in each.
    split at length <;> split <;> simp_all <;> omega

theorem anchor_isDate (inRange : rule.InRange) {year : Int} (first : 1 ≤ year)
    (last : year ≤ 9999) : IsDate year (rule.anchor year).1 (rule.anchor year).2 := by
  unfold IsDate anchor
  cases rule with
  | last month weekday =>
    have long := daysInMonth_ge year month
    obtain ⟨inYear, -⟩ := inRange
    simp only
    omega
  | nth month n weekday =>
    have long := daysInMonth_ge year month
    obtain ⟨inYear, -⟩ := inRange
    simp only
    omega
  | yearDay n =>
    have long := daysInMonth_ge year 1
    simp only
    omega
  | julian n =>
    have long := daysInMonth_ge year 1
    simp only
    omega

theorem exists_date (inRange : rule.InRange) {year : Int} (first : 1 ≤ year)
    (last : year ≤ 9999) :
    ∃ date, rule.date year = .ok date ∧ date.dayNumber = rule.dayNumber year := by
  have made := Date.make_fields ⟨_, _, _, anchor_isDate inRange first last⟩
  -- Inside its year, the day is inside the calendar.
  have inYear := dayNumber_in_year inRange year
  have low := daysBeforeYear_mono first
  have high := daysBeforeYear_mono (show year + 1 ≤ 10000 by omega)
  have ends := daysBeforeYear_range
  obtain ⟨date, found⟩ := Option.isSome_iff_exists.mp
    (Date.ofDayNumber?_isSome (n := rule.dayNumber year) (by omega) (by omega))
  refine ⟨date, ?_, Date.dayNumber_of_ofDayNumber? found⟩
  simp [ChangeDay.date, made, found]

end ChangeDay

def Yearly.ChangesInRange (rule : Yearly) : Prop :=
  ∀ daylight ∈ rule.daylight, daylight.start.day.InRange ∧ daylight.stop.day.InRange

namespace RuleScan

theorem monthDay_yields : Yields ChangeDay.InRange monthDay := by
  refine (Yields.any _).bind fun month _ => ?_
  refine (Yields.any _).bind fun _ _ => ?_
  refine (Yields.any _).bind fun week _ => ?_
  refine (Yields.any _).bind fun _ _ => ?_
  refine (Yields.any _).bind fun weekday _ => ?_
  refine Yields.ite (fun _ _ => trivial) fun written => ?_
  simp only [Bool.or_eq_true, decide_eq_true_eq, not_or, Nat.not_lt] at written
  refine Yields.pure ?_
  split
  next => simp only [ChangeDay.InRange]; omega
  next => simp only [ChangeDay.InRange]; omega

theorem changeDay_yields : Yields ChangeDay.InRange changeDay := by
  refine (Yields.any _).bind fun weekday _ => ?_
  refine Yields.ite (fun _ => monthDay_yields) fun _ => ?_
  refine (Yields.any _).bind fun julian _ => ?_
  refine Yields.ite (fun _ => ?_) fun _ => ?_
  next =>
    refine (Yields.any _).bind fun n _ => ?_
    refine Yields.ite (fun _ _ => trivial) fun written => Yields.pure ?_
    simp only [Bool.or_eq_true, decide_eq_true_eq, not_or, Nat.not_lt] at written
    simp only [ChangeDay.InRange]
    omega
  next =>
    refine (Yields.any _).bind fun n _ => ?_
    refine Yields.ite (fun _ _ => trivial) fun written => Yields.pure ?_
    simp only [ChangeDay.InRange]
    omega

theorem change_yields : Yields (fun change : Change => change.day.InRange) change := by
  refine changeDay_yields.bind fun day inRange => ?_
  refine (Yields.any _).bind fun timed _ => ?_
  refine Yields.ite (fun _ => ?_) fun _ => Yields.pure inRange
  exact (Yields.any _).bind fun time _ => Yields.pure inRange

section

variable {good : Change -> Prop}

theorem daylight_changes (each : Yields good change) (standard : Int) :
    Yields (fun found : Daylight => good found.start ∧ good found.stop) (daylight standard) := by
  refine (Yields.any _).bind fun name _ => ?_
  refine (Yields.any _).bind fun offset _ => ?_
  refine each.bind fun start startHolds => ?_
  refine (Yields.any _).bind fun _ _ => ?_
  refine each.bind fun stop stopHolds => ?_
  exact Yields.pure ⟨startHolds, stopHolds⟩

theorem zone_changes (each : Yields good change) :
    Yields (fun rule : Yearly => ∀ daylight ∈ rule.daylight,
      good daylight.start ∧ good daylight.stop) zone := by
  refine (Yields.any _).bind fun name _ => ?_
  refine (Yields.any _).bind fun standard _ => ?_
  refine (Yields.any _).bind fun rest _ => ?_
  refine Yields.ite (fun _ => Yields.pure ?_) fun _ => ?_
  next => simp
  next =>
    refine (daylight_changes each standard).bind fun found holds => ?_
    refine (Yields.any _).bind fun _ _ => Yields.pure ?_
    simpa using holds

end

end RuleScan

theorem Yearly.parse_changesInRange (source : Text) :
    Gives Yearly.ChangesInRange (parse source) := by
  unfold parse
  split
  next => trivial
  next => exact Ends.map (RuleScan.zone_changes RuleScan.change_yields source)

end ZonedTime
