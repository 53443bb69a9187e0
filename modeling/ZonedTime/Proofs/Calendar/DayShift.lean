import ZonedTime.Instant.Day
import ZonedTime.Proofs.Calendar.DayLine
import ZonedTime.Proofs.Error.Outcome

set_option autoImplicit false

namespace ZonedTime

open Calendar

namespace Date

variable {date other : Date} {m n : Int}

def next? (date : Date) : Option Date :=
  if real : IsDate date.year date.month (date.day + 1) then some ⟨_, _, _, real⟩
  else if real : IsDate date.year (date.month + 1) 1 then some ⟨_, _, _, real⟩
  else if real : IsDate (date.year + 1) 1 1 then some ⟨_, _, _, real⟩
  else none

def after? : Nat -> Date -> Option Date
  | 0, date => some date
  | n + 1, date => date.next?.bind (after? n)

theorem addDays?_eq_some : date.addDays? n = some other ↔ date.daysUntil other = n := by
  rw [addDays?, ofDayNumber?_eq_some, daysUntil]
  omega

theorem daysUntil_first (date : Date) : date.daysUntil first = 1 - date.dayNumber := rfl

theorem daysUntil_last (date : Date) : date.daysUntil last = lastDay - date.dayNumber := rfl

theorem addDays?_eq_none :
    date.addDays? n = none ↔ n < date.daysUntil first ∨ date.daysUntil last < n := by
  rw [addDays?, ofDayNumber?_eq_none, daysUntil_first, daysUntil_last]
  omega

theorem addDays?_zero (date : Date) : date.addDays? 0 = some date :=
  addDays?_eq_some.mpr (Int.sub_self _)

theorem addDays?_addDays? (moved : date.addDays? m = some other) :
    other.addDays? n = date.addDays? (m + n) := by
  have place := dayNumber_of_ofDayNumber? moved
  rw [addDays?, addDays?, place, Int.add_assoc]

theorem day_of_ended (ended : ¬ IsDate date.year date.month (date.day + 1)) :
    date.day = daysInMonth date.year date.month := by
  obtain ⟨firstYear, lastYear, firstMonth, lastMonth, firstDay, lastDay⟩ := date.real
  by_contra earlier
  exact ended ⟨firstYear, lastYear, firstMonth, lastMonth, by omega, by omega⟩

theorem month_of_ended (ended : ¬ IsDate date.year (date.month + 1) 1) : date.month = 12 := by
  obtain ⟨firstYear, lastYear, firstMonth, lastMonth, -⟩ := date.real
  have long : 1 ≤ daysInMonth date.year (date.month + 1) := by
    unfold daysInMonth
    repeat' split
    all_goals omega
  by_contra earlier
  exact ended ⟨firstYear, lastYear, by omega, by omega, by decide, long⟩

theorem year_of_ended (ended : ¬ IsDate (date.year + 1) 1 1) : date.year = 9999 := by
  obtain ⟨firstYear, lastYear, -⟩ := date.real
  by_contra earlier
  exact ended ⟨by omega, by omega, by simp [daysInMonth]⟩

theorem dayNumber_of_ended (endOfMonth : date.day = daysInMonth date.year date.month)
    (december : date.month = 12) : date.dayNumber = daysBeforeYear (date.year + 1) := by
  have month := daysBeforeMonth_succ date.year (show 1 ≤ 12 by decide) (by decide)
  have whole := daysBeforeMonth_end date.year
  rw [show (12 : Int) + 1 = 13 from rfl, whole] at month
  simp only [dayNumber, Calendar.dayNumber, daysBeforeYear_succ, endOfMonth, december]
  omega

-- The three cases of a step on the calendar are the three ways in which a day of the line is the
-- last one before the next: within a month, at its end, and at the end of a year.
theorem next?_eq_succ? (date : Date) : date.next? = date.succ? := by
  obtain ⟨-, -, firstMonth, lastMonth, -⟩ := date.real
  have months := daysBeforeMonth_succ date.year firstMonth lastMonth
  unfold next?
  split
  next inMonth =>
    refine (addDays?_eq_some.mpr ?_).symm
    simp only [daysUntil, dayNumber, Calendar.dayNumber]
    omega
  next monthEnded =>
    have endOfMonth := day_of_ended monthEnded
    split
    next inYear =>
      refine (addDays?_eq_some.mpr ?_).symm
      simp only [daysUntil, dayNumber, Calendar.dayNumber]
      omega
    next yearEnded =>
      have endOfYear := dayNumber_of_ended endOfMonth (month_of_ended yearEnded)
      split
      next inCalendar =>
        refine (addDays?_eq_some.mpr ?_).symm
        rw [daysUntil, endOfYear]
        simp only [dayNumber, Calendar.dayNumber, daysBeforeMonth_first]
        omega
      next calendarEnded =>
        refine (addDays?_eq_none.mpr (.inr ?_)).symm
        rw [daysUntil_last, endOfYear, year_of_ended calendarEnded]
        decide

theorem addDays?_natCast (n : Nat) (date : Date) : date.addDays? n = after? n date := by
  induction n generalizing date with
  | zero => exact date.addDays?_zero
  | succ n ih =>
    rw [after?, next?_eq_succ?, succ?]
    cases step : date.addDays? 1 with
    | none =>
      rw [addDays?_eq_none] at step
      have outside : date.addDays? (n + 1 : Nat) = none := by
        rw [addDays?_eq_none]
        rw [daysUntil_first] at *
        have place := date.dayNumber_bounds
        omega
      rw [outside]
      rfl
    | some next =>
      rw [Option.bind_some, ← ih, addDays?_addDays? step, Nat.cast_add, Int.add_comm]
      rfl

theorem addDays?_neg_natCast (n : Nat) :
    date.addDays? (-n) = some other ↔ after? n other = some date := by
  rw [← addDays?_natCast, addDays?_eq_some, addDays?_eq_some, daysUntil, daysUntil]
  omega

end Date

namespace Day

-- Where nothing is moved the day is kept, which is what moving it by no days gives.
theorem shift?_eq (day : Day) (n : Int) :
    day.shift? n = (day.date.addDays? n).map fun date => ⟨date, day.zone⟩ := by
  unfold shift?
  by_cases still : n = 0
  next =>
    rw [if_pos still, still, Date.addDays?_zero]
    rfl
  next => rw [if_neg still]

theorem addDays_eq (day : Day) (n : Int) :
    day.addDays n = ((day.date.addDays? n).map fun date => Day.mk date day.zone).elim
      (.error .shiftedDay) .ok := by
  rw [addDays, shift?_eq]
  cases day.date.addDays? n <;> rfl

/-- The integers act on the dates: what is no date any more is the only failure, and moving by `m`
and then by `n` days is moving by both. The days of a zone move with their dates and keep the zone;
checked moves take a count of days, and the others fail where there is no date. -/
theorem shifts_act (date : Date) (zone : Zone) (m n : Int) :
    (date.addDays? n = none ↔ n < date.daysUntil .first ∨ date.daysUntil .last < n)
      ∧ (∀ other : Date, date.addDays? n = some other ↔ date.daysUntil other = n)
      ∧ (∀ other : Date, date.daysUntil other = n →
        other.daysSince date = n ∧ (date.lt other ↔ 0 < n))
      ∧ (∀ other : Date, date.addDays? m = some other →
        other.addDays? n = date.addDays? (m + n))
      ∧ (∀ k : Nat, date.addDays? k = date.after? k)
      ∧ (∀ (k : Nat) (other : Date),
        date.addDays? (-k) = some other ↔ other.after? k = some date)
      ∧ (Day.mk date zone).addDays? n = (if n < 0 then .error .dayCount
        else .ok ((date.addDays? n).map fun moved => ⟨moved, zone⟩))
      ∧ (Day.mk date zone).subDays? n = (if n < 0 then .error .dayCount
        else .ok ((date.addDays? (-n)).map fun moved => ⟨moved, zone⟩))
      ∧ (Day.mk date zone).addDays n = ((date.addDays? n).map fun moved => Day.mk moved zone).elim
        (.error .shiftedDay) .ok
      ∧ (Day.mk date zone).subDays n =
        ((date.addDays? (-n)).map fun moved => Day.mk moved zone).elim (.error .shiftedDay) .ok
      ∧ Error.dayCount.kind = .value ∧ Error.shiftedDay.kind = .overflow := by
  have order (other : Date) (apart : date.daysUntil other = n) :
      other.daysSince date = n ∧ (date.lt other ↔ 0 < n) := by
    rw [Date.daysUntil] at apart
    rw [Date.daysSince, Date.lt_iff_dayNumber_lt]
    omega
  have added (k : Int) := shift?_eq ⟨date, zone⟩ k
  refine ⟨Date.addDays?_eq_none, fun _ => Date.addDays?_eq_some, order,
    fun _ => Date.addDays?_addDays?, fun k => Date.addDays?_natCast k date,
    fun k _ => Date.addDays?_neg_natCast k, ?_, ?_, addDays_eq _ n, addDays_eq _ (-n), rfl, rfl⟩
  next => rw [addDays?, added]
  next => rw [subDays?, added]

theorem shifts_act_wholeCalendar :
    Date.first.addDays? 3652058 = some .last
      ∧ Date.last.addDays? 1 = Date.first.addDays? 3652059
      ∧ (Day.mk .first .utc).addDays 3652059 = .error .shiftedDay := by
  obtain ⟨-, exact, -⟩ := shifts_act .first .utc 0 3652058
  obtain ⟨beyond, -, -, -, -, -, -, -, added, -⟩ := shifts_act .first .utc 0 3652059
  obtain ⟨-, -, -, onward, -⟩ := shifts_act .first .utc 3652058 1
  have whole := (exact .last).mpr (by decide)
  have outside := beyond.mpr (.inr (by decide))
  rw [outside] at added
  exact ⟨whole, onward .last whole, added⟩

end Day

end ZonedTime
