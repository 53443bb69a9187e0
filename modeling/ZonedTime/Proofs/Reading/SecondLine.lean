import ZonedTime.Proofs.Calendar.DayLine
import ZonedTime.Reading.Basic

set_option autoImplicit false

namespace ZonedTime.Time

theorem secondOfDay_bounds (time : Time) : 0 ≤ time.secondOfDay ∧ time.secondOfDay < 86400 := by
  obtain ⟨_, _, _, _, _, _⟩ := time.inDay
  unfold secondOfDay
  omega

theorem ofSecondOfDay_eq {second nano : Int} {time : Time} :
    ofSecondOfDay second nano = time ↔
      second % 86400 = time.secondOfDay ∧ nano = time.nano := by
  rcases time with ⟨hour, minute, second', nano', inDay⟩
  have bounds := inDay
  simp only [ofSecondOfDay, secondOfDay, mk.injEq]
  unfold IsClock at bounds
  omega

theorem lt_iff (a b : Time) :
    a.lt b ↔ a.secondOfDay < b.secondOfDay
      ∨ (a.secondOfDay = b.secondOfDay ∧ a.nano < b.nano) := by
  simp [lt]

theorem isLeapSecond_iff (time : Time) : time.isLeapSecond ↔ 1000000000 ≤ time.nano := by
  simp [isLeapSecond]

theorem shownSecond_bounds (time : Time) : 0 ≤ time.shownSecond ∧ time.shownSecond ≤ 60 := by
  obtain ⟨-, -, -, -, first, last⟩ := time.inDay
  unfold shownSecond
  split <;> omega

theorem isClock_lastSecond : IsClock 23 59 59 := by decide

theorem isClock_halfMinute : IsClock 0 0 29 := by decide

theorem ofClock_fields (time : Time) :
    ofClock time.hour time.minute time.second time.nano = .ok time := by
  rw [ofClock, dif_pos time.inDay]

end ZonedTime.Time

namespace ZonedTime.Reading

open Calendar

theorem epochSecond_eq (reading : Reading) :
    reading.epochSecond =
      (reading.date.dayNumber - 719163) * 86400 + reading.time.secondOfDay := rfl

theorem ofClock_fields (reading : Reading) : ofClock reading.fields = .ok reading := by
  simp only [ofClock, fields, Date.ofFields_fields, Time.ofClock_fields]
  rfl

theorem first_epochSecond : first.epochSecond = -62135596800 := by decide

theorem last_epochSecond : last.epochSecond = 253402300799 := by decide

theorem epochSecond_bounds (reading : Reading) :
    first.epochSecond ≤ reading.epochSecond ∧ reading.epochSecond ≤ last.epochSecond := by
  have day := reading.date.dayNumber_bounds
  have second := reading.time.secondOfDay_bounds
  rw [first_epochSecond, last_epochSecond, epochSecond_eq]
  unfold lastDay at day
  omega

theorem ofEpoch?_eq_some {second nano : Int} {reading : Reading} :
    ofEpoch? second nano = some reading ↔
      reading.epochSecond = second ∧ reading.time.nano = nano := by
  have inDay := reading.time.secondOfDay_bounds
  rcases reading with ⟨date, time⟩
  simp only [ofEpoch?, Option.map_eq_some_iff, Date.ofDayNumber?_eq_some, mk.injEq,
    Time.ofSecondOfDay_eq, epochDay, epochSecond_eq] at inDay ⊢
  constructor
  next =>
    rintro ⟨_, day, rfl, second, nano⟩
    omega
  next =>
    rintro ⟨rfl, rfl⟩
    exact ⟨date, by omega, rfl, by omega, rfl⟩

theorem ofEpoch?_eq_none {second nano : Int} :
    ofEpoch? second nano = none ↔
      second < first.epochSecond ∨ last.epochSecond < second := by
  simp only [ofEpoch?, Option.map_eq_none_iff, Date.ofDayNumber?_eq_none, epochDay, lastDay,
    first_epochSecond, last_epochSecond]
  omega

theorem eq_of_epochSecond_eq {a b : Reading} (second : a.epochSecond = b.epochSecond)
    (nano : a.time.nano = b.time.nano) : a = b := by
  have one : ofEpoch? b.epochSecond b.time.nano = some a := ofEpoch?_eq_some.mpr ⟨second, nano⟩
  rw [ofEpoch?_eq_some.mpr ⟨rfl, rfl⟩] at one
  exact (Option.some.inj one).symm

theorem shift?_eq_some {reading moved : Reading} {seconds : Int} :
    reading.shift? seconds = some moved ↔
      moved.epochSecond = reading.epochSecond + seconds
        ∧ moved.time.nano = reading.time.nano := by
  unfold shift?
  -- A shift by nothing gives the reading itself, which is the only one at its place.
  by_cases still : seconds = 0
  next =>
    simp only [still, if_true, Option.some.injEq, Int.add_zero]
    constructor
    next =>
      rintro rfl
      exact ⟨rfl, rfl⟩
    next =>
      rintro ⟨second, nano⟩
      exact eq_of_epochSecond_eq second.symm nano.symm
  next => rw [if_neg still, ofEpoch?_eq_some]

theorem shift?_eq_none {reading : Reading} {seconds : Int} :
    reading.shift? seconds = none ↔
      reading.epochSecond + seconds < first.epochSecond
        ∨ last.epochSecond < reading.epochSecond + seconds := by
  have bounds := reading.epochSecond_bounds
  unfold shift?
  by_cases still : seconds = 0
  next =>
    simp only [still, if_true, Int.add_zero]
    constructor
    next => intro impossible; cases impossible
    next => omega
  next => rw [if_neg still, ofEpoch?_eq_none]

theorem lt_iff (a b : Reading) :
    a.lt b ↔ a.epochSecond < b.epochSecond
      ∨ (a.epochSecond = b.epochSecond ∧ a.time.nano < b.time.nano) := by
  have first := a.time.secondOfDay_bounds
  have second := b.time.secondOfDay_bounds
  have day : a.date = b.date ↔ a.date.dayNumber = b.date.dayNumber :=
    ⟨congrArg Date.dayNumber, Date.eq_of_dayNumber_eq⟩
  simp only [lt, Bool.or_eq_true, Bool.and_eq_true, beq_iff_eq, Date.lt_iff_dayNumber_lt,
    Time.lt_iff, day, epochSecond_eq]
  omega

theorem in_year (reading : Reading) :
    newYear reading.date.year ≤ reading.epochSecond
      ∧ reading.epochSecond < newYear (reading.date.year + 1) := by
  have day := reading.date.dayNumber_in_year
  have second := reading.time.secondOfDay_bounds
  rw [epochSecond_eq]
  unfold newYear secondsPerDay epochDay
  omega

theorem yearOfEpoch_epochSecond (reading : Reading) :
    yearOfEpoch reading.epochSecond = reading.date.year := by
  obtain ⟨first, last, -⟩ := reading.date.real
  exact yearOfEpoch_eq first last (.inr reading.in_year.1) (.inr reading.in_year.2)

theorem exists_epochSecond {second : Int} (after : newYear 1 ≤ second)
    (before : second < newYear 10000) : ∃ reading : Reading, reading.epochSecond = second := by
  cases found : ofEpoch? second 0 with
  | some reading => exact ⟨reading, (ofEpoch?_eq_some.mp found).1⟩
  | none =>
    have ends : newYear 1 = -62135596800 ∧ newYear 10000 = 253402300800 := by decide
    have outside := ofEpoch?_eq_none.mp found
    rw [first_epochSecond, last_epochSecond] at outside
    omega

end ZonedTime.Reading
