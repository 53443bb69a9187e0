import ZonedTime.Proofs.Error.Outcome
import ZonedTime.Proofs.Reading.SecondLine
import ZonedTime.Value.Packed

set_option autoImplicit false

namespace ZonedTime

open Error (IsRefusal)

namespace Date

theorem fault_isRefusal (year month : Int) : (fault year month).IsRefusal := by
  unfold fault
  repeat' split
  all_goals exact .inr (.inr rfl)

theorem ofFields_refuses (year month day : Int) :
    Refuses IsRefusal (ofFields year month day) := by
  unfold ofFields
  split
  next => trivial
  next => exact fault_isRefusal year month

theorem make_refuses (year month day : Int) : Refuses IsRefusal (make year month day) := by
  unfold make
  split
  next => exact ofFields_refuses year month day
  next => exact .inl rfl

end Date

namespace Time

theorem ofClock_refuses (hour minute second nano : Int) :
    Refuses IsRefusal (ofClock hour minute second nano) := by
  unfold ofClock
  split
  next => trivial
  next =>
    repeat' split
    all_goals exact .inr (.inr rfl)

theorem checkNano_refuses (second nano : Int) : Refuses IsRefusal (checkNano second nano) := by
  unfold checkNano
  repeat' split
  next => exact .inr (.inr rfl)
  next => exact .inr (.inr rfl)
  next => trivial

theorem ofFields_refuses (hour minute second nano : Int) :
    Refuses IsRefusal (ofFields hour minute second nano) :=
  (ofClock_refuses hour minute second nano).bind fun _ _ =>
    (checkNano_refuses second nano).bind fun _ _ => trivial

theorem ofClock_eq_ok {hour minute second nano : Int} {time : Time} :
    ofClock hour minute second nano = .ok time ↔
      time.hour = hour ∧ time.minute = minute ∧ time.second = second ∧ time.nano = nano := by
  constructor
  next =>
    intro made
    unfold ofClock at made
    split at made
    next =>
      cases made
      exact ⟨rfl, rfl, rfl, rfl⟩
    next =>
      repeat' split at made
      all_goals cases made
  next =>
    rintro ⟨rfl, rfl, rfl, rfl⟩
    exact time.ofClock_fields

theorem checkNano_eq_ok {second nano : Int} :
    checkNano second nano = .ok () ↔ IsProperNano second nano := by
  unfold checkNano IsProperNano
  constructor
  next =>
    intro checked
    split at checked
    next => cases checked
    next =>
      split at checked
      next => cases checked
      next => omega
  next =>
    intro proper
    rw [if_neg (by omega), if_neg (by omega)]

theorem ofFields_eq_ok {hour minute second nano : Int} {time : Time} :
    ofFields hour minute second nano = .ok time ↔
      ofClock hour minute second nano = .ok time ∧ time.Proper := by
  constructor
  next =>
    intro made
    unfold ofFields at made
    cases clock : ofClock hour minute second nano with
    | error error =>
      rw [clock] at made
      cases made
    | ok found =>
      cases checked : checkNano second nano with
      | error error =>
        rw [clock, checked] at made
        cases made
      | ok accepted =>
        rw [clock, checked] at made
        cases made
        obtain ⟨-, -, rfl, rfl⟩ := ofClock_eq_ok.mp clock
        exact ⟨rfl, checkNano_eq_ok.mp checked⟩
  next =>
    rintro ⟨clock, proper⟩
    obtain ⟨-, -, rfl, rfl⟩ := ofClock_eq_ok.mp clock
    rw [ofFields, clock, ok_bind, checkNano_eq_ok.mpr proper]
    rfl

end Time

namespace Reading

theorem make_refuses (fields : Fields) : Refuses IsRefusal (make fields) := by
  unfold make
  split
  next =>
    exact (Date.ofFields_refuses _ _ _).bind fun _ _ =>
      (Time.ofFields_refuses _ _ _ _).bind fun _ _ => trivial
  next => exact .inl rfl

theorem fit_fields (reading : Reading) : reading.fields.fit = true := by
  obtain ⟨firstHour, lastHour, firstMinute, lastMinute, firstSecond, lastSecond⟩ :=
    reading.time.inDay
  change (fitsField reading.date.year && fitsField reading.date.month
    && fitsField reading.date.day && fitsField reading.time.hour && fitsField reading.time.minute
    && fitsField reading.time.second) = true
  rw [reading.date.fitsField_fields]
  simp only [fitsField, Bool.true_and, Bool.and_eq_true, decide_eq_true_eq]
  omega

theorem make_fields {reading : Reading} (proper : reading.Proper) :
    make reading.fields = .ok reading := by
  have time := Time.ofFields_eq_ok.mpr ⟨reading.time.ofClock_fields, proper⟩
  rw [make, if_pos reading.fit_fields, ofFields]
  simp only [fields, Date.ofFields_fields, time]
  rfl

theorem ofClock_refuses (fields : Fields) : Refuses IsRefusal (ofClock fields) :=
  (Date.ofFields_refuses _ _ _).bind fun _ _ =>
    (Time.ofClock_refuses _ _ _ _).bind fun _ _ => trivial

theorem pack_length (reading : Reading) : reading.pack.length = 11 := rfl

theorem unpack_pack_refuses (reading : Reading) :
    Refuses IsRefusal (unpack reading.pack) := by
  unfold unpack
  rw [if_pos reading.pack_length]
  exact (Date.ofFields_refuses _ _ _).bind fun _ _ =>
    (Time.ofClock_refuses _ _ _ _).bind fun _ _ => trivial

end Reading

theorem Offset.ofSeconds_refuses (seconds : Int) :
    Refuses IsRefusal (Offset.ofSeconds seconds) := by
  unfold Offset.ofSeconds
  split
  next => trivial
  next => exact .inr (.inr rfl)

theorem Offset.ofSeconds_seconds (offset : Offset) : ofSeconds offset.seconds = .ok offset := by
  simp [ofSeconds, ofSeconds?, offset.withinDay]

end ZonedTime
