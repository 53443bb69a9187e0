import ZonedTime.Proofs.Pattern.Stated

set_option autoImplicit false

namespace ZonedTime

open Calendar Error

namespace Fields

theorem issue_ends {α : Type} {good : α -> Prop} (cause : Issue) :
    Ends good IsParse (issue cause : Except Error α) :=
  rfl

theorem ofIssue_ends {α : Type} {good : α -> Prop} {result : Except Issue α}
    (gives : Gives good result) : Ends good IsParse (ofIssue result) :=
  gives.mapError_ends fun _ => rfl

theorem orOutOfRange_parse (date : Option Date) : Refuses IsParse (orOutOfRange date) := by
  cases date with
  | some date => trivial
  | none => exact issue_ends _

theorem dateOfYmd_ends {year month day : Int}
    (fits : (fitsField year && fitsField month && fitsField day) = true) :
    Ends (fun date => date.year = year ∧ date.month = month ∧ date.day = day) IsParse
      (dateOfYmd year month day) := by
  unfold dateOfYmd Date.make?
  rw [if_pos fits, ok_bind]
  cases made : Date.ofYmd? year month day with
  | some date => exact Date.ofYmd?_eq_some.mp made
  | none => exact issue_ends _

theorem newYear_ends {year : Int} (first : 0 ≤ year) (last : year ≤ 9999) :
    Ends (fun date => date.dayNumber = daysBeforeYear year + 1) IsParse (dateOfYmd year 1 1) := by
  have fits : (fitsField year && fitsField 1 && fitsField 1) = true := by
    simp only [fitsField, Bool.and_eq_true, decide_eq_true_eq]
    omega
  refine (dateOfYmd_ends fits).imp fun date same => ?_
  obtain ⟨sameYear, sameMonth, sameDay⟩ := same
  rw [date.dayNumber_eq, Date.yearDay, sameMonth, sameDay, daysBeforeMonth_first, sameYear]
  rfl

theorem dateOfYearDay_parse {year yearDay : Int} (first : 0 ≤ year) (last : year ≤ 9999)
    (someDay : 1 ≤ yearDay) : Refuses IsParse (dateOfYearDay year yearDay) := by
  unfold dateOfYearDay
  split
  next => exact issue_ends _
  next inYear =>
    refine (newYear_ends first last).bind fun newYear place => ?_
    cases moved : newYear.addDays? (yearDay - 1) with
    | some date => trivial
    | none =>
      -- The days of the year end before the next one begins, and that is the year 10000 at most.
      have whole := newYear.dayNumber_bounds
      have next := daysBeforeYear_succ year
      have upTo := daysBeforeYear_mono (show year + 1 ≤ 10000 by omega)
      have ends := daysBeforeYear_range
      rcases Date.ofDayNumber?_eq_none.mp moved with before | after <;> omega

theorem dateOfWeek_parse {year : Int} (first : 0 ≤ year) (last : year ≤ 9999)
    (week weekday start : Int) : Refuses IsParse (dateOfWeek year week weekday start) :=
  (newYear_ends first last).bind fun _ _ => orOutOfRange_parse _

section

variable {fields : Fields}

theorem year_gives (admitted : fields.Admitted) :
    Gives (fun year => ∀ n ∈ year, 0 ≤ n ∧ n ≤ 9999) fields.year := by
  have full := admitted .year
  have century := admitted .century
  have rest := admitted .yearOfCentury
  simp only [Slot.Admits, Slot.range] at full century rest
  unfold year resolveYear
  cases stated : fields.get .year with
  | some year =>
    simp only
    split
    next =>
      rintro _ ⟨⟩
      have := full year stated
      omega
    next => trivial
  | none =>
    cases written : fields.get .yearOfCentury with
    | some rest' =>
      have low := rest rest' written
      cases before : fields.get .century with
      | some century' =>
        rintro _ ⟨⟩
        have high := century century' before
        omega
      | none =>
        rintro _ ⟨⟩
        split <;> omega
    | none =>
      cases fields.get .century with
      | some century' => trivial
      | none => rintro _ ⟨⟩

theorem builtDate_parse (admitted : fields.Admitted) {year : Option Int}
    (known : ∀ n ∈ year, 0 ≤ n ∧ n ≤ 9999) (isoYear : Option Int) :
    Refuses IsParse (fields.builtDate year isoYear) := by
  unfold builtDate
  split
  next year month _ inMonth =>
    obtain ⟨first, last⟩ := known _ rfl
    split
    next day inDay =>
      have month := admitted .month _ inMonth
      have day := admitted .day _ inDay
      simp only [Slot.Admits, Slot.range] at month day
      refine (dateOfYmd_ends ?_).bind fun _ _ => trivial
      simp only [fitsField, Bool.and_eq_true, decide_eq_true_eq]
      omega
    next => exact issue_ends _
  next inYear =>
    obtain ⟨first, last⟩ := known _ rfl
    exact (dateOfYearDay_parse first last (admitted .yearDay _ inYear).1).bind fun _ _ => trivial
  next =>
    split
    next => trivial
    next =>
      split
      next =>
        obtain ⟨first, last⟩ := known _ rfl
        exact (dateOfWeek_parse first last _ _ _).bind fun _ _ => trivial
      next =>
        obtain ⟨first, last⟩ := known _ rfl
        exact (dateOfWeek_parse first last _ _ _).bind fun _ _ => trivial
      next =>
        split
        next => exact (orOutOfRange_parse _).bind fun _ _ => trivial
        next => trivial

theorem date_parse (admitted : fields.Admitted) : Refuses IsParse fields.date := by
  have built : Refuses IsParse fields.fieldDate := by
    refine (ofIssue_ends (year_gives admitted)).bind fun year known => ?_
    refine (ofIssue_ends (gives_any _)).bind fun isoYear _ => ?_
    refine (builtDate_parse admitted known isoYear).bind fun date _ => ?_
    split
    next => trivial
    next =>
      split
      next => trivial
      next => exact issue_ends _
  refine built.bind fun built _ => ?_
  split
  next =>
    refine (orOutOfRange_parse _).bind fun stamped _ => ?_
    split
    next => trivial
    next => exact issue_ends _
  next => trivial
  next => exact issue_ends _

def Clock.Sound (clock : Clock) : Prop :=
  IsClock clock.hour clock.minute clock.second ∧ IsProperNano clock.second clock.nano

theorem clockOf_sound {hour minute second nano : Int} (inDay : 0 ≤ hour ∧ hour < 24)
    (inHour : Slot.minute.Admits minute) (inMinute : Slot.second.Admits second)
    (fraction : IsFraction nano) : (clockOf hour minute second nano).Sound := by
  simp only [Slot.Admits, Slot.range] at inHour inMinute
  unfold clockOf
  split
  next =>
    refine ⟨?_, fraction.folded⟩
    simp only [IsClock]
    omega
  next =>
    refine ⟨?_, fraction.proper _⟩
    simp only [IsClock]
    omega

theorem Admitted.getD_zero (admitted : fields.Admitted) {slot : Slot} (zero : slot.Admits 0) :
    slot.Admits ((fields.get slot).getD 0) := by
  cases stated : fields.get slot with
  | none => exact zero
  | some value => exact admitted slot value stated

theorem clock_ends (admitted : fields.Admitted) : Ends Clock.Sound IsParse fields.clock := by
  have fraction : IsFraction ((fields.get .nanosecond).getD 0) :=
    Slot.admits_nanosecond.mp (admitted.getD_zero (by decide))
  have stamped (timestamp : Int) :
      Ends Clock.Sound IsParse (fields.stampClock timestamp) := by
    refine (orOutOfRange_parse _).bind fun _ _ => ⟨?_, fraction.proper _⟩
    simp only [IsClock]
    omega
  have built : Gives (fun clock? => ∀ clock ∈ clock?, Clock.Sound clock) fields.fieldClock := by
    unfold fieldClock
    split
    next =>
      split
      next => trivial
      next => rintro clock ⟨⟩
    next half hour minute inDay inHalf inHour =>
      rintro clock ⟨⟩
      have half := admitted .half _ inDay
      have hour := admitted .hourOfHalf _ inHalf
      simp only [Slot.Admits, Slot.range] at half hour
      exact clockOf_sound (by omega) (admitted .minute _ inHour) (admitted.getD_zero (by decide))
        fraction
    next => trivial
  refine (ofIssue_ends built).bind fun clock? sound => ?_
  split
  next =>
    refine (stamped _).bind fun clock stampedSound => ?_
    split
    next =>
      split
      next => exact sound _ rfl
      next => exact issue_ends _
    next => exact stampedSound
  next => exact sound _ rfl
  next => exact issue_ends _

theorem time_ends (admitted : fields.Admitted) : Ends Time.Proper IsParse fields.time := by
  refine (clock_ends admitted).bind fun clock ⟨inDay, proper⟩ => ?_
  unfold Time.ofClock
  rw [dif_pos inDay]
  exact proper

theorem reading_ends (admitted : fields.Admitted) :
    Ends Reading.Proper IsParse fields.reading :=
  (date_parse admitted).bind fun _ _ => (time_ends admitted).bind fun _ proper => proper

theorem ofSeconds_admitted {seconds : Int} (admits : Slot.offset.Admits seconds) :
    Refuses IsParse (Offset.ofSeconds seconds) := by
  simp only [Slot.Admits, Slot.range] at admits
  unfold Offset.ofSeconds Offset.ofSeconds?
  rw [dif_pos (by omega)]
  trivial

end

end Fields

end ZonedTime
