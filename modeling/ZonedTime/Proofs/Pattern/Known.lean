import ZonedTime.Pattern.Reader
import ZonedTime.Proofs.Calendar.WeekLine
import ZonedTime.Proofs.Error.Outcome
import ZonedTime.Proofs.Reading.SecondLine

set_option autoImplicit false

namespace ZonedTime

def Reading.stated (reading : Reading) : Slot -> Int
  | .year => reading.date.year
  | .century => reading.date.year / 100
  | .yearOfCentury => reading.date.year % 100
  | .isoYear => reading.date.isoYear
  | .isoCentury => reading.date.isoYear / 100
  | .isoYearOfCentury => reading.date.isoYear % 100
  | .month => reading.date.month
  | .weekFromSunday => reading.date.weekOfYear 6
  | .weekFromMonday => reading.date.weekOfYear 0
  | .isoWeek => reading.date.isoWeek
  | .weekday => reading.date.weekdayIndex
  | .yearDay => reading.date.yearDay
  | .day => reading.date.day
  | .half => reading.time.hour / 12
  | .hourOfHalf => reading.time.hour % 12
  | .minute => reading.time.minute
  | .second => reading.time.shownSecond
  | .nanosecond => reading.time.nano % 1000000000
  | .timestamp => reading.epochSecond
  | .offset => 0

def Reading.statements (reading : Reading) (slots : List Slot) : List (Slot × Int) :=
  slots.map fun slot => (slot, reading.stated slot)

namespace Fields

def known (reading : Reading) (slots : List Slot) : Fields :=
  ⟨fun slot => if slot ∈ slots then some (reading.stated slot) else none⟩

section

variable {reading : Reading} {slots : List Slot} {slot : Slot}

theorem known_nil (reading : Reading) : known reading [] = empty := rfl

theorem get_known (member : slot ∈ slots) :
    (known reading slots).get slot = some (reading.stated slot) := by
  simp [known, member]

theorem get_known_of_not_mem (missing : slot ∉ slots) :
    (known reading slots).get slot = none := by
  simp [known, missing]

theorem agrees_known (reading : Reading) (slots : List Slot) (slot : Slot) :
    agrees ((known reading slots).get slot) (reading.stated slot) = true := by
  by_cases member : slot ∈ slots
  next => simp [get_known member, agrees]
  next => simp [get_known_of_not_mem member, agrees]

theorem set_known (reading : Reading) (slots : List Slot) (slot : Slot) :
    (known reading slots).set slot (reading.stated slot) = .ok (known reading (slot :: slots)) := by
  by_cases member : slot ∈ slots
  next =>
    -- What is stated again is known already.
    have same : known reading (slot :: slots) = known reading slots := by
      simp only [known, List.mem_cons, Fields.mk.injEq]
      funext other
      by_cases again : other = slot <;> simp [again, member]
    simp [set, get_known member, same]
  next =>
    have put : (known reading slots).put slot (reading.stated slot) =
        known reading (slot :: slots) := by
      simp only [known, Fields.put, List.mem_cons, Fields.mk.injEq]
      funext other
      by_cases here : other = slot <;> simp [here]
    simp [set, get_known_of_not_mem member, put]

theorem setAll_append (fields : Fields) (stated more : List (Slot × Int)) :
    fields.setAll (stated ++ more) =
      (fields.setAll stated >>= fun known => known.setAll more) := by
  induction stated generalizing fields with
  | nil => rfl
  | cons first rest ih =>
    simp only [List.cons_append, setAll]
    cases fields.set first.1 first.2 with
    | error issue => rfl
    | ok known => exact ih known

theorem setAll_fresh {fields : Fields} (unknown : fields.get slot = none) (value : Int) :
    fields.setAll [(slot, value)] = .ok (fields.put slot value) := by
  simp [setAll, set, unknown]

theorem setAll_known (reading : Reading) (slots more : List Slot) :
    (known reading slots).setAll (reading.statements more) =
      .ok (known reading (more.reverse ++ slots)) := by
  induction more generalizing slots with
  | nil => rfl
  | cons slot rest ih =>
    simp only [Reading.statements, List.map_cons, setAll, set_known]
    simpa [Reading.statements] using ih (slot :: slots)

end

theorem dateOfYmd_date (date : Date) : dateOfYmd date.year date.month date.day = .ok date := by
  have made : Date.ofYmd? date.year date.month date.day = some date :=
    Date.ofYmd?_eq_some.mpr ⟨rfl, rfl, rfl⟩
  simp [dateOfYmd, Date.make?, date.fitsField_fields, made, orOutOfRange]

theorem dateOfYmd_newYear (date : Date) :
    ∃ newYear : Date, dateOfYmd date.year 1 1 = .ok newYear
      ∧ newYear.dayNumber = Calendar.daysBeforeYear date.year + 1 := by
  obtain ⟨firstYear, lastYear, -⟩ := date.real
  have real : IsDate date.year 1 1 := by
    simp [IsDate, Calendar.daysInMonth, firstYear, lastYear]
  refine ⟨⟨date.year, 1, 1, real⟩, dateOfYmd_date ⟨date.year, 1, 1, real⟩, ?_⟩
  simp [Date.dayNumber, Calendar.dayNumber, Calendar.daysBeforeMonth_first]

theorem dateOfYearDay_date (date : Date) : dateOfYearDay date.year date.yearDay = .ok date := by
  obtain ⟨newYear, made, place⟩ := dateOfYmd_newYear date
  have inYear : ¬ Calendar.daysInYear date.year < date.yearDay :=
    Int.not_lt.mpr date.yearDay_bounds.2
  have moved : newYear.addDays? (date.yearDay - 1) = some date := by
    rw [Date.addDays?, Date.ofDayNumber?_eq_some, place, date.dayNumber_eq]
    omega
  simp [dateOfYearDay, inYear, made, moved]

theorem dateOfWeek_date (date : Date) (start : Int) :
    dateOfWeek date.year (date.weekOfYear start) date.weekdayIndex start = .ok date := by
  obtain ⟨newYear, made, -⟩ := dateOfYmd_newYear date
  simp [dateOfWeek, made, Date.ofWeekOfYear?_weekOfYear, orOutOfRange]

/-- Slots that are enough for a date in one of the ways to build it. A part of a date must not
come without the rest that it is asked with. -/
structure DetermineDate (slots : List Slot) : Prop where
  year : .year ∈ slots
  isoYear : .isoCentury ∈ slots ∨ .isoYearOfCentury ∈ slots → .isoYear ∈ slots
  day : (.month ∈ slots ∧ .day ∈ slots)
    ∨ (.month ∉ slots ∧ (.yearDay ∈ slots
      ∨ ((.weekFromSunday ∈ slots ∨ .weekFromMonday ∈ slots) ∧ .weekday ∈ slots)))
  timestamp : .timestamp ∉ slots

structure DetermineTime (slots : List Slot) : Prop where
  half : .half ∈ slots
  hourOfHalf : .hourOfHalf ∈ slots
  minute : .minute ∈ slots
  second : .second ∈ slots
  nanosecond : .nanosecond ∈ slots
  timestamp : .timestamp ∉ slots

section

variable {slots : List Slot}

theorem known_year (reading : Reading) (member : .year ∈ slots) :
    (known reading slots).year = .ok (some reading.date.year) := by
  have century := agrees_known reading slots .century
  have rest := agrees_known reading slots .yearOfCentury
  simp only [Reading.stated] at century rest
  simp [year, resolveYear, get_known member, century, rest, Reading.stated]

theorem known_isoYear (reading : Reading)
    (complete : .isoCentury ∈ slots ∨ .isoYearOfCentury ∈ slots → .isoYear ∈ slots) :
    (known reading slots).isoYear = .ok ((known reading slots).get .isoYear) := by
  by_cases member : Slot.isoYear ∈ slots
  next =>
    have century := agrees_known reading slots .isoCentury
    have rest := agrees_known reading slots .isoYearOfCentury
    simp only [Reading.stated] at century rest
    simp [isoYear, resolveYear, get_known member, century, rest, Reading.stated]
  next =>
    have century : Slot.isoCentury ∉ slots := fun part => member (complete (.inl part))
    have rest : Slot.isoYearOfCentury ∉ slots := fun part => member (complete (.inr part))
    simp [isoYear, resolveYear, get_known_of_not_mem, member, century, rest]

theorem known_builtDate (reading : Reading) (enough : DetermineDate slots) (isoYear : Option Int) :
    (known reading slots).builtDate (some reading.date.year) isoYear =
      .ok (some reading.date) := by
  rcases enough.day with ⟨month, day⟩ | ⟨month, other⟩
  next => simp [builtDate, get_known month, get_known day, Reading.stated, dateOfYmd_date]
  next =>
    by_cases yearDay : Slot.yearDay ∈ slots
    next =>
      simp [builtDate, get_known_of_not_mem month, get_known yearDay, Reading.stated,
        dateOfYearDay_date]
    next =>
      obtain ⟨week, weekday⟩ := other.resolve_left yearDay
      by_cases sunday : Slot.weekFromSunday ∈ slots
      next =>
        simp [builtDate, get_known_of_not_mem, month, yearDay, get_known, weekday, sunday,
          Reading.stated, dateOfWeek_date]
      next =>
        have monday := week.resolve_left sunday
        simp [builtDate, get_known_of_not_mem, month, yearDay, get_known, weekday, sunday,
          monday, Reading.stated, dateOfWeek_date]

theorem known_date (reading : Reading) (enough : DetermineDate slots) :
    (known reading slots).date = .ok reading.date := by
  have agreed : (known reading slots).matchesDate (some reading.date.year)
      ((known reading slots).get .isoYear) reading.date = true := by
    have year : agrees (some reading.date.year) reading.date.year = true := beq_self_eq_true _
    have weekday := agrees_known reading slots .weekday
    have yearDay := agrees_known reading slots .yearDay
    have isoYear := agrees_known reading slots .isoYear
    have isoWeek := agrees_known reading slots .isoWeek
    simp only [Reading.stated] at weekday yearDay isoYear isoWeek
    simp [matchesDate, year, weekday, yearDay, isoYear, isoWeek]
  have built : (known reading slots).fieldDate = .ok (some reading.date) := by
    simp [fieldDate, ofIssue, Except.mapError, known_year reading enough.year,
      known_isoYear reading enough.isoYear, known_builtDate reading enough, agreed]
  simp [date, built, get_known_of_not_mem enough.timestamp]

theorem clockOf_shown {time : Time} (proper : time.Proper) :
    clockOf (time.hour / 12 * 12 + time.hour % 12) time.minute time.shownSecond
      (time.nano % 1000000000) = ⟨time.hour, time.minute, time.second, time.nano⟩ := by
  obtain ⟨first, last, leap⟩ := proper
  obtain ⟨-, -, -, -, -, lastSecond⟩ := time.inDay
  have hour : time.hour / 12 * 12 + time.hour % 12 = time.hour := by omega
  by_cases later : 1000000000 ≤ time.nano
  next =>
    have second := leap later
    have whole : time.nano % 1000000000 + 1000000000 = time.nano := by omega
    simp [clockOf, Time.shownSecond, Time.isLeapSecond, later, hour, second, whole]
  next =>
    have below : time.nano % 1000000000 = time.nano := by omega
    have other : time.second ≠ 60 := by omega
    simp [clockOf, Time.shownSecond, Time.isLeapSecond, later, hour, other, below]

theorem known_time {reading : Reading} (proper : reading.Proper) (enough : DetermineTime slots) :
    (known reading slots).time = .ok reading.time := by
  have stated : (known reading slots).fieldClock =
      .ok (some ⟨reading.time.hour, reading.time.minute, reading.time.second,
        reading.time.nano⟩) := by
    simp [fieldClock, get_known enough.half, get_known enough.hourOfHalf,
      get_known enough.minute, get_known enough.second, get_known enough.nanosecond,
      Reading.stated, clockOf_shown proper]
  have clock : (known reading slots).clock = .ok ⟨reading.time.hour, reading.time.minute,
      reading.time.second, reading.time.nano⟩ := by
    simp [clock, stated, ofIssue, Except.mapError, get_known_of_not_mem enough.timestamp]
  simp [time, clock, Time.ofClock_fields]

theorem known_reading {reading : Reading} (proper : reading.Proper)
    (enoughDate : DetermineDate slots) (enoughTime : DetermineTime slots) :
    (known reading slots).reading = .ok reading := by
  simp [Fields.reading, known_date reading enoughDate, known_time proper enoughTime]

end

end Fields

end ZonedTime
