import ZonedTime.Proofs.Pattern.Known

set_option autoImplicit false

namespace ZonedTime.Fields

def Fits (fields : Fields) (date : Date) (slot : Slot) : Prop :=
  ∀ stated ∈ fields.get slot, stated = (date.at .midnight).stated slot

def YearFits (fields : Fields) (date : Date) : Prop :=
  fields.Fits date .century ∧ fields.Fits date .yearOfCentury

/-- Without the ISO year itself, the year that its parts mean has to be the ISO year. A century
alone means no year, and a year of the century alone is one of 1970 to 2069. -/
def IsoYearFits (fields : Fields) (date : Date) : Prop :=
  match fields.get .isoYear, fields.get .isoCentury, fields.get .isoYearOfCentury with
  | some _, _, _ =>
    fields.Fits date .isoYear ∧ fields.Fits date .isoCentury ∧ fields.Fits date .isoYearOfCentury
  | none, some century, some rest => century * 100 + rest = date.isoYear
  | none, none, some rest => rest + (if rest < 70 then 2000 else 1900) = date.isoYear
  | none, some _, none => False
  | none, none, none => True

structure Confirms (fields : Fields) (date : Date) : Prop where
  year : fields.YearFits date
  isoYear : fields.IsoYearFits date
  isoWeek : fields.Fits date .isoWeek
  weekday : fields.Fits date .weekday
  yearDay : fields.Fits date .yearDay

structure OnlyIsoCentury (fields : Fields) : Prop where
  isoYear : fields.get .isoYear = none
  isoCentury : fields.get .isoCentury ≠ none
  isoYearOfCentury : fields.get .isoYearOfCentury = none

theorem agrees_iff {part : Option Int} {value : Int} :
    agrees part value = true ↔ ∀ stated ∈ part, stated = value := by
  cases part <;> simp [agrees]

section

variable {fields : Fields} {date : Date}

theorem agrees_iff_fits {slot : Slot} :
    agrees (fields.get slot) ((date.at .midnight).stated slot) = true ↔ fields.Fits date slot :=
  agrees_iff

theorem yearFits_iff :
    (agrees (fields.get .century) (date.year / 100)
        && agrees (fields.get .yearOfCentury) (date.year % 100)) = true ↔
      fields.YearFits date := by
  rw [Bool.and_eq_true]
  exact and_congr agrees_iff_fits agrees_iff_fits

theorem isoYear_fits :
    fields.IsoYearFits date ↔
      ∃ found, fields.isoYear = .ok found ∧ agrees found date.isoYear = true := by
  unfold IsoYearFits isoYear resolveYear
  cases stated : fields.get .isoYear with
  | some year =>
    -- The parts are held against the year that is stated, not against the one of the date.
    have self (value : Int) : agrees (some year) value = true ↔ year = value := beq_iff_eq
    simp only [← agrees_iff_fits, stated, Reading.stated, Date.at, self]
    by_cases parts : (agrees (fields.get .isoCentury) (year / 100)
        && agrees (fields.get .isoYearOfCentury) (year % 100)) = true
    next =>
      simp only [parts, if_true, Except.ok.injEq, exists_eq_left', self]
      rw [Bool.and_eq_true] at parts
      constructor
      next => exact And.left
      next =>
        rintro rfl
        exact ⟨rfl, parts⟩
    next =>
      simp only [parts, if_false, reduceCtorEq, false_and, exists_false, iff_false]
      rintro ⟨rfl, both⟩
      exact parts ((Bool.and_eq_true _ _).mpr both)
  | none =>
    cases fields.get .isoCentury <;> cases fields.get .isoYearOfCentury <;> simp [agrees]

theorem isoYear_notEnough :
    fields.isoYear = .error .notEnough ↔ fields.OnlyIsoCentury := by
  have parts : fields.OnlyIsoCentury ↔ fields.get .isoYear = none
      ∧ fields.get .isoCentury ≠ none ∧ fields.get .isoYearOfCentury = none :=
    ⟨fun ⟨isoYear, century, rest⟩ => ⟨isoYear, century, rest⟩,
      fun ⟨isoYear, century, rest⟩ => ⟨isoYear, century, rest⟩⟩
  rw [parts]
  unfold isoYear resolveYear
  cases fields.get .isoYear with
  | some year =>
    simp only
    split <;> simp
  | none => cases fields.get .isoCentury <;> cases fields.get .isoYearOfCentury <;> simp

theorem isoYear_error {cause : Issue} (failed : fields.isoYear = .error cause) :
    cause = .notEnough ∨ cause = .impossible := by
  unfold isoYear resolveYear at failed
  split at failed
  next =>
    split at failed <;> cases failed
    exact .inr rfl
  all_goals cases failed
  exact .inl rfl

theorem matchesDate_iff {isoYear : Option Int} :
    fields.matchesDate (some date.year) isoYear date = true ↔
      agrees isoYear date.isoYear = true ∧ fields.Fits date .isoWeek ∧ fields.Fits date .weekday
        ∧ fields.Fits date .yearDay := by
  -- What the date was built from agrees with itself.
  have year : agrees (some date.year) date.year = true := beq_self_eq_true _
  simp only [← agrees_iff_fits, Reading.stated, Date.at]
  simp only [matchesDate, year, Bool.and_eq_true]
  tauto

variable (noStamp : fields.get .timestamp = none) (year : fields.get .year = some date.year)
  (month : fields.get .month = some date.month) (day : fields.get .day = some date.day)

include year in
theorem year_eq :
    fields.year = if agrees (fields.get .century) (date.year / 100)
        && agrees (fields.get .yearOfCentury) (date.year % 100) then .ok (some date.year)
      else .error .impossible := by
  simp [Fields.year, resolveYear, year]

include noStamp year month day

theorem date_of_yearFits (fits : fields.YearFits date) :
    fields.date = (do
      let isoYear <- ofIssue fields.isoYear
      if fields.matchesDate (some date.year) isoYear date then .ok date
      else issue .impossible) := by
  have stated := year_eq year
  rw [if_pos (yearFits_iff.mpr fits)] at stated
  cases isoYear : fields.isoYear with
  | error cause => simp [Fields.date, fieldDate, stated, isoYear, ofIssue, Except.mapError]
  | ok found =>
    have built : fields.builtDate (some date.year) found = .ok (some date) := by
      simp [builtDate, month, day, dateOfYmd_date]
    simp only [Fields.date, fieldDate, stated, isoYear, built, noStamp, ofIssue, Except.mapError,
      ok_bind]
    split
    next => rfl
    next => rfl

theorem date_of_confirms (confirms : fields.Confirms date) : fields.date = .ok date := by
  obtain ⟨fits, isoYear, isoWeek, weekday, yearDay⟩ := confirms
  obtain ⟨found, made, agreed⟩ := isoYear_fits.mp isoYear
  have matched := matchesDate_iff.mpr ⟨agreed, isoWeek, weekday, yearDay⟩
  simp [date_of_yearFits noStamp year month day fits, made, matched, ofIssue, Except.mapError]

theorem date_of_onlyIsoCentury (fits : fields.YearFits date) (only : fields.OnlyIsoCentury) :
    fields.date = .error (.issue .notEnough none) := by
  have undecided := isoYear_notEnough.mpr only
  simp [date_of_yearFits noStamp year month day fits, undecided, ofIssue, Except.mapError]

theorem date_of_conflict (conflict : ¬ fields.Confirms date)
    (decided : ¬ (fields.YearFits date ∧ fields.OnlyIsoCentury)) :
    fields.date = .error (.issue .impossible none) := by
  -- The parts of the year are looked at before those of the ISO year: a conflict there comes first.
  by_cases fits : fields.YearFits date
  next =>
    rw [date_of_yearFits noStamp year month day fits]
    cases made : fields.isoYear with
    | error cause =>
      rcases isoYear_error made with rfl | rfl
      next => exact absurd ⟨fits, isoYear_notEnough.mp made⟩ decided
      next => rfl
    | ok found =>
      have unmatched : ¬ fields.matchesDate (some date.year) found date = true := by
        intro matched
        obtain ⟨agreed, isoWeek, weekday, yearDay⟩ := matchesDate_iff.mp matched
        exact conflict ⟨fits, isoYear_fits.mpr ⟨found, made, agreed⟩, isoWeek, weekday, yearDay⟩
      simp [unmatched, ofIssue, Except.mapError, issue]
  next =>
    have refused := year_eq year
    rw [if_neg (mt yearFits_iff.mp fits)] at refused
    simp [Fields.date, fieldDate, refused, ofIssue, Except.mapError]

/-- A date stated by year, month and day is found if all that is stated besides fits, and refused
if not. The weeks counted from Sundays and from Mondays are never looked at; that they fit is
supposed so that nothing is promised of a date with a wrong week. -/
theorem date_confirmed :
    (fields.Fits date .weekFromSunday → fields.Fits date .weekFromMonday →
        (fields.date = .ok date ↔ fields.Confirms date))
      ∧ (fields.YearFits date ∧ fields.OnlyIsoCentury →
        fields.date = .error (.issue .notEnough none))
      ∧ (¬ fields.Confirms date → ¬ (fields.YearFits date ∧ fields.OnlyIsoCentury) →
        fields.date = .error (.issue .impossible none)) := by
  have undecided (both : fields.YearFits date ∧ fields.OnlyIsoCentury) :=
    date_of_onlyIsoCentury noStamp year month day both.1 both.2
  have conflicting := date_of_conflict noStamp year month day
  refine ⟨fun _ _ => ⟨fun found => ?_, date_of_confirms noStamp year month day⟩, undecided,
    conflicting⟩
  by_contra conflict
  by_cases both : fields.YearFits date ∧ fields.OnlyIsoCentury
  next =>
    rw [undecided both] at found
    cases found
  next =>
    rw [conflicting conflict both] at found
    cases found

end

def yearEnd : Date := ⟨2024, 12, 30, by decide⟩

def yearEndFields : Fields :=
  known (yearEnd.at .midnight) [.year, .month, .day, .century, .yearOfCentury, .isoCentury,
    .isoYearOfCentury, .isoWeek, .weekday, .yearDay, .weekFromSunday, .weekFromMonday]

theorem fits_known (reading : Reading) (slots : List Slot) (slot : Slot) :
    ∀ stated ∈ (known reading slots).get slot, stated = reading.stated slot :=
  agrees_iff.mp (agrees_known reading slots slot)

theorem date_confirmed_yearEnd :
    yearEndFields.date = .ok yearEnd
      ∧ (yearEndFields.put .isoWeek 53).date = .error (.issue .impossible none) := by
  have fits (slot : Slot) : yearEndFields.Fits yearEnd slot := fits_known _ _ slot
  have confirms : yearEndFields.Confirms yearEnd :=
    ⟨⟨fits _, fits _⟩, show 20 * 100 + 25 = (2025 : Int) by decide, fits _, fits _, fits _⟩
  have conflict : ¬ (yearEndFields.put .isoWeek 53).Confirms yearEnd := fun confirms =>
    absurd (confirms.isoWeek 53 rfl) (by decide)
  have decided : ¬ (yearEndFields.put .isoWeek 53).OnlyIsoCentury := fun only =>
    absurd only.isoYearOfCentury (by decide)
  exact ⟨((date_confirmed rfl rfl rfl rfl).1 (fits _) (fits _)).mpr confirms,
    (date_confirmed rfl rfl rfl rfl).2.2 conflict fun both => decided both.2⟩

/-- Parts of the ISO year that have their values at the date can be of no use or be taken for
another year, and others can mean its ISO year together. -/
theorem date_unconfirmed :
    let century := known (yearEnd.at .midnight) [.year, .month, .day, .isoCentury]
    let guessed := known (Date.at ⟨1950, 7, 1, by decide⟩ .midnight)
      [.year, .month, .day, .isoYearOfCentury]
    let other := ((known (yearEnd.at .midnight) [.year, .month, .day]).put .isoCentury 19).put
      .isoYearOfCentury 125
    ((∀ slot, century.Fits yearEnd slot) ∧ century.date = .error (.issue .notEnough none))
      ∧ ((∀ slot, guessed.Fits ⟨1950, 7, 1, by decide⟩ slot)
        ∧ guessed.date = .error (.issue .impossible none))
      ∧ (¬ other.Fits yearEnd .isoCentury ∧ other.date = .ok yearEnd) :=
  ⟨⟨fits_known _ _, rfl⟩, ⟨fits_known _ _, rfl⟩,
    fun fits => absurd (fits 19 rfl) (by decide), rfl⟩

end ZonedTime.Fields
