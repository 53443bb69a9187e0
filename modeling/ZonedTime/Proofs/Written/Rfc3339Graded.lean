import ZonedTime.Proofs.Written.Rfc3339Words

set_option autoImplicit false

namespace ZonedTime

theorem Offset.eq_of_seconds_eq {a b : Offset} (same : a.seconds = b.seconds) : a = b := by
  cases a
  cases b
  cases same
  rfl

theorem Stamp.foldLeapSecond_eq (stamp : Stamp) :
    stamp.foldLeapSecond =
      { stamp with
        second := (Time.ofShownSecond stamp.second stamp.nano).1
        nano := (Time.ofShownSecond stamp.second stamp.nano).2 } := by
  unfold foldLeapSecond Time.ofShownSecond
  split <;> rfl

end ZonedTime

namespace ZonedTime.Rfc3339

open Calendar
open Text (isAscii)

namespace Word

variable (word : Word)

/-- What is written on the line of seconds in UTC, second 60 at the place of second 59. -/
def utcSecond : Int :=
  (dayNumber word.year.value word.month.value word.day.value - epochDay) * secondsPerDay
    + (3600 * word.hour.value + 60 * word.minute.value + min word.second.value 59)
    - word.suffix.seconds

structure Possible : Prop where
  date : IsDate word.year.value word.month.value word.day.value
  hour : word.hour.value ≤ 23
  minute : word.minute.value ≤ 59
  second : word.second.value ≤ 60
  offsetMinutes : word.suffix.minutes ≤ 59
  withinDay : word.suffix.seconds.natAbs < 86400
  inRange : Reading.first.epochSecond ≤ word.utcSecond
    ∧ word.utcSecond ≤ Reading.last.epochSecond

structure Denotes (instant : Instant) : Prop where
  fields : instant.wall.fields =
    { year := word.year.value
      month := word.month.value
      day := word.day.value
      hour := word.hour.value
      minute := word.minute.value
      second := (Time.ofShownSecond word.second.value word.fraction.nanos).1
      nano := (Time.ofShownSecond word.second.value word.fraction.nanos).2 }
  offset : instant.offset.seconds = word.suffix.seconds
  zone : instant.zone = .fixed instant.offset
  coherent : instant.Coherent

variable {word}

theorem Denotes.unique {a b : Instant} (first : word.Denotes a) (second : word.Denotes b) :
    a = b := by
  have wall : a.wall = b.wall := by
    have read := Reading.ofClock_fields a.wall
    rw [first.fields, ← second.fields, Reading.ofClock_fields] at read
    exact (Except.ok.inj read).symm
  have offset : a.offset = b.offset :=
    Offset.eq_of_seconds_eq (first.offset.trans second.offset.symm)
  have utc : a.utc = b.utc := by
    have place := first.coherent
    have other := second.coherent
    unfold Instant.Coherent at place other
    rw [wall, offset] at place
    exact Reading.eq_of_epochSecond_eq (by omega) (place.2.symm.trans other.2)
  have zone : a.zone = b.zone := by rw [first.zone, second.zone, offset]
  cases a
  cases b
  simp_all

theorem stamp_natural (word : Word) (offset : Int) : (word.stamp offset).Natural where
  hour := Int.natCast_nonneg _
  minute := Int.natCast_nonneg _
  second := Int.natCast_nonneg _
  nano := by
    change IsFraction word.fraction.nanos
    rw [← word.fraction.nanosOfDigits_digits]
    exact Scan.nanosOfDigits_bounds word.fraction.numeral word.fraction.short

def stated (word : Word) : Stamp := word.stamp word.suffix.seconds

theorem sound (inRange : word.stated.InRange) : word.stated.foldLeapSecond.Sound :=
  (word.stamp_natural _).fold_sound inRange

theorem wall_fields (sound : word.stated.foldLeapSecond.Sound) :
    sound.wall.fields =
      { year := word.year.value
        month := word.month.value
        day := word.day.value
        hour := word.hour.value
        minute := word.minute.value
        second := (Time.ofShownSecond word.second.value word.fraction.nanos).1
        nano := (Time.ofShownSecond word.second.value word.fraction.nanos).2 } := by
  simp only [Stamp.Sound.wall, Reading.fields, Stamp.foldLeapSecond_eq]
  rfl

theorem wall_epochSecond (inRange : word.stated.InRange) :
    (sound inRange).wall.epochSecond = word.utcSecond + word.suffix.seconds := by
  obtain ⟨-, -, -, last, -⟩ := inRange
  change word.second.value ≤ 60 at last
  simp only [Reading.epochSecond, Date.epochSecond, Date.dayNumber, Time.secondOfDay,
    Stamp.Sound.wall, Stamp.foldLeapSecond_eq, Time.ofShownSecond, utcSecond, stated, stamp]
  split <;> simp only <;> omega

def placed (word : Word) (t : Text) : Except Error Instant := do
  (<- word.stated.checkFor t).toInstant t

theorem placed_eq (inRange : word.stated.InRange) (t : Text) :
    word.placed t =
      match Instant.ofWall? (sound inRange).wall (sound inRange).shift
        (.fixed (sound inRange).shift) with
      | some instant => .ok instant
      | none => .error (.issue .outOfRange (some t)) := by
  rw [placed, Stamp.checkFor, Stamp.check, if_pos inRange]
  exact (sound inRange).toInstant_eq t

theorem shift_seconds (sound : word.stated.foldLeapSecond.Sound) :
    sound.shift.seconds = word.suffix.seconds := by
  simp only [Stamp.Sound.shift, Stamp.foldLeapSecond_eq]
  rfl

theorem placed_of_possible (possible : word.Possible) (t : Text) :
    ∃ instant, word.Denotes instant ∧ word.placed t = .ok instant := by
  obtain ⟨date, hour, minute, second, -, withinDay, first, last⟩ := possible
  have inRange : word.stated.InRange :=
    ⟨date, Int.lt_add_one_of_le hour, Int.lt_add_one_of_le minute, second, withinDay⟩
  have place := wall_epochSecond inRange
  rw [placed_eq inRange]
  cases made : Instant.ofWall? (sound inRange).wall (sound inRange).shift
    (.fixed (sound inRange).shift) with
  | some instant =>
    refine ⟨instant, ?_, rfl⟩
    have coherent := Instant.ofWall?_coherent made
    obtain ⟨utc, -, rfl⟩ := Option.map_eq_some_iff.mp made
    exact ⟨wall_fields (sound inRange), shift_seconds (sound inRange), rfl, coherent⟩
  | none =>
    have outside := Reading.shift?_eq_none.mp (Option.map_eq_none_iff.mp made)
    rw [shift_seconds] at outside
    omega

theorem placed_of_impossible (inHour : word.suffix.minutes ≤ 59) (impossible : ¬ word.Possible)
    (t : Text) : word.placed t = .error (.issue .outOfRange (some t)) := by
  by_cases inRange : word.stated.InRange
  next =>
    rw [placed_eq inRange]
    cases made : Instant.ofWall? (sound inRange).wall (sound inRange).shift
      (.fixed (sound inRange).shift) with
    | none => rfl
    | some instant =>
      have coherent := Instant.ofWall?_coherent made
      obtain ⟨utc, -, rfl⟩ := Option.map_eq_some_iff.mp made
      have place := wall_epochSecond inRange
      have bounds := utc.epochSecond_bounds
      obtain ⟨second, -⟩ := coherent
      simp only [shift_seconds] at second
      obtain ⟨date, hour, minute, second', withinDay⟩ := inRange
      exact absurd ⟨date, Int.le_of_lt_add_one hour, Int.le_of_lt_add_one minute, second', inHour,
        withinDay, by omega⟩ impossible
  next =>
    rw [placed, Stamp.checkFor, Stamp.check, if_neg inRange]
    rfl

end Word

/-- What is said of a text. -/
inductive Verdict (t : Text) : Except Error Instant -> Prop where
  | accepted {instant : Instant} (word : Word) (whole : word.text = t) (possible : word.Possible)
    (denotes : word.Denotes instant) : Verdict t (.ok instant)
  | tooShort (word : Word) {more : Text} (begun : word.text = t ++ more) (left : more ≠ []) :
    Verdict t (.error (.issue .tooShort (some t)))
  | tooLong (word : Word) {rest : Text} (begins : t = word.text ++ rest) (further : rest ≠ [])
    (inHour : word.suffix.minutes ≤ 59) : Verdict t (.error (.issue .tooLong (some t)))
  | impossible (word : Word) (whole : word.text = t) (impossible : ¬ word.Possible) :
    Verdict t (.error (.issue .outOfRange (some t)))
  | pastHour (word : Word) {rest : Text} (begins : t = word.text ++ rest) (further : rest ≠ [])
    (pastHour : 59 < word.suffix.minutes) : Verdict t (.error (.issue .outOfRange (some t)))
  | invalid (neither : ∀ (word : Word) (more : Text),
    word.text ≠ t ++ more ∧ t ≠ word.text ++ more) : Verdict t (.error (.issue .invalid (some t)))

theorem scan_of_fails {t : Text} (ascii : isAscii t = true) {issue : Issue}
    (failed : shape.run t = .error issue) : scan t = .error issue := by
  unfold scan
  rw [ascii, failed]
  rfl

theorem scan_of_word (word : Word) (rest : Text) (ascii : isAscii (word.text ++ rest) = true) :
    scan (word.text ++ rest) =
      if 59 < word.suffix.minutes then .error .outOfRange
      else if rest ≠ [] then .error .tooLong
      else word.stated.check := by
  have read := shape_recognises.reads ⟨word, rfl, rfl⟩ rest
  unfold scan
  rw [ascii, read]
  by_cases past : 59 < word.suffix.minutes
  next =>
    have past' : 59 < word.suffix.parts.2.2 := past
    simp only [Bool.not_true, ok_bind, if_pos past, if_pos past']
    rfl
  next =>
    have past' : ¬ 59 < word.suffix.parts.2.2 := past
    simp only [Bool.not_true, ok_bind, if_neg past, if_neg past']
    cases rest with
    | nil => rfl
    | cons c rest => rfl

theorem scan_of_whole (word : Word) (ascii : isAscii word.text = true) :
    scan word.text =
      if 59 < word.suffix.minutes then .error .outOfRange else word.stated.check := by
  simpa using scan_of_word word [] (by rwa [List.append_nil])

theorem parse_of_scan {t : Text} {issue : Issue} (failed : scan t = .error issue) :
    Instant.parseRfc3339 t = .error (.issue issue (some t)) := by
  unfold Instant.parseRfc3339 parse
  rw [failed]
  rfl

theorem parse_of_word (word : Word) (ascii : isAscii word.text = true)
    (inHour : word.suffix.minutes ≤ 59) :
    Instant.parseRfc3339 word.text = word.placed word.text := by
  unfold Instant.parseRfc3339 parse
  rw [scan_of_whole word ascii, if_neg (by omega)]
  rfl

theorem verdict_sound {t : Text} (ascii : isAscii t = true) {outcome : Except Error Instant}
    (verdict : Verdict t outcome) : Instant.parseRfc3339 t = outcome := by
  cases verdict with
  | accepted word whole possible denotes =>
    subst whole
    obtain ⟨instant, same, placed⟩ := Word.placed_of_possible possible word.text
    rw [parse_of_word word ascii possible.offsetMinutes, placed, same.unique denotes]
  | tooShort word begun left =>
    exact parse_of_scan (scan_of_fails ascii
      (shape_recognises.tooShort_of_begun ⟨word, rfl, rfl⟩ begun left))
  | tooLong word begins further inHour =>
    subst begins
    exact parse_of_scan (by rw [scan_of_word word _ ascii, if_neg (by omega), if_pos further])
  | impossible word whole impossible =>
    subst whole
    by_cases inHour : word.suffix.minutes ≤ 59
    next =>
      rw [parse_of_word word ascii inHour, Word.placed_of_impossible inHour impossible]
    next => exact parse_of_scan (by rw [scan_of_whole word ascii, if_pos (by omega)])
  | pastHour word begins further past =>
    subst begins
    exact parse_of_scan (by rw [scan_of_word word _ ascii, if_pos past])
  | invalid neither =>
    refine parse_of_scan (scan_of_fails ascii (shape_recognises.invalid_of_neither ?_))
    rintro _ _ more ⟨word, rfl, -⟩
    exact neither word more

theorem exists_verdict (t : Text) : ∃ outcome, Verdict t outcome := by
  rcases words_cases (Listed Word.text fun _ => ()) t with
    ⟨_, _, rest, ⟨word, rfl, -⟩, rfl⟩ | ⟨_, _, more, ⟨word, rfl, -⟩, left, begun⟩ | neither
  next =>
    rcases eq_or_ne rest [] with rfl | further
    next =>
      by_cases possible : word.Possible
      next =>
        obtain ⟨instant, denotes, -⟩ := Word.placed_of_possible possible word.text
        exact ⟨_, .accepted word (List.append_nil _).symm possible denotes⟩
      next => exact ⟨_, .impossible word (List.append_nil _).symm possible⟩
    next =>
      by_cases inHour : word.suffix.minutes ≤ 59
      next => exact ⟨_, .tooLong word rfl further inHour⟩
      next => exact ⟨_, .pastHour word rfl further (by omega)⟩
  next => exact ⟨_, .tooShort word begun left⟩
  next => exact ⟨_, .invalid fun word more => neither _ () more ⟨word, rfl, rfl⟩⟩

end ZonedTime.Rfc3339

namespace ZonedTime

open Rfc3339 (Word Verdict)

theorem Instant.parseRfc3339_eq_iff {t : Text} (ascii : Text.isAscii t = true) :
    (∀ word : Word, word.text = t → word.Possible → ∃ instant, parseRfc3339 t = .ok instant)
      ∧ ∀ outcome, parseRfc3339 t = outcome ↔ Verdict t outcome := by
  constructor
  next =>
    rintro word rfl possible
    obtain ⟨instant, denotes, -⟩ := Word.placed_of_possible possible word.text
    exact ⟨instant, Rfc3339.verdict_sound ascii (.accepted word rfl possible denotes)⟩
  next =>
    intro outcome
    constructor
    next =>
      rintro rfl
      obtain ⟨outcome, verdict⟩ := Rfc3339.exists_verdict t
      rwa [Rfc3339.verdict_sound ascii verdict]
    next => exact Rfc3339.verdict_sound ascii

/-- `2016-12-31T23:59:60Z` -/
def Rfc3339.endOf2016 : Word where
  year := ⟨['2', '0', '1', '6'], rfl, rfl⟩
  month := ⟨['1', '2'], rfl, rfl⟩
  day := ⟨['3', '1'], rfl, rfl⟩
  separator := 'T'
  separates := .inl rfl
  hour := ⟨['2', '3'], rfl, rfl⟩
  minute := ⟨['5', '9'], rfl, rfl⟩
  second := ⟨['6', '0'], rfl, rfl⟩
  fraction := ⟨[], rfl, by decide⟩
  suffix := .letter 'Z' (.inl rfl)

theorem Instant.parseRfc3339_endOf2016 :
    (∃ instant, parseRfc3339 (Text.ofString "2016-12-31T23:59:60Z") = .ok instant)
      ∧ parseRfc3339 (Text.ofString "2016-12-31T23:59:6") =
        .error (.issue .tooShort (some (Text.ofString "2016-12-31T23:59:6")))
      ∧ parseRfc3339 (Text.ofString "2016-12-31T23:59:60Z ") =
        .error (.issue .tooLong (some (Text.ofString "2016-12-31T23:59:60Z "))) := by
  refine ⟨?_, ?_, ?_⟩
  next =>
    exact (parseRfc3339_eq_iff (by decide)).1 Rfc3339.endOf2016 rfl
      ⟨by decide, by decide, by decide, by decide, by decide, by decide, by decide⟩
  next =>
    exact ((parseRfc3339_eq_iff (by decide)).2 _).mpr
      (.tooShort Rfc3339.endOf2016 (show _ = _ ++ ['0', 'Z'] from rfl) (by decide))
  next =>
    exact ((parseRfc3339_eq_iff (by decide)).2 _).mpr
      (.tooLong Rfc3339.endOf2016 (show _ = _ ++ [' '] from rfl) (by decide) (by decide))

end ZonedTime
