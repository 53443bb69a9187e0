import ZonedTime.Proofs.Written.Rfc3339Words

set_option autoImplicit false

namespace ZonedTime

open Text (ofString two four padded isDigits)

namespace Date

theorem reads_text (date : Date) (rest : Text) :
    Reads scanIso (date.text ++ rest) (date.year, date.month, date.day) rest := by
  obtain ⟨firstYear, lastYear, firstMonth, lastMonth, firstDay, -⟩ := date.real
  have lastDay := date.day_le
  unfold text scanIso
  simp only [List.append_assoc, List.cons_append, List.nil_append]
  exact (Scan.reads_four (by omega) (by omega) _).bind ((Scan.reads_char '-' _).bind
    ((Scan.reads_two (by omega) (by omega) _).bind ((Scan.reads_char '-' _).bind
      (Scan.reads_two (by omega) (by omega) _).andThen)))

theorem text_of_scanIso {t rest : Text} {date : Date}
    (read : Reads scanIso t (date.year, date.month, date.day) rest) :
    t = date.text ++ rest := by
  obtain ⟨_, _, yearRead, fromDash⟩ := Reads.of_bind read
  obtain ⟨_, _, firstDash, fromMonth⟩ := Reads.of_bind fromDash
  obtain ⟨_, _, monthRead, fromSecondDash⟩ := Reads.of_bind fromMonth
  obtain ⟨_, _, secondDash, fromDay⟩ := Reads.of_bind fromSecondDash
  obtain ⟨_, _, dayRead, ended⟩ := Reads.of_bind fromDay
  cases ended
  obtain ⟨year, sameYear, rfl⟩ := Scan.number_takes yearRead
  cases Scan.char_takes firstDash
  obtain ⟨month, sameMonth, rfl⟩ := Scan.number_takes monthRead
  cases Scan.char_takes secondDash
  obtain ⟨day, sameDay, rfl⟩ := Scan.number_takes dayRead
  rw [year.digits_eq (by decide), month.digits_eq (by decide), day.digits_eq (by decide),
    sameYear, sameMonth, sameDay]
  simp [text, four, two]

theorem parseIso?_eq_some {t : Text} {date : Date} : parseIso? t = some date ↔ t = date.text := by
  constructor
  next =>
    intro parsed
    unfold parseIso? at parsed
    split at parsed
    next year month day read =>
      obtain ⟨rfl, rfl, rfl⟩ := ofYmd?_eq_some.mp parsed
      simpa using text_of_scanIso read
    next => cases parsed
  next =>
    rintro rfl
    have read := date.reads_text []
    rw [List.append_nil] at read
    unfold Reads at read
    rw [parseIso?, read]
    exact ofYmd?_eq_some.mpr ⟨rfl, rfl, rfl⟩

theorem text_length (date : Date) : date.text.length = 10 := by
  obtain ⟨firstYear, lastYear, firstMonth, lastMonth, firstDay, -⟩ := date.real
  have lastDay := date.day_le
  have year : (four date.year).length = 4 := Text.padded_length (by decide) (by omega)
  have month : (two date.month).length = 2 := Text.padded_length (by decide) (by omega)
  have day : (two date.day).length = 2 := Text.padded_length (by decide) (by omega)
  simp [text, year, month, day]

end Date

namespace Time

structure Word where
  hour : Numeral 2
  minute : Numeral 2
  second : Numeral 2
  fraction : Rfc3339.Fraction

namespace Word

def text (word : Word) : Text :=
  word.hour.digits ++ ':' :: (word.minute.digits ++ ':' :: (word.second.digits ++
    word.fraction.text))

structure Denotes (word : Word) (time : Time) : Prop where
  hour : time.hour = word.hour.value
  minute : time.minute = word.minute.value
  second : time.shownSecond = word.second.value
  nano : time.nano % 1000000000 = word.fraction.nanos
  proper : time.Proper

end Word

theorem reads_scanFraction (f : Rfc3339.Fraction) :
    Reads scanFraction f.text f.nanos [] := by
  have read : Reads scanFraction (f.text ++ []) f.nanos [] := by
    refine f.reads_by (by rintro c ⟨⟩) fun some _ => ?_
    rw [← f.nanosOfDigits_digits]
    exact (Scan.reads_digits f.numeral some f.short (.inr noDigit_nil)).andThen
  rwa [List.append_nil] at read

theorem scanFraction_takes {t : Text} {nano : Int} (read : Reads scanFraction t nano []) :
    ∃ f : Rfc3339.Fraction, f.text = t ∧ f.nanos = nano := by
  obtain ⟨point, after, skipped, chosen⟩ := Reads.of_bind read
  rcases Scan.optional_takes skipped with ⟨rfl, rfl⟩ | ⟨rfl, rfl⟩
  next =>
    obtain ⟨run, _, digits, ended⟩ := Reads.of_bind chosen
    cases ended
    obtain ⟨numeral, some, short, rfl⟩ := Scan.digits_takes digits
    have other : run ≠ [] := List.length_pos_iff.mp some
    refine ⟨⟨run, numeral, short⟩, ?_, (Rfc3339.Fraction.nanosOfDigits_digits _).symm⟩
    simp [Rfc3339.Fraction.text, other]
  next =>
    cases chosen
    exact ⟨⟨[], rfl, Nat.zero_le 9⟩, rfl, rfl⟩

theorem reads_scanIso (word : Word) :
    Reads scanIso word.text
      (word.hour.value, word.minute.value, word.second.value, word.fraction.nanos) [] := by
  have number (n : Numeral 2) (rest : Text) :
      Reads (Scan.number 2) (n.digits ++ rest) n.value rest :=
    (Scan.number_recognises 2).reads ⟨n, rfl, rfl⟩ rest
  exact (number _ _).bind ((Scan.reads_char ':' _).bind ((number _ _).bind
    ((Scan.reads_char ':' _).bind ((number _ _).bind (reads_scanFraction _).andThen))))

theorem scanIso_takes {t : Text} {fields : Int × Int × Int × Int}
    (read : Reads scanIso t fields []) :
    ∃ word : Word, t = word.text ∧ fields =
      (word.hour.value, word.minute.value, word.second.value, word.fraction.nanos) := by
  obtain ⟨_, _, hourRead, fromColon⟩ := Reads.of_bind read
  obtain ⟨_, _, firstColon, fromMinute⟩ := Reads.of_bind fromColon
  obtain ⟨_, _, minuteRead, fromSecondColon⟩ := Reads.of_bind fromMinute
  obtain ⟨_, _, secondColon, fromSecond⟩ := Reads.of_bind fromSecondColon
  obtain ⟨_, _, secondRead, fromFraction⟩ := Reads.of_bind fromSecond
  obtain ⟨_, _, fractionRead, ended⟩ := Reads.of_bind fromFraction
  cases ended
  obtain ⟨hour, rfl, rfl⟩ := Scan.number_takes hourRead
  cases Scan.char_takes firstColon
  obtain ⟨minute, rfl, rfl⟩ := Scan.number_takes minuteRead
  cases Scan.char_takes secondColon
  obtain ⟨second, rfl, rfl⟩ := Scan.number_takes secondRead
  obtain ⟨fraction, rfl, rfl⟩ := scanFraction_takes fractionRead
  exact ⟨⟨hour, minute, second, fraction⟩, rfl, rfl⟩

theorem ofShownSecond_iff {time : Time} (proper : time.Proper) {second nano : Int}
    (first : 0 ≤ nano) (last : nano < 1000000000) :
    time.shownSecond = second ∧ time.nano % 1000000000 = nano ↔
      time.second = (ofShownSecond second nano).1 ∧ time.nano = (ofShownSecond second nano).2 := by
  obtain ⟨firstNano, lastNano, leap⟩ := proper
  obtain ⟨-, -, -, -, firstSecond, lastSecond⟩ := time.inDay
  unfold shownSecond ofShownSecond
  simp only [isLeapSecond_iff]
  by_cases leapSecond : 1000000000 ≤ time.nano
  next =>
    have late := leap leapSecond
    rw [if_pos leapSecond]
    split <;> omega
  next =>
    rw [if_neg leapSecond]
    split <;> omega

theorem Word.denotes_iff {word : Word} {time : Time} :
    word.Denotes time ↔
      ofFields word.hour.value word.minute.value
        (ofShownSecond word.second.value word.fraction.nanos).1
        (ofShownSecond word.second.value word.fraction.nanos).2 = .ok time := by
  obtain ⟨first, last⟩ :=
    Scan.nanosOfDigits_bounds word.fraction.numeral word.fraction.short
  rw [word.fraction.nanosOfDigits_digits] at first last
  rw [ofFields_eq_ok, ofClock_eq_ok]
  constructor
  next =>
    rintro ⟨hour, minute, second, nano, proper⟩
    exact ⟨⟨hour, minute, (ofShownSecond_iff proper first last).mp ⟨second, nano⟩⟩, proper⟩
  next =>
    rintro ⟨⟨hour, minute, shown⟩, proper⟩
    obtain ⟨second, nano⟩ := (ofShownSecond_iff proper first last).mpr shown
    exact ⟨hour, minute, second, nano, proper⟩

theorem parseIso?_eq_some {t : Text} {time : Time} :
    parseIso? t = some time ↔ ∃ word : Word, t = word.text ∧ word.Denotes time := by
  constructor
  next =>
    intro parsed
    unfold parseIso? at parsed
    split at parsed
    next hour minute second nano read =>
      obtain ⟨word, rfl, same⟩ := scanIso_takes read
      cases same
      refine ⟨word, rfl, Word.denotes_iff.mpr ?_⟩
      simp only at parsed
      cases made : ofFields word.hour.value word.minute.value
          (ofShownSecond word.second.value word.fraction.nanos).1
          (ofShownSecond word.second.value word.fraction.nanos).2 with
      | error error =>
        rw [made] at parsed
        cases parsed
      | ok found =>
        rw [made] at parsed
        cases parsed
        rfl
    next => cases parsed
  next =>
    rintro ⟨word, rfl, denotes⟩
    have read := reads_scanIso word
    unfold Reads at read
    rw [parseIso?, read]
    simp only
    rw [Word.denotes_iff.mp denotes]
    rfl

theorem autoDigits_mem (nano : Int) : autoDigits nano ∈ [0, 3, 6, 9] := by
  unfold autoDigits
  simp only
  repeat' split
  all_goals decide

theorem exists_fraction (nano : Int) :
    ∃ f : Rfc3339.Fraction, fraction .auto nano = f.text ∧ f.nanos = nano % 1000000000
      ∧ f.digits.length ∈ [0, 3, 6, 9] := by
  obtain ⟨most, whole⟩ := Rfc3339.fractionDigits_span .auto nano
  change autoDigits nano ≤ 9 at most
  have length : ((padded 9 (nano % 1000000000).toNat).take (autoDigits nano)).length =
      autoDigits nano := by
    rw [List.length_take, Text.padded_length (by decide) (by omega), Nat.min_eq_left most]
  have numeral := Text.isDigits_take (Text.isDigits_padded 9 (nano % 1000000000).toNat)
    (autoDigits nano)
  refine ⟨⟨_, numeral, length.trans_le most⟩, ?_, ?_, ?_⟩
  next =>
    have none : (padded 9 (nano % 1000000000).toNat).take (autoDigits nano) = [] ↔
        autoDigits nano = 0 := by
      rw [← List.length_eq_zero_iff, length]
    exact (if_congr none rfl rfl).symm
  next =>
    rw [← Rfc3339.Fraction.nanosOfDigits_digits, nanosOfDigits_take nano most]
    exact whole.trans (by simp [Precision.span])
  next =>
    rw [length]
    exact autoDigits_mem nano

theorem exists_word {time : Time} (proper : time.Proper) :
    ∃ word : Word, time.text = word.text ∧ word.Denotes time
      ∧ word.fraction.digits.length ∈ [0, 3, 6, 9] := by
  obtain ⟨firstHour, lastHour, firstMinute, lastMinute, -, -⟩ := time.inDay
  obtain ⟨firstSecond, lastSecond⟩ := time.shownSecond_bounds
  have number {n : Int} (first : 0 ≤ n) (last : n < 100) :
      ∃ word : Numeral 2, word.digits = two n ∧ word.value = n :=
    Numeral.exists_padded (by decide) first last
  obtain ⟨hour, hourText, hourValue⟩ := number firstHour (by omega)
  obtain ⟨minute, minuteText, minuteValue⟩ := number firstMinute (by omega)
  obtain ⟨second, secondText, secondValue⟩ := number firstSecond (by omega)
  obtain ⟨fraction, fractionText, nanos, digits⟩ := exists_fraction time.nano
  refine ⟨⟨hour, minute, second, fraction⟩, ?_, ?_, digits⟩
  next =>
    simp [Word.text, text, textTo, clockText, hourText, minuteText, secondText, fractionText]
  next =>
    exact ⟨hourValue.symm, minuteValue.symm, secondValue.symm, nanos.symm, proper⟩

end Time

namespace Reading

theorem parseIso?_eq_some {t : Text} {reading : Reading} :
    parseIso? t = some reading ↔ ∃ (c : Char) (word : Time.Word), (c = 'T' ∨ c = 't')
      ∧ t = reading.date.text ++ c :: word.text ∧ word.Denotes reading.time := by
  constructor
  next =>
    intro parsed
    unfold parseIso? at parsed
    split at parsed
    next c rest separated =>
      split at parsed
      next separates =>
        obtain ⟨date, dateRead, timed⟩ := Option.bind_eq_some_iff.mp parsed
        obtain ⟨time, timeRead, same⟩ := Option.bind_eq_some_iff.mp timed
        cases same
        obtain ⟨word, rfl, denotes⟩ := Time.parseIso?_eq_some.mp timeRead
        refine ⟨c, word, separates, ?_, denotes⟩
        rw [← Date.parseIso?_eq_some.mp dateRead, ← separated, List.take_append_drop]
      next => cases parsed
    next => cases parsed
  next =>
    rintro ⟨c, word, separates, rfl, denotes⟩
    have date := Date.parseIso?_eq_some.mpr (rfl : reading.date.text = _)
    have time := Time.parseIso?_eq_some.mpr ⟨word, rfl, denotes⟩
    have front : (reading.date.text ++ c :: word.text).take 10 = reading.date.text :=
      List.take_left' reading.date.text_length
    have back : (reading.date.text ++ c :: word.text).drop 10 = c :: word.text :=
      List.drop_left' reading.date.text_length
    unfold parseIso?
    rw [back]
    simp only [separates, if_true, front, date, time]
    rfl

end Reading

theorem Date.parseIso_eq_ok {t : Text} {date : Date} : parseIso t = .ok date ↔ t = date.text := by
  rw [← parseIso?_eq_some, parseIso]
  cases parseIso? t with
  | none => simp
  | some found => simp

theorem Time.parseIso_eq_ok {t : Text} {time : Time} :
    parseIso t = .ok time ↔ ∃ word : Word, t = word.text ∧ word.Denotes time := by
  rw [← parseIso?_eq_some, parseIso]
  cases parseIso? t with
  | none => simp
  | some found => simp

theorem Reading.parseIso_eq_ok {t : Text} {reading : Reading} :
    parseIso t = .ok reading ↔ ∃ (c : Char) (word : Time.Word), (c = 'T' ∨ c = 't')
      ∧ t = reading.date.text ++ c :: word.text ∧ word.Denotes reading.time := by
  rw [← parseIso?_eq_some, parseIso]
  cases parseIso? t with
  | none => simp
  | some found => simp

/-- A date is read from its text and from nothing else, a time or a reading from exactly the words
that show it. What is written is one of them, with 0, 3, 6 or 9 digits of the fraction. -/
theorem parseIso_text :
    (∀ (t : Text) (date : Date), Date.parseIso t = .ok date ↔ t = date.text)
      ∧ (∀ (t : Text) (time : Time), Time.parseIso t = .ok time ↔
        ∃ word : Time.Word, t = word.text ∧ word.Denotes time)
      ∧ (∀ (t : Text) (reading : Reading), Reading.parseIso t = .ok reading ↔
        ∃ (c : Char) (word : Time.Word), (c = 'T' ∨ c = 't')
          ∧ t = reading.date.text ++ c :: word.text ∧ word.Denotes reading.time)
      ∧ (∀ time : Time, time.Proper → Time.parseIso time.text = .ok time
        ∧ ∃ word : Time.Word, time.text = word.text ∧ word.Denotes time
          ∧ word.fraction.digits.length ∈ [0, 3, 6, 9])
      ∧ ∀ reading : Reading, reading.Proper → Reading.parseIso reading.text = .ok reading
        ∧ ∃ word : Time.Word, reading.text = reading.date.text ++ 'T' :: word.text
          ∧ word.Denotes reading.time ∧ word.fraction.digits.length ∈ [0, 3, 6, 9] := by
  refine ⟨fun _ _ => Date.parseIso_eq_ok, fun _ _ => Time.parseIso_eq_ok,
    fun _ _ => Reading.parseIso_eq_ok, fun time proper => ?_, fun reading proper => ?_⟩
  next =>
    obtain ⟨word, written, denotes, digits⟩ := Time.exists_word proper
    exact ⟨Time.parseIso_eq_ok.mpr ⟨word, written, denotes⟩, word, written, denotes, digits⟩
  next =>
    obtain ⟨word, written, denotes, digits⟩ := Time.exists_word proper
    have whole : reading.text = reading.date.text ++ 'T' :: word.text := by
      rw [Reading.text, Reading.textWith, written]
    exact ⟨Reading.parseIso_eq_ok.mpr ⟨'T', word, .inl rfl, whole, denotes⟩, word, whole, denotes,
      digits⟩

theorem parseIso_text_lastSecond :
    Instant.lastSecond.wall.Proper
      ∧ Time.parseIso (ofString "23:59:60.999999999") = .ok Instant.lastSecond.wall.time
      ∧ Reading.parseIso (ofString "9999-12-31T23:59:60.999999999") = .ok Instant.lastSecond.wall
      ∧ Reading.parseIso (ofString "9999-12-31t23:59:59.999999999") = .ok Reading.last
      ∧ Date.parseIso (ofString "9999-12-31") = .ok Reading.last.date := by
  have proper : Instant.lastSecond.wall.Proper := by decide
  obtain ⟨dates, -, readings, timesBack, readingsBack⟩ := parseIso_text
  have date : ofString "9999-12-31" = Reading.last.date.text := by decide +kernel
  have small : ofString "9999-12-31t23:59:59.999999999" =
      Reading.last.date.text ++ 't' :: Reading.last.time.text := by decide +kernel
  obtain ⟨-, word, written, denotes, -⟩ := timesBack Reading.last.time (by decide)
  have time : ofString "23:59:60.999999999" = Instant.lastSecond.wall.time.text := by
    decide +kernel
  have reading : ofString "9999-12-31T23:59:60.999999999" = Instant.lastSecond.wall.text := by
    decide +kernel
  refine ⟨proper, ?_, ?_, (readings _ _).mpr ⟨'t', word, .inr rfl, ?_, denotes⟩,
    (dates _ _).mpr date⟩
  next => rw [time, (timesBack _ proper).1]
  next => rw [reading, (readingsBack _ proper).1]
  next => rw [small, written]

end ZonedTime
