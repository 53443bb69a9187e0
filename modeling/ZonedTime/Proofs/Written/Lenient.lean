import ZonedTime.Proofs.Instant.Constant
import ZonedTime.Proofs.Written.Rfc3339
import ZonedTime.Written.Lenient

set_option autoImplicit false

namespace ZonedTime

open Text (padded two four ofString)

namespace Lenient

theorem reads_digitRun {least : Nat} {run rest : Text} (digits : Text.isDigits run = true)
    (enough : least ≤ run.length) (ends : NoDigit rest) :
    Reads (digitRun least) (run ++ rest) (Text.value run : Int) rest := by
  have notShort : ¬ run.length < least := Nat.not_lt.mpr enough
  change digitRun least (run ++ rest) = .ok ((Text.value run : Int), rest)
  simp [digitRun, takeWhile_isDigit digits ends, notShort]

theorem reads_shortNumber {run : Text} (digits : Text.isDigits run = true)
    (both : run.length = 2) (rest : Text) :
    Reads shortNumber (run ++ rest) (Text.value run : Int) rest :=
  (Scan.reads_digits digits (by omega) (by omega) (.inl both)).andThen

theorem reads_shortNumber_two {n : Int} (first : 0 ≤ n) (last : n < 100) (rest : Text) :
    Reads shortNumber (two n ++ rest) n rest := by
  have length := Text.padded_length (show 0 < 2 by decide) (show n.toNat < 10 ^ 2 by omega)
  have read := reads_shortNumber (Text.isDigits_padded 2 n.toNat) length rest
  rwa [Text.value_padded, Int.toNat_of_nonneg first] at read

theorem reads_letter {c : Char} (letter : c = 'T' ∨ c = 't') (rest : Text) :
    Reads separator (c :: rest) () rest := by
  unfold separator
  rcases letter with rfl | rfl
  next => exact (Scan.reads_optional 'T' rest).bind (.pure () rest)
  next =>
    have other : Reads (Scan.optional 'T') ('t' :: rest) false ('t' :: rest) := rfl
    exact other.bind ((Scan.reads_optional 't' rest).bind (.pure () rest))

theorem reads_blank {c : Char} (solid : Text.isAsciiSpace c = false) (rest : Text) :
    Reads separator (' ' :: c :: rest) () (c :: rest) := by
  have blanks : Reads blanks (' ' :: c :: rest) false (c :: rest) := by
    change Lenient.blanks (' ' :: c :: rest) = _
    simp [Lenient.blanks, solid, show Text.isAsciiSpace ' ' = true by decide]
  have noLetter (letter : Char) (other : (' ' == letter) = false) :
      Reads (Scan.optional letter) (' ' :: c :: rest) false (' ' :: c :: rest) := by
    apply Scan.reads_noOptional
    rintro _ ⟨⟩
    exact other
  unfold separator
  -- Neither letter stands there, and the blank alone is enough.
  refine (noLetter 'T' rfl).bind ?_
  refine (noLetter 't' rfl).bind ?_
  exact blanks.bind (.pure () _)

theorem reads_fraction (nano : Int) {c : Char} {rest : Text} (noDigit : c.isDigit = false)
    (noPoint : (c == '.') = false) :
    Reads fraction (ZonedTime.fraction .auto nano ++ c :: rest) (nano % 1000000000)
      (c :: rest) := by
  obtain ⟨most, all⟩ := Rfc3339.fractionDigits_span .auto nano
  have digits (written : Text) (numeral : Text.isDigits written = true)
      (short : written.length ≤ 9) :
      Reads (do return Scan.nanosOfDigits (<- Scan.digits 0 9) : Scan Int)
        (written ++ c :: rest) (Scan.nanosOfDigits written) (c :: rest) :=
    (Scan.reads_digits numeral (Nat.zero_le _) short (.inr (noDigit_cons noDigit))).andThen
  have read := Scan.reads_fractionDigits nano most noPoint
    fun written numeral _ short => digits written numeral short
  rwa [all, Precision.span, Int.ediv_one, Int.mul_one] at read

theorem reads_reading (wall : Reading) (rest : Text) :
    Reads reading (wall.textWith ' ' ++ ' ' :: rest) (Rfc3339.written wall 1 0) (' ' :: rest) := by
  obtain ⟨firstYear, lastYear, firstMonth, lastMonth, firstDay, lastDay⟩ := wall.date.real
  obtain ⟨firstHour, lastHour, firstMinute, lastMinute, -, -⟩ := wall.time.inDay
  obtain ⟨firstSecond, lastSecond⟩ := wall.time.shownSecond_bounds
  have day := wall.date.day_le
  have year (rest : Text) :
      Reads (digitRun 4) (four wall.date.year ++ '-' :: rest) wall.date.year ('-' :: rest) := by
    have length := Text.padded_length (show 0 < 4 by decide)
      (show wall.date.year.toNat < 10 ^ 4 by omega)
    have read := reads_digitRun (Text.isDigits_padded 4 wall.date.year.toNat)
      (Nat.le_of_eq length.symm) (noDigit_cons (t := rest) (show '-'.isDigit = false by decide))
    rwa [Text.value_padded, Int.toNat_of_nonneg (by omega)] at read
  have separated (rest : Text) :
      Reads separator (' ' :: (two wall.time.hour ++ rest)) () (two wall.time.hour ++ rest) := by
    obtain ⟨c, tail, same, digit⟩ := Text.padded_head (show 0 < 2 by decide)
      (show wall.time.hour.toNat < 10 ^ 2 by omega)
    rw [two, same]
    exact reads_blank (Text.not_isAsciiSpace_of_isDigit digit) _
  have fraction : Reads fraction (ZonedTime.fraction .auto wall.time.nano ++ ' ' :: rest)
      (wall.time.nano % 1000000000) (' ' :: rest) :=
    reads_fraction wall.time.nano (by decide) (by decide)
  unfold Reading.textWith Date.text Time.text Time.textTo Time.clockText reading Rfc3339.written
  simp only [List.append_assoc, List.cons_append, List.nil_append]
  refine (year _).bind ?_
  refine (Scan.reads_char '-' _).bind ?_
  refine (reads_shortNumber_two (by omega) (by omega) _).bind ?_
  refine (Scan.reads_char '-' _).bind ?_
  refine (reads_shortNumber_two (by omega) (by omega) _).bind ?_
  refine (separated _).bind ?_
  refine (reads_shortNumber_two (by omega) (by omega) _).bind ?_
  refine (Scan.reads_char ':' _).bind ?_
  refine (reads_shortNumber_two (by omega) (by omega) _).bind ?_
  refine (Scan.reads_char ':' _).bind ?_
  refine (reads_shortNumber_two (by omega) (by omega) _).bind ?_
  rw [Int.ediv_one, Int.mul_one]
  exact fraction.bind (.pure _ _)

theorem reads_seconds {n : Int} (first : 0 ≤ n) (last : n < 60) :
    Reads seconds (if n = 0 then [] else ':' :: two n) n [] := by
  by_cases none : n = 0
  next =>
    subst none
    rfl
  next =>
    have number := Scan.reads_two first (show n < 100 by omega) []
    rw [List.append_nil] at number
    rw [if_neg none]
    exact (Scan.reads_optional ':' _).bind number

def parts (offset : Int) : Shift where
  negative := decide (offset < 0)
  hours := (offset.natAbs : Int) / 3600
  minutes := (offset.natAbs : Int) % 3600 / 60
  seconds := (offset.natAbs : Int) % 60

theorem total_parts (offset : Int) : (parts offset).total = offset := by
  simp only [Shift.total, parts, decide_eq_true_eq]
  split <;> omega

theorem signChar_cases (offset : Int) :
    ∃ c, Offset.signChar offset offset.natAbs = c ∧ (c = '+' ∨ c = '-')
      ∧ (c == '-') = decide (offset < 0) := by
  unfold Offset.signChar
  by_cases west : offset < 0
  next => exact ⟨'-', by simp [west]; omega, .inr rfl, by simp [west]⟩
  next => exact ⟨'+', by simp [west], .inl rfl, by simp [west]⟩

theorem reads_signed {offset : Int} (withinDay : -86400 < offset ∧ offset < 86400) :
    Reads signed (Offset.fullText true offset) (parts offset) [] := by
  obtain ⟨c, same, sign, negative⟩ := signChar_cases offset
  -- The sign is one of the whole offset, also where the hours and minutes are zero.
  have accepted : (c == '+' || c == '-') = true := by
    rcases sign with rfl | rfl <;> rfl
  unfold Offset.fullText Offset.separator signed parts
  simp only [same, ← negative, if_true, List.cons_append, List.append_assoc, List.nil_append]
  refine Reads.bind (Scan.reads_one accepted _) ?_
  refine (Scan.reads_two (by omega) (by omega) _).bind ?_
  refine (Scan.reads_optional ':' _).bind ?_
  refine (Scan.reads_two (by omega) (by omega) _).bind ?_
  refine (reads_seconds (by omega) (by omega)).bind ?_
  exact Reads.bind (show Reads Scan.ended [] () [] from rfl) (.pure _ [])

theorem fullText_head (colon : Bool) (offset : Int) :
    ∃ c rest, Offset.fullText colon offset = c :: rest ∧ (c = '+' ∨ c = '-') := by
  obtain ⟨c, same, sign, -⟩ := signChar_cases offset
  exact ⟨c, _, by simp only [Offset.fullText, same, List.cons_append]; rfl, sign⟩

theorem shift_fullText {offset : Int} (withinDay : -86400 < offset ∧ offset < 86400) :
    shift (Offset.fullText true offset) = some (parts offset) := by
  obtain ⟨c, rest, same, sign⟩ := fullText_head true offset
  -- A sign begins none of the names of UTC.
  have noName : utcNames.contains (Text.lower (Offset.fullText true offset)) = false := by
    rw [same]
    rcases sign with rfl | rfl <;> simp [utcNames, Text.lower, ofString]
  have read := reads_signed withinDay
  unfold Reads at read
  simp only [shift, noName, read]
  rfl

def zoneText (instant : Instant) : Text :=
  match instant.zone with
  | .utc => ofString "UTC"
  | _ => instant.offset.text

theorem shift_zoneText {instant : Instant} (settled : instant.Settled) :
    ∃ found, shift (zoneText instant) = some found ∧ found.minutes ≤ 59 ∧ found.seconds ≤ 59
      ∧ found.total = instant.offset.seconds := by
  by_cases utc : instant.zone = .utc
  next =>
    have zero : instant.offset = .zero := settled .zero (by simp [utc, Zone.constant?])
    refine ⟨⟨false, 0, 0, 0⟩, ?_, by decide, by decide, by simp [zero]; rfl⟩
    simp only [zoneText, utc]
    decide
  next =>
    have written : zoneText instant = Offset.fullText true instant.offset.seconds := by
      unfold zoneText
      split
      next same => exact absurd same utc
      next => rfl
    rw [written]
    refine ⟨_, shift_fullText instant.offset.withinDay, ?_, ?_, total_parts _⟩
    next => simp only [parts]; omega
    next => simp only [parts]; omega

theorem zoneText_head (instant : Instant) :
    ∃ c rest, zoneText instant = c :: rest ∧ Text.isAsciiSpace c = false := by
  unfold zoneText
  split
  next => exact ⟨'U', _, rfl, by decide⟩
  next =>
    obtain ⟨c, rest, same, sign⟩ := fullText_head true instant.offset.seconds
    refine ⟨c, rest, same, ?_⟩
    rcases sign with rfl | rfl <;> decide

theorem scan_of_reading {t after rest : Text} {c : Char} {stamp : Stamp} {found : Shift}
    (read : Reads reading t stamp after)
    (left : after.dropWhile Text.isAsciiSpace = c :: rest)
    (shifted : shift (c :: rest) = some found) :
    scan t =
      if 59 < found.minutes ∨ 59 < found.seconds then .error .outOfRange
      else { stamp with offset := found.total }.check := by
  unfold Reads at read
  unfold scan
  simp only [read, left, List.isEmpty_cons, Bool.false_eq_true, if_false, shifted]

theorem scan_text {instant : Instant} (settled : instant.Settled)
    (proper : instant.wall.Proper) :
    scan instant.text =
      .ok { Rfc3339.written instant.wall 1 instant.offset.seconds with
        second := instant.wall.time.second
        nano := instant.wall.time.nano } := by
  obtain ⟨found, shifted, inHour, inMinute, total⟩ := shift_zoneText settled
  obtain ⟨c, rest, head, solid⟩ := zoneText_head instant
  have text : instant.text = instant.wall.textWith ' ' ++ ' ' :: zoneText instant := rfl
  have read := reads_reading instant.wall (zoneText instant)
  have left : (' ' :: zoneText instant).dropWhile Text.isAsciiSpace = c :: rest := by
    simp [head, solid, show Text.isAsciiSpace ' ' = true by decide]
  have early : ¬ (59 < found.minutes ∨ 59 < found.seconds) := by omega
  have withinDay := instant.offset.withinDay
  have checked := Rfc3339.check_written proper .auto
    (show instant.offset.seconds.natAbs < 86400 by omega)
  rw [head] at shifted
  rw [text, scan_of_reading read left shifted, if_neg early, total]
  have whole : (instant.wall.time.cut 1).nano = instant.wall.time.nano := by simp [Time.cut]
  simp only [Precision.span, whole] at checked
  exact checked

end Lenient

namespace Instant

/-- The text of an instant is read as the same moment, wall and offset, in the zone of the offset,
which is the zone of the instant itself if that is a fixed offset. -/
theorem parse_text {instant : Instant} (reachable : Reachable instant)
    (proper : instant.wall.Proper) :
    ∃ parsed, parse instant.text = .ok parsed
      ∧ parsed.utc = instant.utc ∧ parsed.wall = instant.wall ∧ parsed.offset = instant.offset
      ∧ ∀ offset, instant.zone = .fixed offset → parsed.same instant = true := by
  have settled := reachable.settled
  refine ⟨⟨instant.utc, instant.wall, instant.offset, .fixed instant.offset⟩, ?_, rfl, rfl, rfl,
    fun offset zone => ?_⟩
  next =>
    unfold parse Lenient.parse
    rw [Lenient.scan_text settled proper]
    exact Stamp.toInstant_eq_ok (Reading.ofClock_fields instant.wall) rfl
      reachable.coherent.shift_back
  next =>
    have same : instant.offset = offset := settled offset (by simp [zone, Zone.constant?])
    simp [Instant.same, Zone.same, zone, same]

def halfMinuteBehind : Instant where
  utc := ⟨⟨2017, 1, 1, Date.isDate_startOf2017⟩, ⟨0, 0, 29, 1500000000, Time.isClock_halfMinute⟩⟩
  wall := ⟨⟨2016, 12, 31, Date.isDate_endOf2016⟩, ⟨23, 59, 59, 1500000000, Time.isClock_lastSecond⟩⟩
  offset := ⟨-30, by decide⟩
  zone := .fixed ⟨-30, by decide⟩

theorem parse_text_halfMinuteBehind :
    Reachable halfMinuteBehind ∧ halfMinuteBehind.wall.Proper
      ∧ ∃ parsed, parse halfMinuteBehind.text = .ok parsed
        ∧ parsed.offset.seconds = -30 ∧ parsed.same halfMinuteBehind = true := by
  have made : (Source.atOffset halfMinuteBehind.wall halfMinuteBehind.offset).run =
      .ok [halfMinuteBehind] := rfl
  have reachable : Reachable halfMinuteBehind := .made made (.head _)
  have proper : halfMinuteBehind.wall.Proper := by decide
  obtain ⟨parsed, read, -, -, offset, same⟩ := parse_text reachable proper
  exact ⟨reachable, proper, parsed, read, congrArg Offset.seconds offset, same _ rfl⟩

end Instant

end ZonedTime
