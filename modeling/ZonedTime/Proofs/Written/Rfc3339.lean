import ZonedTime.Proofs.Instant.Coherence
import ZonedTime.Proofs.Text.Scanning
import ZonedTime.Written.Rfc3339

set_option autoImplicit false

namespace ZonedTime

open Text (padded two four isAscii isDigits)

/-- The nanoseconds in the last digit that is written; all of them without digits to spare. -/
def Precision.span : Precision -> Int
  | seconds => 1000000000
  | millis => 1000000
  | micros => 1000
  | nanos => 1
  | auto => 1

def Time.cut (span : Int) (time : Time) : Time := { time with nano := time.nano / span * span }

def Reading.cut (span : Int) (reading : Reading) : Reading :=
  ⟨reading.date, reading.time.cut span⟩

theorem Time.isLeapSecond_cut (precision : Precision) (time : Time) :
    (time.cut precision.span).isLeapSecond = time.isLeapSecond := by
  rw [Bool.eq_iff_iff, isLeapSecond_iff, isLeapSecond_iff]
  cases precision <;> simp only [cut, Precision.span] <;> omega

/-- Nine digits from the left, of which so many are written, make this many nanoseconds. -/
theorem nanosOfDigits_take (nano : Int) {digits : Nat} (most : digits ≤ 9) :
    Scan.nanosOfDigits ((padded 9 (nano % 1000000000).toNat).take digits) =
      nano % 1000000000 / (10 ^ (9 - digits) : Nat) * (10 ^ (9 - digits) : Nat) := by
  have small : (nano % 1000000000).toNat < 10 ^ 9 := by omega
  have length := Text.padded_length (show 0 < 9 by decide) small
  rw [Scan.nanosOfDigits_eq, Text.value_take (Text.isDigits_padded _ _), Text.value_padded,
    List.length_take, length, Nat.min_eq_left most]
  push_cast
  rw [Int.toNat_of_nonneg (by omega)]

theorem Scan.reads_fractionDigits (nano : Int) {digits : Nat} (most : digits ≤ 9) {run : Scan Int}
    {c : Char} {rest : Text} (noPoint : (c == '.') = false)
    (reads : ∀ written : Text, isDigits written = true → 0 < written.length →
      written.length ≤ 9 → Reads run (written ++ c :: rest) (nanosOfDigits written) (c :: rest)) :
    Reads (do if (<- optional '.') then run else return 0)
      (fractionDigits digits nano ++ c :: rest)
      (nano % 1000000000 / (10 ^ (9 - digits) : Nat) * (10 ^ (9 - digits) : Nat))
      (c :: rest) := by
  unfold fractionDigits
  by_cases none : digits = 0
  next =>
    -- Without digits there is no point either, and the fraction is below a second.
    have below : nano % 1000000000 / 1000000000 = 0 := by omega
    subst none
    rw [if_pos rfl, List.nil_append]
    refine (reads_noOptional ?_).bind ?_
    next =>
      rintro _ ⟨⟩
      exact noPoint
    next =>
      norm_num [below]
      exact .pure 0 _
  next =>
    rw [if_neg none, List.cons_append]
    refine (reads_optional '.' _).bind ?_
    have length := Text.padded_length (show 0 < 9 by decide)
      (show (nano % 1000000000).toNat < 10 ^ 9 by omega)
    rw [← nanosOfDigits_take nano most]
    refine reads _ (Text.isDigits_take (Text.isDigits_padded _ _) _) ?_ ?_
    next =>
      rw [List.length_take, length]
      omega
    next =>
      rw [List.length_take, length]
      omega

namespace Rfc3339

theorem reads_fractionRun {run rest : Text} (digits : isDigits run = true)
    (some : 0 < run.length) (most : run.length ≤ 9) (ends : NoDigit rest) :
    Reads fractionRun (run ++ rest) (Scan.nanosOfDigits run) rest := by
  change fractionRun (run ++ rest) = .ok (Scan.nanosOfDigits run, rest)
  have notEmpty : run.isEmpty = false := by
    cases run with
    | nil => cases some
    | cons c run => rfl
  have short : ¬ 9 < run.length := by omega
  simp [fractionRun, takeWhile_isDigit digits ends, notEmpty, short]

theorem reads_fraction (nano : Int) {digits : Nat} (most : digits ≤ 9) {c : Char} {rest : Text}
    (noDigit : c.isDigit = false) (noPoint : (c == '.') = false) :
    Reads fraction (fractionDigits digits nano ++ c :: rest)
      (nano % 1000000000 / (10 ^ (9 - digits) : Nat) * (10 ^ (9 - digits) : Nat))
      (c :: rest) :=
  Scan.reads_fractionDigits nano most noPoint fun _ numeral some short =>
    reads_fractionRun numeral some short (noDigit_cons noDigit)

theorem reads_minutes (seconds : Int) (withinDay : -86400 < seconds ∧ seconds < 86400) :
    Reads offset (Offset.minutesText true seconds)
      (decide (seconds < 0 ∧ (seconds.natAbs : Int) / 60 ≠ 0), (seconds.natAbs : Int) / 3600,
        (seconds.natAbs : Int) % 3600 / 60) [] := by
  have hours := Scan.reads_two (show 0 ≤ (seconds.natAbs : Int) / 3600 by omega) (by omega)
    (':' :: two ((seconds.natAbs : Int) % 3600 / 60))
  have minutes := Scan.reads_two (show 0 ≤ (seconds.natAbs : Int) % 3600 / 60 by omega)
    (by omega) []
  rw [List.append_nil] at minutes
  unfold Offset.minutesText Offset.signChar Offset.separator offset
  simp only [if_true, List.cons_append, List.append_assoc, List.nil_append]
  by_cases west : seconds < 0 ∧ (seconds.natAbs : Int) / 60 ≠ 0
  next =>
    rw [if_pos west, decide_eq_true west]
    refine Reads.bind (Scan.reads_one rfl _) ?_
    exact hours.bind ((Scan.reads_char ':' _).bind (minutes.bind (.pure _ [])))
  next =>
    rw [if_neg west, decide_eq_false west]
    refine Reads.bind (Scan.reads_one rfl _) ?_
    exact hours.bind ((Scan.reads_char ':' _).bind (minutes.bind (.pure _ [])))

theorem tdiv_sixty (n : Int) :
    n.tdiv 60 * 60 =
      if n < 0 then -((n.natAbs : Int) / 60 * 60) else (n.natAbs : Int) / 60 * 60 := by
  rcases Int.natAbs_eq n with positive | negative
  next =>
    rw [if_neg (by omega), positive, Int.tdiv_eq_ediv_of_nonneg (by omega), Int.natAbs_natCast]
  next =>
    have toward : (-(n.natAbs : Int)).tdiv 60 = -((n.natAbs : Int) / 60) := by
      rw [Int.neg_tdiv, Int.tdiv_eq_ediv_of_nonneg (by omega)]
    rw [← negative] at toward
    rw [toward]
    split <;> omega

def suffix (offset : Offset) (useZ : Bool) : Text :=
  if useZ && offset.seconds == 0 then ['Z'] else Offset.minutesText true offset.seconds

def total (parts : Bool × Int × Int) : Int :=
  if parts.1 then -(parts.2.1 * 3600 + parts.2.2 * 60) else parts.2.1 * 3600 + parts.2.2 * 60

theorem reads_suffix (written : Offset) (useZ : Bool) :
    ∃ parts, Reads offset (suffix written useZ) parts [] ∧ parts.2.2 ≤ 59
      ∧ total parts = written.seconds.tdiv 60 * 60 := by
  unfold suffix total
  by_cases letter : (useZ && written.seconds == 0) = true
  next =>
    rw [if_pos letter]
    simp only [Bool.and_eq_true, beq_iff_eq] at letter
    refine ⟨(false, 0, 0), ?_, by decide, ?_⟩
    next => exact Reads.bind (Scan.reads_one rfl []) (.pure _ [])
    next => rw [letter.2]; rfl
  next =>
    rw [if_neg letter]
    refine ⟨_, reads_minutes written.seconds written.withinDay, by simp only; omega, ?_⟩
    simp only [tdiv_sixty, decide_eq_true_eq]
    split <;> split <;> omega

theorem suffix_head (written : Offset) (useZ : Bool) :
    ∃ c rest, suffix written useZ = c :: rest ∧ c.isDigit = false ∧ (c == '.') = false := by
  unfold suffix Offset.minutesText Offset.signChar
  split
  next => exact ⟨'Z', [], rfl, rfl, rfl⟩
  next =>
    simp only
    split
    next => exact ⟨'-', _, rfl, rfl, rfl⟩
    next => exact ⟨'+', _, rfl, rfl, rfl⟩

theorem fractionDigits_span (precision : Precision) (nano : Int) :
    precision.digits nano ≤ 9
      ∧ nano % 1000000000 / (10 ^ (9 - precision.digits nano) : Nat)
          * (10 ^ (9 - precision.digits nano) : Nat) =
        nano % 1000000000 / precision.span * precision.span := by
  cases precision with
  | seconds => exact ⟨Nat.zero_le 9, rfl⟩
  | millis => exact ⟨by norm_num [Precision.digits], rfl⟩
  | micros => exact ⟨by norm_num [Precision.digits], rfl⟩
  | nanos => exact ⟨Nat.le_refl 9, rfl⟩
  | auto =>
    -- As few digits as keep the value leave nothing out.
    unfold Precision.digits autoDigits Precision.span
    simp only
    split
    next => norm_num; omega
    next =>
      split
      next => norm_num; omega
      next =>
        split
        next => norm_num; omega
        next => norm_num

/-- The stamp of a written reading, in which second 60 is still unfolded. -/
def written (wall : Reading) (span offset : Int) : Stamp where
  year := wall.date.year
  month := wall.date.month
  day := wall.date.day
  hour := wall.time.hour
  minute := wall.time.minute
  second := wall.time.shownSecond
  nano := wall.time.nano % 1000000000 / span * span
  offset := offset

theorem reads_shape (instant : Instant) (precision : Precision) (useZ : Bool)
    {parts : Bool × Int × Int}
    (offset : Reads Rfc3339.offset (suffix instant.offset useZ) parts []) :
    Reads shape (instant.toRfc3339 precision useZ)
      (written instant.wall precision.span 0, parts) [] := by
  obtain ⟨firstYear, lastYear, firstMonth, lastMonth, firstDay, lastDay⟩ := instant.wall.date.real
  obtain ⟨firstHour, lastHour, firstMinute, lastMinute, -, -⟩ := instant.wall.time.inDay
  obtain ⟨firstSecond, lastSecond⟩ := instant.wall.time.shownSecond_bounds
  obtain ⟨most, digits⟩ := fractionDigits_span precision instant.wall.time.nano
  obtain ⟨c, rest, head, noDigit, noPoint⟩ := suffix_head instant.offset useZ
  have day := instant.wall.date.day_le
  have fraction := @reads_fraction instant.wall.time.nano _ most c rest noDigit noPoint
  rw [digits, ← head] at fraction
  unfold Instant.toRfc3339 Date.text Time.textTo Time.clockText ZonedTime.fraction shape
  rw [← suffix]
  simp only [List.append_assoc, List.cons_append, List.nil_append]
  refine (Scan.reads_four (by omega) (by omega) _).bind ?_
  refine (Scan.reads_char '-' _).bind ?_
  refine (Scan.reads_two (by omega) (by omega) _).bind ?_
  refine (Scan.reads_char '-' _).bind ?_
  refine (Scan.reads_two (by omega) (by omega) _).bind ?_
  refine (Scan.reads_one rfl _).bind ?_
  refine (Scan.reads_two (by omega) (by omega) _).bind ?_
  refine (Scan.reads_char ':' _).bind ?_
  refine (Scan.reads_two (by omega) (by omega) _).bind ?_
  refine (Scan.reads_char ':' _).bind ?_
  refine (Scan.reads_two (by omega) (by omega) _).bind ?_
  exact fraction.bind (offset.bind (.pure _ []))

theorem isAscii_padded (width n : Nat) : isAscii (padded width n) = true :=
  Text.isAscii_of_isDigits (Text.isDigits_padded width n)

theorem isAscii_suffix (offset : Offset) (useZ : Bool) : isAscii (suffix offset useZ) = true := by
  unfold suffix Offset.minutesText Offset.signChar Offset.separator
  split
  next => rfl
  next =>
    simp only [two]
    split <;> simp [isAscii_padded]

theorem isAscii_written (instant : Instant) (precision : Precision) (useZ : Bool) :
    isAscii (instant.toRfc3339 precision useZ) = true := by
  have fraction (digits : Nat) (nano : Int) : isAscii (fractionDigits digits nano) = true := by
    unfold fractionDigits
    split
    next => rfl
    next =>
      rw [Text.isAscii_cons, Bool.and_eq_true]
      exact ⟨rfl, Text.isAscii_of_isDigits (Text.isDigits_take (Text.isDigits_padded _ _) _)⟩
  unfold Instant.toRfc3339 Date.text Time.textTo Time.clockText ZonedTime.fraction
  rw [← suffix]
  simp [isAscii_suffix, fraction, two, four, isAscii_padded]

theorem foldLeapSecond_written {wall : Reading} (proper : wall.Proper) (precision : Precision)
    (offset : Int) :
    (written wall precision.span offset).foldLeapSecond =
      { written wall precision.span offset with
        second := wall.time.second
        nano := (wall.time.cut precision.span).nano } := by
  obtain ⟨first, last, leap⟩ := proper
  obtain ⟨-, -, -, -, -, lastSecond⟩ := wall.time.inDay
  unfold Stamp.foldLeapSecond written Time.shownSecond Time.isLeapSecond Time.cut
  by_cases later : 1000000000 ≤ wall.time.nano
  next =>
    have second := leap later
    have whole : wall.time.nano % 1000000000 = wall.time.nano - 1000000000 := by omega
    simp [later, second, whole]
    cases precision <;> simp only [Precision.span] <;> omega
  next =>
    have below : wall.time.nano % 1000000000 = wall.time.nano := by omega
    have other : wall.time.second ≠ 60 := by omega
    simp [later, other, below]

theorem check_written {wall : Reading} (proper : wall.Proper) (precision : Precision)
    {offset : Int} (withinDay : offset.natAbs < 86400) :
    (written wall precision.span offset).check =
      .ok { written wall precision.span offset with
        second := wall.time.second
        nano := (wall.time.cut precision.span).nano } := by
  obtain ⟨-, lastHour, -, lastMinute, -, -⟩ := wall.time.inDay
  have inRange : (written wall precision.span offset).InRange :=
    ⟨wall.date.real, lastHour, lastMinute, wall.time.shownSecond_bounds.2, withinDay⟩
  rw [Stamp.check, if_pos inRange, foldLeapSecond_written proper]

theorem natAbs_tdiv_sixty (n : Int) : (n.tdiv 60 * 60).natAbs ≤ n.natAbs := by
  rw [tdiv_sixty]
  split <;> omega

theorem scan_of_shape {t : Text} {stamp : Stamp} {parts : Bool × Int × Int}
    (ascii : isAscii t = true) (read : Reads shape t (stamp, parts) [])
    (inHour : parts.2.2 ≤ 59) : scan t = { stamp with offset := total parts }.check := by
  have early : ¬ 59 < parts.2.2 := by omega
  unfold scan
  unfold Reads at read
  rw [ascii, read]
  simp [bind, Except.bind, early, total]

theorem scan_written {instant : Instant} (proper : instant.wall.Proper) (precision : Precision)
    (useZ : Bool) :
    scan (instant.toRfc3339 precision useZ) =
      .ok { written instant.wall precision.span (instant.offset.seconds.tdiv 60 * 60) with
        second := instant.wall.time.second
        nano := (instant.wall.time.cut precision.span).nano } := by
  obtain ⟨parts, read, inHour, same⟩ := reads_suffix instant.offset useZ
  have withinDay := instant.offset.withinDay
  have smaller := natAbs_tdiv_sixty instant.offset.seconds
  rw [scan_of_shape (isAscii_written instant precision useZ)
    (reads_shape instant precision useZ read) inHour, same]
  exact check_written proper precision (by omega)

end Rfc3339

namespace Stamp

theorem toInstant_eq_ok {stamp : Stamp} {input : Text} {wall utc : Reading} {offset : Offset}
    (read : stamp.reading = .ok wall) (within : offset.seconds = stamp.offset)
    (shifted : wall.shift? (-offset.seconds) = some utc) :
    stamp.toInstant input = .ok ⟨utc, wall, offset, .fixed offset⟩ := by
  have given : Offset.ofSeconds stamp.offset = .ok offset := within ▸ offset.ofSeconds_seconds
  have made : Instant.ofWall? wall offset (.fixed offset) =
      some ⟨utc, wall, offset, .fixed offset⟩ := by
    simp [Instant.ofWall?, shifted]
  unfold toInstant
  simp [bind, Except.bind, read, given, made, pure, Except.pure]

end Stamp

namespace Instant

/-- The offset is moved toward zero, so a UTC reading that far from the wall exists as well. -/
theorem exists_shift_whole {instant : Instant} (coherent : instant.Coherent) (wall : Reading)
    (same : wall.epochSecond = instant.wall.epochSecond) :
    ∃ utc, wall.shift? (-(instant.offset.seconds.tdiv 60 * 60)) = some utc := by
  have one := instant.utc.epochSecond_bounds
  have other := instant.wall.epochSecond_bounds
  have place := coherent.1
  have between := Rfc3339.tdiv_sixty instant.offset.seconds
  cases shifted : wall.shift? (-(instant.offset.seconds.tdiv 60 * 60)) with
  | some utc => exact ⟨utc, rfl⟩
  | none =>
    rw [Reading.shift?_eq_none, same] at shifted
    split at between <;> omega

theorem utc_cut {instant : Instant} (coherent : instant.Coherent) (span : Int)
    (whole : instant.offset.seconds.tdiv 60 * 60 = instant.offset.seconds) :
    (instant.wall.cut span).shift? (-(instant.offset.seconds.tdiv 60 * 60)) =
      some (instant.utc.cut span) := by
  obtain ⟨place, nano⟩ := coherent
  have wallPlace : (instant.wall.cut span).epochSecond = instant.wall.epochSecond := rfl
  have utcPlace : (instant.utc.cut span).epochSecond = instant.utc.epochSecond := rfl
  rw [Reading.shift?_eq_some, wallPlace, utcPlace, whole]
  refine ⟨by omega, ?_⟩
  simp only [Reading.cut, Time.cut, nano]

/-- What is written of an instant is read back, whatever its zone: the wall up to the digits
written, leap seconds as such, and the offset without its seconds. Without such seconds the moment
is the same up to the digits written. All instants that there are ways to are coherent. -/
theorem parseRfc3339_toRfc3339 {instant : Instant} (coherent : instant.Coherent)
    (proper : instant.wall.Proper) (precision : Precision) (useZ : Bool) :
    ∃ parsed, parseRfc3339 (instant.toRfc3339 precision useZ) = .ok parsed
      ∧ parsed.wall = instant.wall.cut precision.span
      ∧ parsed.wall.time.isLeapSecond = instant.wall.time.isLeapSecond
      ∧ parsed.offset.seconds = instant.offset.seconds.tdiv 60 * 60
      ∧ (instant.offset.seconds % 60 = 0 → parsed.utc = instant.utc.cut precision.span) := by
  have between := Rfc3339.tdiv_sixty instant.offset.seconds
  have withinDay := instant.offset.withinDay
  have within : -86400 < instant.offset.seconds.tdiv 60 * 60
      ∧ instant.offset.seconds.tdiv 60 * 60 < 86400 := by
    split at between <;> omega
  obtain ⟨utc, shifted⟩ :=
    exists_shift_whole coherent (instant.wall.cut precision.span) rfl
  have scanned := Rfc3339.scan_written proper precision useZ
  refine ⟨⟨utc, instant.wall.cut precision.span, ⟨_, within⟩, .fixed ⟨_, within⟩⟩, ?_, rfl,
    Time.isLeapSecond_cut precision _, rfl, fun whole => ?_⟩
  next =>
    unfold parseRfc3339 Rfc3339.parse
    rw [scanned]
    exact Stamp.toInstant_eq_ok (Reading.ofClock_fields (instant.wall.cut precision.span)) rfl
      shifted
  next =>
    have same : instant.offset.seconds.tdiv 60 * 60 = instant.offset.seconds := by
      split at between <;> omega
    have cut := utc_cut coherent precision.span same
    rw [shifted, Option.some.injEq] at cut
    exact cut

def lastSecond : Instant where
  utc := ⟨.last, ⟨23, 40, 27, 1999999999, by decide⟩⟩
  wall := ⟨.last, ⟨23, 59, 59, 1999999999, Time.isClock_lastSecond⟩⟩
  offset := ⟨1172, by decide⟩
  zone := .fixed ⟨1172, by decide⟩

theorem parseRfc3339_lastSecond :
    lastSecond.Coherent ∧ lastSecond.wall.Proper
      ∧ ∃ parsed, parseRfc3339 (lastSecond.toRfc3339 .millis true) = .ok parsed
        ∧ parsed.wall = ⟨.last, ⟨23, 59, 59, 1999000000, by decide⟩⟩
        ∧ parsed.offset.seconds = 1140 := by
  have coherent : lastSecond.Coherent := by decide
  have proper : lastSecond.wall.Proper := by decide
  obtain ⟨parsed, read, wall, -, offset, -⟩ := parseRfc3339_toRfc3339 coherent proper .millis true
  exact ⟨coherent, proper, parsed, read, wall, offset⟩

end Instant

end ZonedTime
