import ZonedTime.Proofs.Calendar.WeekLine
import ZonedTime.Proofs.Instant.Truncated
import ZonedTime.Proofs.Text.Words
import ZonedTime.Written.Rfc2822

set_option autoImplicit false

namespace ZonedTime

open Calendar
open Text (padded two four isAscii isDigits isBlank value splitAll words)

namespace Rfc2822

def isSolid (c : Char) : Bool := c.toNat < 128 && !isBlank c && c != '('

def IsWord (t : Text) : Prop := t ≠ [] ∧ t.all isSolid = true

instance (t : Text) : Decidable (IsWord t) := by
  unfold IsWord
  infer_instance

theorem isSolid_of_isDigit {c : Char} (digit : c.isDigit = true) : isSolid c = true := by
  have bounds := Text.isDigit_bounds digit
  have other : c ≠ '(' := by
    rintro rfl
    cases digit
  simp [isSolid, Text.isDigit_ascii digit, Text.not_isBlank_of_isDigit digit, other]

theorem isSolid_of_isDigits {t : Text} (digits : isDigits t = true) : t.all isSolid = true := by
  rw [isDigits, List.all_eq_true] at digits
  exact List.all_eq_true.mpr fun c member => isSolid_of_isDigit (digits c member)

theorem blankComments_eq {t : Text} (noComment : '(' ∉ t) : blankComments 0 t = t := by
  induction t with
  | nil => rfl
  | cons c rest ih =>
    obtain ⟨here, later⟩ := List.ne_and_not_mem_of_not_mem_cons noComment
    simp [blankComments, Ne.symm here, ih later]

theorem weekday_written {index : Int} (first : 0 ≤ index) (last : index ≤ 6) :
    let name := short (weekdayName index)
    name.length = 3 ∧ name.all isSolid = true ∧ isDigits name = false
      ∧ weekday (some name) = .ok (some index) := by
  interval_cases index <;> decide

theorem month_written {index : Int} (first : 1 ≤ index) (last : index ≤ 12) :
    IsWord (short (monthName index)) ∧ month (short (monthName index)) = .ok index := by
  interval_cases index <;> decide

theorem isWord_padded (width n : Nat) : IsWord (padded width n) := by
  refine ⟨?_, isSolid_of_isDigits (Text.isDigits_padded width n)⟩
  rw [Text.padded_eq, Text.decimal]
  split <;> simp

theorem isWord_clockText (time : Time) : IsWord time.clockText := by
  have number (n : Int) : (two n).all isSolid = true := (isWord_padded 2 n.toNat).2
  refine ⟨by simp [Time.clockText], ?_⟩
  simp [-List.all_eq_true, Time.clockText, number, show isSolid ':' = true by decide]

theorem isWord_minutesText (seconds : Int) : IsWord (Offset.minutesText false seconds) := by
  have number (n : Int) : (two n).all isSolid = true := (isWord_padded 2 n.toNat).2
  have sign (seconds size : Int) : isSolid (Offset.signChar seconds size) = true := by
    unfold Offset.signChar
    split <;> decide
  refine ⟨by simp [Offset.minutesText], ?_⟩
  simp [-List.all_eq_true, Offset.minutesText, Offset.separator, number, sign]

def parts (instant : Instant) : List Text :=
  [short (weekdayName instant.wall.date.weekdayIndex) ++ [','], two instant.wall.date.day,
    short (monthName instant.wall.date.month), four instant.wall.date.year,
    instant.wall.time.clockText, Offset.minutesText false instant.offset.seconds]

theorem toRfc2822_eq (instant : Instant) :
    instant.toRfc2822 = [' '].intercalate (parts instant) := by
  simp [Instant.toRfc2822, parts, List.intercalate]

theorem isWord_of_mem_parts {instant : Instant} {part : Text} (member : part ∈ parts instant) :
    IsWord part := by
  obtain ⟨-, -, firstMonth, lastMonth, -, -⟩ := instant.wall.date.real
  obtain ⟨first, last⟩ := instant.wall.date.weekdayIndex_bounds
  obtain ⟨-, solid, -, -⟩ := weekday_written first last
  simp only [parts, List.mem_cons, List.not_mem_nil, or_false] at member
  rcases member with rfl | rfl | rfl | rfl | rfl | rfl
  next =>
    refine ⟨by simp, ?_⟩
    simp [-List.all_eq_true, solid, show isSolid ',' = true by decide]
  next => exact isWord_padded 2 _
  next => exact (month_written firstMonth lastMonth).1
  next => exact isWord_padded 4 _
  next => exact isWord_clockText _
  next => exact isWord_minutesText _

theorem isSolid_of_mem {instant : Instant} {part : Text} (member : part ∈ parts instant)
    {c : Char} (within : c ∈ part) : isSolid c = true :=
  List.all_eq_true.mp (isWord_of_mem_parts member).2 c within

theorem isAscii_written (instant : Instant) : isAscii instant.toRfc2822 = true := by
  rw [toRfc2822_eq, isAscii, List.all_eq_true]
  intro c member
  rcases Text.mem_intercalate member with rfl | ⟨part, listed, within⟩
  next => decide
  next =>
    have solid := isSolid_of_mem listed within
    simp only [isSolid, Bool.and_eq_true] at solid
    exact solid.1.1

theorem words_written (instant : Instant) :
    words isBlank (blankComments 0 instant.toRfc2822) = parts instant := by
  -- Comments are blanked first, then the rest is split: no word is touched by either.
  have noComment : '(' ∉ instant.toRfc2822 := by
    rw [toRfc2822_eq]
    intro member
    rcases Text.mem_intercalate member with other | ⟨part, listed, within⟩
    next => cases other
    next => exact absurd (isSolid_of_mem listed within) (by decide)
  rw [blankComments_eq noComment, toRfc2822_eq]
  refine Text.words_intercalate (by decide) (fun part listed c within => ?_)
    (fun part listed => (isWord_of_mem_parts listed).1)
  have solid := isSolid_of_mem listed within
  simp only [isSolid, Bool.and_eq_true, Bool.not_eq_true'] at solid
  exact solid.1.2

theorem splitWeekday_written (instant : Instant) :
    splitWeekday (parts instant) =
      .ok (some (short (weekdayName instant.wall.date.weekdayIndex)), (parts instant).tail) := by
  obtain ⟨first, last⟩ := instant.wall.date.weekdayIndex_bounds
  obtain ⟨length, -, noDigits, -⟩ := weekday_written first last
  simp [parts, splitWeekday, length, noDigits]

theorem two_written {n : Int} (first : 0 ≤ n) (last : n < 100) :
    (two n).length = 2 ∧ isDigits (two n) = true ∧ (value (two n) : Int) = n := by
  refine ⟨Text.padded_length (by decide) (by omega), Text.isDigits_padded 2 _, ?_⟩
  rw [two, Text.value_padded, Int.toNat_of_nonneg first]

theorem day_written {n : Int} (first : 0 ≤ n) (last : n < 100) : day (two n) = .ok n := by
  obtain ⟨length, digits, same⟩ := two_written first last
  have filled : two n ≠ [] := (isWord_padded 2 n.toNat).1
  simp [day, filled, length, digits, same]

theorem year_written {n : Int} (first : 0 ≤ n) (last : n < 10000) : year (four n) = .ok n := by
  have length : (four n).length = 4 := Text.padded_length (by decide) (by omega)
  have digits : isDigits (four n) = true := Text.isDigits_padded 4 _
  have same : (value (four n) : Int) = n := by
    rw [four, Text.value_padded, Int.toNat_of_nonneg first]
  simp [year, length, digits, same]

theorem noColon_of_isDigits {t : Text} (digits : isDigits t = true) :
    ∀ c ∈ t, (c == ':') = false := by
  intro c member
  have digit := List.all_eq_true.mp digits c member
  cases same : c == ':' with
  | false => rfl
  | true =>
    rw [beq_iff_eq.mp same] at digit
    cases digit

theorem splitAll_numbers (first : Int) (others : List Int)
    (small : ∀ n ∈ first :: others, 0 ≤ n ∧ n < 100) :
    splitAll (· == ':') ([':'].intercalate ((first :: others).map two)) =
      (first :: others).map two := by
  apply Text.splitAll_intercalate rfl
  intro piece member
  rw [← List.map_cons, List.mem_map] at member
  obtain ⟨n, listed, rfl⟩ := member
  exact noColon_of_isDigits (two_written (small n listed).1 (small n listed).2).2.1

section

variable {hour minute second : Int} (firstHour : 0 ≤ hour) (lastHour : hour < 100)
  (firstMinute : 0 ≤ minute) (lastMinute : minute < 100)
include firstHour lastHour firstMinute lastMinute

theorem time_minutes : time (two hour ++ ':' :: two minute) = .ok (hour, minute, 0) := by
  obtain ⟨hourLength, hourDigits, hourValue⟩ := two_written firstHour lastHour
  obtain ⟨minuteLength, minuteDigits, minuteValue⟩ := two_written firstMinute lastMinute
  have pieces : splitAll (· == ':') (two hour ++ ':' :: two minute) = [two hour, two minute] := by
    have split := splitAll_numbers hour [minute] (by simp; omega)
    simpa [List.intercalate] using split
  simp [time, pieces, hourLength, hourDigits, hourValue, minuteLength, minuteDigits, minuteValue]

theorem time_seconds (firstSecond : 0 ≤ second) (lastSecond : second < 100) :
    time (two hour ++ ':' :: (two minute ++ ':' :: two second)) = .ok (hour, minute, second) := by
  obtain ⟨hourLength, hourDigits, hourValue⟩ := two_written firstHour lastHour
  obtain ⟨minuteLength, minuteDigits, minuteValue⟩ := two_written firstMinute lastMinute
  obtain ⟨secondLength, secondDigits, secondValue⟩ := two_written firstSecond lastSecond
  have pieces : splitAll (· == ':') (two hour ++ ':' :: (two minute ++ ':' :: two second)) =
      [two hour, two minute, two second] := by
    have split := splitAll_numbers hour [minute, second] (by simp; omega)
    simpa [List.intercalate] using split
  simp [time, pieces, hourLength, hourDigits, hourValue, minuteLength, minuteDigits, minuteValue,
    secondLength, secondDigits, secondValue]

end

theorem time_written (clock : Time) :
    time clock.clockText = .ok (clock.hour, clock.minute, clock.shownSecond) := by
  obtain ⟨firstHour, lastHour, firstMinute, lastMinute, -, -⟩ := clock.inDay
  obtain ⟨firstSecond, lastSecond⟩ := clock.shownSecond_bounds
  have read := time_seconds firstHour (by omega) firstMinute (by omega) firstSecond (by omega)
  simpa [Time.clockText] using read

theorem offset_signed {sign : Char} (signed : sign = '+' ∨ sign = '-') {hours minutes : Int}
    (firstHour : 0 ≤ hours) (lastHour : hours < 100) (firstMinute : 0 ≤ minutes)
    (lastMinute : minutes < 60) :
    offset (sign :: (two hours ++ two minutes)) =
      .ok (if sign = '-' then -(hours * 3600 + minutes * 60) else hours * 3600 + minutes * 60) := by
  obtain ⟨hourLength, hourDigits, hour⟩ := two_written firstHour lastHour
  obtain ⟨minuteLength, minuteDigits, minute⟩ := two_written firstMinute (by omega)
  have inHour : ¬ 59 < value (two minutes) := by omega
  have ahead : (two hours ++ two minutes).take 2 = two hours := List.take_left' hourLength
  have behind : (two hours ++ two minutes).drop 2 = two minutes := List.drop_left' hourLength
  rcases signed with rfl | rfl <;>
    simp [offset, ahead, behind, hourLength, hourDigits, hour, minuteLength, minuteDigits, minute,
      inHour]

theorem offset_written {seconds : Int} (withinDay : -86400 < seconds ∧ seconds < 86400) :
    offset (Offset.minutesText false seconds) = .ok (seconds.tdiv 60 * 60) := by
  have read {sign : Char} (signed : sign = '+' ∨ sign = '-') :=
    offset_signed signed (show 0 ≤ (seconds.natAbs : Int) / 3600 by omega) (by omega)
      (show 0 ≤ (seconds.natAbs : Int) % 3600 / 60 by omega) (by omega)
  rw [Rfc3339.tdiv_sixty]
  unfold Offset.minutesText Offset.signChar Offset.separator
  -- Less than a minute behind is written without the minus sign, and read as no offset.
  by_cases west : seconds < 0 ∧ (seconds.natAbs : Int) / 60 ≠ 0
  next =>
    simp only [west, ne_eq, not_false_eq_true, and_self, if_true, Bool.false_eq_true, if_false,
      List.append_nil, List.cons_append]
    rw [read (.inr rfl), if_pos rfl]
    congr 1
    omega
  next =>
    simp only [if_neg west, Bool.false_eq_true, if_false, List.append_nil, List.cons_append]
    rw [read (.inl rfl), if_neg (by decide)]
    congr 1
    split <;> omega

theorem fields_written (instant : Instant) :
    fields (parts instant).tail =
      .ok (Rfc3339.written instant.wall 1000000000 (instant.offset.seconds.tdiv 60 * 60)) := by
  obtain ⟨firstYear, lastYear, firstMonth, lastMonth, firstDay, -⟩ := instant.wall.date.real
  have lastDay := instant.wall.date.day_le
  have day := day_written (show 0 ≤ instant.wall.date.day by omega) (by omega)
  have month := (month_written firstMonth lastMonth).2
  have year := year_written (show 0 ≤ instant.wall.date.year by omega) (by omega)
  have time := time_written instant.wall.time
  have offset := offset_written instant.offset.withinDay
  have none : instant.wall.time.nano % 1000000000 / 1000000000 * 1000000000 = 0 := by omega
  simp [fields, parts, Rfc3339.written, day, month, year, time, offset, none]

theorem scan_written {instant : Instant} (proper : instant.wall.Proper) :
    scan instant.toRfc2822 =
      .ok { Rfc3339.written instant.wall 1000000000 (instant.offset.seconds.tdiv 60 * 60) with
        second := instant.wall.time.second
        nano := (instant.wall.time.cut 1000000000).nano } := by
  obtain ⟨first, last⟩ := instant.wall.date.weekdayIndex_bounds
  obtain ⟨-, -, -, weekday⟩ := weekday_written first last
  have withinDay := instant.offset.withinDay
  have smaller := Rfc3339.natAbs_tdiv_sixty instant.offset.seconds
  have checked := Rfc3339.check_written proper .seconds
    (show (instant.offset.seconds.tdiv 60 * 60).natAbs < 86400 by omega)
  rw [Precision.span] at checked
  unfold scan
  simp [isAscii_written, words_written, splitWeekday_written, weekday, fields_written, checked]
  rfl

end Rfc2822

namespace Instant

end Instant

end ZonedTime
