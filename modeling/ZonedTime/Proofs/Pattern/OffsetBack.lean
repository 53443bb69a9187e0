import ZonedTime.Proofs.Pattern.ReadBack
import ZonedTime.Proofs.Written.Lenient

set_option autoImplicit false

namespace ZonedTime

open Text (two)

namespace Fields

variable {fields : Fields}

theorem put_offset (seconds : Int) :
    (fields.put .offset seconds).get .offset = some seconds := rfl

theorem put_offset_reading (noStamp : fields.get .timestamp = none) (seconds : Int) :
    (fields.put .offset seconds).reading = fields.reading := by
  have still : (fields.put .offset seconds).get .timestamp = none := noStamp
  have sameDate : (fields.put .offset seconds).fieldDate = fields.fieldDate := rfl
  have sameClock : (fields.put .offset seconds).fieldClock = fields.fieldClock := rfl
  have date : (fields.put .offset seconds).date = fields.date := by
    unfold date
    rw [sameDate, still, noStamp]
    cases fields.fieldDate with
    | ok built => cases built <;> rfl
    | error error => rfl
  have time : (fields.put .offset seconds).time = fields.time := by
    unfold time clock
    rw [sameClock, still, noStamp]
    cases fields.fieldClock with
    | ok built => cases built <;> rfl
    | error cause => rfl
  simp only [reading, date, time]

theorem put_offset_known {reading : Reading} {slots : List Slot} (proper : reading.Proper)
    (enoughDate : DetermineDate slots) (enoughTime : DetermineTime slots) (seconds : Int) :
    ((known reading slots).put .offset seconds).reading = .ok reading := by
  rw [put_offset_reading (get_known_of_not_mem enoughDate.timestamp)]
  exact known_reading proper enoughDate enoughTime

end Fields

namespace Pattern

def secondsText (colon : Bool) (seconds : Int) : Text :=
  let size : Int := seconds.natAbs
  if size % 60 = 0 then [] else Offset.separator colon ++ two (size % 60)

theorem secondsText_whole (colon : Bool) {seconds : Int} (whole : seconds % 60 = 0) :
    secondsText colon seconds = [] := if_pos (by omega)

theorem secondsText_notWhole (colon : Bool) {seconds : Int} (notWhole : seconds % 60 ≠ 0) :
    secondsText colon seconds ≠ [] := by
  have positive : (seconds.natAbs : Int) % 60 ≠ 0 := by omega
  have small : ((seconds.natAbs : Int) % 60).toNat < 10 ^ 2 := by omega
  obtain ⟨c, rest, same, -⟩ := Text.padded_head (show 0 < 2 by decide) small
  simp only [secondsText, if_neg positive, two, same]
  exact List.append_ne_nil_of_right_ne_nil _ (List.cons_ne_nil c rest)

theorem reads_separator (colon : Bool) {n : Int} (first : 0 ≤ n) (last : n < 100) (rest : Text) :
    ∃ found, Reads (Scan.optional ':') (Offset.separator colon ++ (two n ++ rest)) found
      (two n ++ rest) := by
  cases colon with
  | true => exact ⟨true, Scan.reads_optional ':' _⟩
  | false =>
    obtain ⟨c, tail, same, digit⟩ :=
      Text.padded_head (show 0 < 2 by decide) (show n.toNat < 10 ^ 2 by omega)
    have other : (c == ':') = false := by
      rw [beq_eq_false_iff_ne]
      rintro rfl
      exact absurd digit (by decide)
    change ∃ found, Reads (Scan.optional ':') (two n ++ rest) found (two n ++ rest)
    rw [two, same]
    exists false
    apply Scan.reads_noOptional
    rintro _ ⟨⟩
    exact other

/-- An offset is read up to its seconds, toward zero, and they are left. -/
theorem reads_offset (colon : Bool) {seconds : Int}
    (withinDay : -86400 < seconds ∧ seconds < 86400) :
    Reads offset (Offset.fullText colon seconds) (seconds.tdiv 60 * 60)
      (secondsText colon seconds) := by
  obtain ⟨c, same, sign, west⟩ := Lenient.signChar_cases seconds
  have accepted : (c == '+' || c == '-') = true := by
    rcases sign with rfl | rfl <;> rfl
  have inRange : ¬ (59 < (seconds.natAbs : Int) % 3600 / 60
      ∨ 23 < (seconds.natAbs : Int) / 3600) := by omega
  have toward : (if c == '-' then
        -((seconds.natAbs : Int) / 3600 * 3600 + (seconds.natAbs : Int) % 3600 / 60 * 60)
      else (seconds.natAbs : Int) / 3600 * 3600 + (seconds.natAbs : Int) % 3600 / 60 * 60) =
      seconds.tdiv 60 * 60 := by
    simp only [Rfc3339.tdiv_sixty, west, decide_eq_true_eq]
    split <;> omega
  obtain ⟨found, separator⟩ := reads_separator colon
    (show 0 ≤ (seconds.natAbs : Int) % 3600 / 60 by omega) (by omega) (secondsText colon seconds)
  have written : Offset.fullText colon seconds =
      c :: (two ((seconds.natAbs : Int) / 3600) ++ (Offset.separator colon
        ++ (two ((seconds.natAbs : Int) % 3600 / 60) ++ secondsText colon seconds))) := by
    simp only [Offset.fullText, same, secondsText, List.cons_append, List.append_assoc]
  rw [written, ← toward]
  unfold offset
  apply Reads.bind (Scan.reads_one accepted _)
  apply (Scan.reads_two (by omega) (by omega) _).bind
  apply separator.bind
  apply (Scan.reads_two (by omega) (by omega) _).bind
  simp only [if_neg inRange]
  exact .pure _ _

def stampPattern (colon : Bool) : Text :=
  Text.ofString (if colon then "%F %T%.9f %:z" else "%F %T%.9f %z")

def clockItems : List Item :=
  [zeroPadded .year, literal '-', zeroPadded .month, literal '-', zeroPadded .day, blank ' ',
    zeroPadded .hour, literal ':', zeroPadded .minute, literal ':', zeroPadded .second]

def offsetItems (colon : Bool) : List Item :=
  [.form (.digits 9 true), blank ' ', .form (.offset colon)]

theorem compile_stampPattern (colon : Bool) :
    compile (stampPattern colon) = .ok (clockItems ++ offsetItems colon) := by
  cases colon <;> decide +kernel

theorem clockItems_plain : ∀ item ∈ clockItems, item.plain := by decide

def tailText (colon : Bool) (nano seconds : Int) : Text :=
  fractionDigits 9 nano ++ ' ' :: Offset.fullText colon seconds

def stampText (colon : Bool) (wall : Reading) (seconds : Int) : Text :=
  clockItems.flatMap (written wall) ++ tailText colon wall.time.nano seconds

theorem render_stamp {subject : Subject} {wall : Reading} {offset : Offset}
    (shows : Shows subject wall) (east : subject.offset = some offset) (colon : Bool) :
    render subject (clockItems ++ offsetItems colon) =
      .ok (stampText colon wall offset.seconds) := by
  apply render_shown shows clockItems_plain
  obtain ⟨-, time⟩ := shows
  simp [offsetItems, render, itemText, formText, Subject.needTime, Subject.needOffset, time, east,
    blank, tailText]

theorem reads_fixedDigits (nano : Int) (rest : Text) :
    Reads (fixedDigits 9 true) (fractionDigits 9 nano ++ rest) [(.nanosecond, nano % 1000000000)]
      rest := by
  have small : (nano % 1000000000).toNat < 10 ^ 9 := by omega
  have value := nanosOfDigits_take nano (Nat.le_refl 9)
  have length : ((Text.padded 9 (nano % 1000000000).toNat).take 9).length = 9 := by
    rw [List.length_take, Text.padded_length (by decide) small]
    rfl
  rw [Nat.sub_self, Nat.pow_zero, Int.natCast_one, Int.ediv_one, Int.mul_one] at value
  have digits : Reads (Scan.digits 9 9) ((Text.padded 9 (nano % 1000000000).toNat).take 9 ++ rest)
      ((Text.padded 9 (nano % 1000000000).toNat).take 9) rest :=
    Scan.reads_digits (Text.isDigits_take (Text.isDigits_padded 9 _) 9)
      (Nat.le_of_eq length.symm) (Nat.le_of_eq length) (.inl length)
  have nanos := digits.andThen (f := Scan.nanosOfDigits)
  rw [value] at nanos
  exact (Scan.reads_char '.' _).bind (Reads.andThen nanos)

theorem reads_tail (colon : Bool) (wall : Reading) {slots : List Slot}
    (fresh : .offset ∉ slots) {seconds : Int}
    (withinDay : -86400 < seconds ∧ seconds < 86400) :
    Reads (gather (.known wall slots) (offsetItems colon))
      (tailText colon wall.time.nano seconds)
      ((Fields.known wall (.nanosecond :: slots)).put .offset (seconds.tdiv 60 * 60))
      (secondsText colon seconds) := by
  have nanosecond : Fields.ofIssue
      ((Fields.known wall slots).setAll [(.nanosecond, wall.time.nano % 1000000000)]) =
        .ok (.known wall (.nanosecond :: slots)) := by
    have stated := Fields.setAll_known wall slots [.nanosecond]
    exact congrArg Fields.ofIssue stated
  have offset : Fields.ofIssue
      ((Fields.known wall (.nanosecond :: slots)).setAll [(.offset, seconds.tdiv 60 * 60)]) =
        .ok ((Fields.known wall (.nanosecond :: slots)).put .offset (seconds.tdiv 60 * 60)) := by
    have unknown : (Fields.known wall (.nanosecond :: slots)).get .offset = none := by
      apply Fields.get_known_of_not_mem
      simp [fresh]
    rw [Fields.setAll_fresh unknown]
    rfl
  obtain ⟨c, rest, head, sign⟩ := Lenient.fullText_head colon seconds
  have solid : Text.isBlank c = false := by
    rcases sign with rfl | rfl <;> decide
  have skipped : Reads (skip Text.isBlank) (' ' :: Offset.fullText colon seconds) ()
      (Offset.fullText colon seconds) := by
    have dropped : (' ' :: Offset.fullText colon seconds).dropWhile Text.isBlank =
        Offset.fullText colon seconds := by
      simp [head, solid, show Text.isBlank ' ' = true by decide]
    exact congrArg (fun left => Except.ok ((), left)) dropped
  apply Reads.bind (scanned_reads (reads_fixedDigits wall.time.nano _))
  apply Reads.bind (.lift nanosecond _)
  apply Reads.bind (scanned_reads (skipped.bind (.pure [] _)))
  apply Reads.bind (.lift rfl _)
  apply Reads.bind (scanned_reads (reads_offset colon withinDay).andThen)
  exact Reads.bind (.lift offset _) (.pure _ _)

def readingSlots : List Slot := .nanosecond :: (clockItems.flatMap Item.slots).reverse

theorem reads_stamp (colon : Bool) (wall : Reading) {seconds : Int}
    (withinDay : -86400 < seconds ∧ seconds < 86400) :
    Reads (gather .empty (clockItems ++ offsetItems colon)) (stampText colon wall seconds)
      ((Fields.known wall readingSlots).put .offset (seconds.tdiv 60 * 60))
      (secondsText colon seconds) := by
  rw [← Fields.known_nil wall]
  apply gather_written wall clockItems_plain [] (.inl rfl)
  intro after left
  -- A point comes next, so there are no blanks to drop.
  have same : after = tailText colon wall.time.nano seconds := by
    rcases left with rfl | rfl
    next => rfl
    next => rfl
  rw [same, List.append_nil]
  exact reads_tail colon wall (by decide) withinDay

theorem parse_stamp (colon : Bool) (wall : Reading) {seconds : Int}
    (withinDay : -86400 < seconds ∧ seconds < 86400) :
    parse (stampText colon wall seconds) (stampPattern colon) =
      if seconds % 60 = 0 then .ok ((Fields.known wall readingSlots).put .offset seconds)
      else .error (.issue .tooLong none) := by
  have reads := reads_stamp colon wall withinDay
  unfold Reads at reads
  simp only [parse, compile_stampPattern, ok_bind, read, reads]
  by_cases whole : seconds % 60 = 0
  next =>
    have same : seconds.tdiv 60 * 60 = seconds := by
      have toward := Rfc3339.tdiv_sixty seconds
      split at toward <;> omega
    simp [secondsText_whole colon whole, same, whole]
  next =>
    have left : (secondsText colon seconds).isEmpty = false :=
      List.isEmpty_eq_false_iff.mpr (secondsText_notWhole colon whole)
    simp only [left, if_neg whole]
    rfl

end Pattern

namespace Instant

open Pattern (stampPattern stampText readingSlots)

section

variable {instant : Instant} {offset : Offset}

theorem format_fixed (fixed : instant.zone = .fixed offset) (colon : Bool) :
    instant.format (stampPattern colon) =
      .ok (stampText colon instant.wall instant.offset.seconds) := by
  have subject : instant.subject = .ok ⟨some instant.wall.date, some instant.wall.time,
      some instant.offset, some offset.text⟩ := by
    simp [Instant.subject, Zone.abbreviation, Zone.offsetAtUtc, fixed, Except.map]
  have shows : Pattern.Shows ⟨some instant.wall.date, some instant.wall.time,
      some instant.offset, some offset.text⟩ instant.wall := ⟨rfl, rfl⟩
  have rendered := Pattern.render_stamp shows rfl colon
  simp [format, Pattern.format, subject, Pattern.compile_stampPattern, rendered]

theorem known_stamp {wall : Reading} (proper : wall.Proper) (seconds : Int) :
    ((Fields.known wall readingSlots).put .offset seconds).reading = .ok wall := by
  apply Fields.put_offset_known proper
  next => constructor <;> decide
  next => constructor <;> decide

/-- An instant at a fixed offset, and with a proper reading, is read back as it is from its date,
its time to the nanosecond and its offset if the offset is in whole minutes. The seconds of any
other offset are written, but not read. -/
theorem parseBy_format (reachable : Reachable instant) (fixed : instant.zone = .fixed offset)
    (proper : instant.wall.Proper) (colon : Bool) :
    ∃ t, instant.format (stampPattern colon) = .ok t
      ∧ (offset.seconds % 60 = 0 →
        ∃ parsed, parseBy t (stampPattern colon) = .ok parsed ∧ parsed.utc = instant.utc
          ∧ parsed.wall = instant.wall ∧ parsed.same instant = true)
      ∧ (offset.seconds % 60 ≠ 0 →
        parseBy t (stampPattern colon) = .error (.issue .tooLong none)) := by
  have settled : instant.offset = offset :=
    reachable.settled offset (by simp [fixed, Zone.constant?])
  subst settled
  have read := Pattern.parse_stamp colon instant.wall instant.offset.withinDay
  apply Exists.intro _
  apply And.intro (format_fixed fixed colon)
  constructor
  next =>
    intro whole
    rw [if_pos whole] at read
    have shifted := reachable.coherent.shift_back
    have found := known_stamp proper instant.offset.seconds
    have given : Offset.ofSeconds instant.offset.seconds = .ok instant.offset := by
      simp [Offset.ofSeconds, Offset.ofSeconds?, instant.offset.withinDay]
    have made : ofWall? instant.wall instant.offset (.fixed instant.offset) =
        some ⟨instant.utc, instant.wall, instant.offset, .fixed instant.offset⟩ := by
      simp [ofWall?, shifted]
    refine ⟨⟨instant.utc, instant.wall, instant.offset, .fixed instant.offset⟩, ?_, rfl, rfl, ?_⟩
    next => simp [parseBy, read, Fields.put_offset, found, given, made]
    next => simp [same, Zone.same, fixed]
  next =>
    intro notWhole
    rw [if_neg notWhole] at read
    simp [parseBy, read]

def twentyMinutesBehind : Instant where
  utc := ⟨⟨1999, 1, 1, by decide⟩, ⟨0, 19, 59, 1999999999, by decide⟩⟩
  wall := ⟨⟨1998, 12, 31, by decide⟩, ⟨23, 59, 59, 1999999999, Time.isClock_lastSecond⟩⟩
  offset := ⟨-1200, by decide⟩
  zone := .fixed ⟨-1200, by decide⟩

def secondAhead : Instant where
  utc := ⟨⟨2014, 5, 6, by decide⟩, ⟨6, 8, 8, 0, by decide⟩⟩
  wall := ⟨⟨2014, 5, 6, by decide⟩, ⟨7, 8, 9, 0, by decide⟩⟩
  offset := ⟨3601, by decide⟩
  zone := .fixed ⟨3601, by decide⟩

theorem reachable_twentyMinutesBehind : Reachable twentyMinutesBehind := by
  have made : (Source.atOffset twentyMinutesBehind.wall twentyMinutesBehind.offset).run =
      .ok [twentyMinutesBehind] := rfl
  exact .made made (.head _)

theorem reachable_secondAhead : Reachable secondAhead := by
  have made : (Source.atOffset secondAhead.wall secondAhead.offset).run = .ok [secondAhead] := rfl
  exact .made made (.head _)

theorem parseBy_format_twentyMinutesBehind :
    Reachable twentyMinutesBehind ∧ twentyMinutesBehind.wall.Proper
      ∧ ∃ t parsed, twentyMinutesBehind.format (stampPattern true) = .ok t
        ∧ parseBy t (stampPattern true) = .ok parsed
        ∧ parsed.same twentyMinutesBehind = true := by
  have proper : twentyMinutesBehind.wall.Proper := by decide
  obtain ⟨t, written, whole, -⟩ :=
    parseBy_format reachable_twentyMinutesBehind rfl proper true
  obtain ⟨parsed, read, -, -, same⟩ := whole (by decide)
  exact ⟨reachable_twentyMinutesBehind, proper, t, parsed, written, read, same⟩

theorem secondAhead_not_parsed :
    Reachable secondAhead ∧ secondAhead.wall.Proper
      ∧ secondAhead.zone = .fixed ⟨3601, by decide⟩
      ∧ secondAhead.format (stampPattern false) =
        .ok (Text.ofString "2014-05-06 07:08:09.000000000 +010001")
      ∧ ¬ ∃ t parsed, secondAhead.format (stampPattern false) = .ok t
        ∧ parseBy t (stampPattern false) = .ok parsed ∧ parsed.same secondAhead = true := by
  have text : stampText false secondAhead.wall 3601 =
      Text.ofString "2014-05-06 07:08:09.000000000 +010001" := by decide +kernel
  have written : secondAhead.format (stampPattern false) =
      .ok (stampText false secondAhead.wall 3601) := format_fixed rfl false
  apply And.intro reachable_secondAhead
  apply And.intro (by decide)
  apply And.intro rfl
  apply And.intro (written.trans (congrArg Except.ok text))
  rintro ⟨t, parsed, format, read, -⟩
  have left : Pattern.parse (stampText false secondAhead.wall 3601) (stampPattern false) =
      .error (.issue .tooLong none) :=
    Pattern.parse_stamp false secondAhead.wall secondAhead.offset.withinDay
  rw [written] at format
  cases format
  rw [parseBy, left] at read
  cases read

end

end Instant

end ZonedTime
