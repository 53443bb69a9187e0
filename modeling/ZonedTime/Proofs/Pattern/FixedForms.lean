import ZonedTime.Proofs.Instant.Proper
import ZonedTime.Proofs.Pattern.StrictForm
import ZonedTime.Proofs.Zone.TzifLayout

set_option autoImplicit false

namespace ZonedTime

open Text (ofString)

theorem Offset.Whole.fullText_eq {offset : Offset} (whole : offset.Whole) (colon : Bool) :
    fullText colon offset.seconds = minutesText colon offset.seconds := by
  unfold Whole at whole
  have noSeconds : (offset.seconds.natAbs : Int) % 60 = 0 := by omega
  have sign : signChar offset.seconds (offset.seconds.natAbs : Int) =
      signChar offset.seconds ((offset.seconds.natAbs : Int) / 60) := by
    have same : (offset.seconds.natAbs : Int) ≠ 0 ↔ (offset.seconds.natAbs : Int) / 60 ≠ 0 := by
      omega
    simp only [signChar, same]
  unfold fullText minutesText
  simp only [sign, noSeconds, if_true, List.append_nil]

namespace Pattern

def dateItems : List Item :=
  [zeroPadded .year, literal '-', zeroPadded .month, literal '-', zeroPadded .day]

def timeItems : List Item := clock ++ [.form .fraction]

def readingItems : List Item := dateItems ++ literal 'T' :: timeItems

def instantItems : List Item :=
  dateItems ++ blank ' ' :: timeItems ++ [blank ' ', .form (.offset true)]

def mailItems : List Item :=
  [.form .shortWeekday, literal ',', blank ' ', zeroPadded .day, blank ' ', .form .shortMonth,
      blank ' ', zeroPadded .year, blank ' ']
    ++ clock ++ [blank ' ', .form (.offset false)]

theorem compile_dateItems : compile (ofString "%F") = .ok dateItems := by decide +kernel

theorem compile_timeItems : compile (ofString "%T%.f") = .ok timeItems := by decide +kernel

theorem compile_readingItems : compile (ofString "%FT%T%.f") = .ok readingItems := by decide +kernel

theorem compile_instantItems : compile (ofString "%F %T%.f %:z") = .ok instantItems := by
  decide +kernel

theorem compile_mailItems : compile (ofString "%a, %d %b %Y %T %z") = .ok mailItems := by
  decide +kernel

theorem compile_timestamp : compile (ofString "%s") = .ok [.number .timestamp .none] := by
  decide +kernel

theorem render_append (subject : Subject) (items others : List Item) :
    render subject (items ++ others) = do
      let s <- render subject items
      let t <- render subject others
      return s ++ t := by
  induction items with
  | nil => simp only [List.nil_append, render, ok_bind, bind_pure]
  | cons first rest ih => simp [render, ih]

def Writes (subject : Subject) (items : List Item) (t : Text) : Prop :=
  render subject items = .ok t

section

variable {subject : Subject} {items others : List Item} {s t : Text}

namespace Writes

theorem append (front : Writes subject items s) (back : Writes subject others t) :
    Writes subject (items ++ others) (s ++ t) := by
  unfold Writes at *
  rw [render_append, front, back]
  rfl

theorem item {first : Item} (text : itemText subject first = .ok t) :
    Writes subject [first] t := by
  simp [Writes, render, text]

theorem literal (c : Char) : Writes subject [.literal [c]] [c] := .item rfl

theorem blank (c : Char) : Writes subject [.blank [c]] [c] := .item rfl

theorem format {pattern : Text} (compiles : compile pattern = .ok items)
    (writes : Writes subject items t) : format subject pattern = .ok t := by
  rw [Pattern.format, compiles]
  exact writes

end Writes

section

variable {date : Date} (given : subject.date = some date)
include given

theorem writes_dateNumber {number : Number} (ofDate : number.ofTime = false)
    (other : number ≠ .timestamp) (natural : 0 ≤ dateNumber date number) :
    Writes subject [zeroPadded number]
      (Text.padded number.width (dateNumber date number).toNat) := by
  apply Writes.item
  simp [zeroPadded, itemText, numberOf, other, ofDate, Subject.needDate, given,
    numberText_zero _ natural]

theorem writes_year : Writes subject [zeroPadded .year] (Text.four date.year) := by
  obtain ⟨first, -⟩ := date.real
  exact writes_dateNumber given rfl (by decide) (show 0 ≤ date.year by omega)

theorem writes_month : Writes subject [zeroPadded .month] (Text.two date.month) := by
  obtain ⟨-, -, first, -⟩ := date.real
  exact writes_dateNumber given rfl (by decide) (show 0 ≤ date.month by omega)

theorem writes_day : Writes subject [zeroPadded .day] (Text.two date.day) := by
  obtain ⟨-, -, -, -, first, -⟩ := date.real
  exact writes_dateNumber given rfl (by decide) (show 0 ≤ date.day by omega)

theorem writes_date : Writes subject dateItems date.text :=
  ((((writes_year given).append (.literal '-')).append (writes_month given)).append
    (.literal '-')).append (writes_day given)

end

section

variable {time : Time} (given : subject.time = some time)
include given

theorem writes_timeNumber {number : Number} (ofTime : number.ofTime = true)
    (natural : 0 ≤ timeNumber time number) :
    Writes subject [zeroPadded number]
      (Text.padded number.width (timeNumber time number).toNat) := by
  have other : number ≠ .timestamp := by
    rintro rfl
    cases ofTime
  apply Writes.item
  simp [zeroPadded, itemText, numberOf, other, ofTime, Subject.needTime, given,
    numberText_zero _ natural]

theorem writes_clock : Writes subject clock time.clockText := by
  obtain ⟨hour, -, minute, -, second, -⟩ := time.inDay
  have shown : 0 ≤ time.shownSecond := by
    unfold Time.shownSecond
    split <;> omega
  have hours : Writes subject [zeroPadded .hour] (Text.two time.hour) :=
    writes_timeNumber given rfl hour
  have minutes : Writes subject [zeroPadded .minute] (Text.two time.minute) :=
    writes_timeNumber given rfl minute
  have seconds : Writes subject [zeroPadded .second] (Text.two time.shownSecond) :=
    writes_timeNumber given rfl shown
  exact (((hours.append (.literal ':')).append minutes).append (.literal ':')).append seconds

theorem writes_time : Writes subject timeItems time.text := by
  apply (writes_clock given).append
  apply Writes.item
  simp [itemText, formText, Subject.needTime, given]

end

theorem writes_reading {reading : Reading} (shows : Shows subject reading) :
    Writes subject readingItems reading.text := by
  obtain ⟨date, time⟩ := shows
  exact (writes_date date).append ((Writes.literal 'T').append (writes_time time))

theorem writes_offset {offset : Offset} (given : subject.offset = some offset) (colon : Bool) :
    Writes subject [.form (.offset colon)] (Offset.fullText colon offset.seconds) := by
  apply Writes.item
  simp [itemText, formText, Subject.needOffset, given]

end

end Pattern

namespace Zone

/-- A zone that has an offset at a moment has a name for it. -/
theorem abbreviation_refuses (zone : Zone) (utc : Reading) :
    Refuses (fun error => zone.offsetAtUtc utc = .error error) (zone.abbreviation utc) := by
  cases zone with
  | utc => trivial
  | fixed offset => trivial
  | custom provider => trivial
  | place site =>
    unfold abbreviation
    dsimp only
    split
    next =>
      change Refuses (fun error => site.offsetAtUtc utc = .error error) _
      cases asked : site.offsetAtUtc utc with
      | ok offset => trivial
      | error error => exact rfl
    next => trivial

end Zone

namespace Instant

open Pattern (Shows Writes instantItems mailItems)

theorem subject_ends (instant : Instant) :
    Ends (fun subject => Shows subject instant.wall ∧ subject.offset = some instant.offset)
      (fun error => instant.zone.offsetAtUtc instant.utc = .error error) instant.subject := by
  apply (instant.zone.abbreviation_refuses instant.utc).bind
  intro name _
  exact ⟨⟨rfl, rfl⟩, rfl⟩

section

variable {instant : Instant} {subject : Subject} (shows : Shows subject instant.wall)
  (east : subject.offset = some instant.offset)
include shows east

theorem writes_rfc3339 :
    Writes subject [.form .rfc3339] (instant.toRfc3339 .auto false) := by
  obtain ⟨date, time⟩ := shows
  apply Writes.item
  simp [Pattern.itemText, Pattern.formText, Subject.needDate, Subject.needTime, Subject.needOffset,
    date, time, east, Pattern.rfc3339Text, toRfc3339, Time.text]

theorem writes_timestamp (coherent : instant.Coherent) :
    Writes subject [.number .timestamp .none] (Text.decimalInt instant.timestamp) := by
  obtain ⟨date, time⟩ := shows
  obtain ⟨ahead, -⟩ := coherent
  have counted : Pattern.timestamp subject = .ok instant.timestamp := by
    have back : instant.wall.epochSecond - instant.offset.seconds = instant.timestamp := by
      rw [ahead, timestamp]
      omega
    simp [Pattern.timestamp, Subject.needDate, Subject.needTime, date, time, east, ← back]
  apply Writes.item
  simp [Pattern.itemText, Pattern.numberOf, counted, Pattern.numberText, Text.decimalInt]

theorem writes_text (elsewhere : instant.zone ≠ .utc) :
    Writes subject instantItems instant.text := by
  obtain ⟨date, time⟩ := shows
  have zone : instant.text =
      instant.wall.date.text ++ ([' '] ++ instant.wall.time.text)
        ++ ([' '] ++ Offset.fullText true instant.offset.seconds) := by
    unfold text
    split
    next utc => exact absurd utc elsewhere
    next => rfl
  rw [zone]
  apply Writes.append
  next =>
    apply (Pattern.writes_date date).append
    exact (Writes.blank ' ').append (Pattern.writes_time time)
  next => exact (Writes.blank ' ').append (Pattern.writes_offset east true)

theorem writes_rfc2822 (whole : instant.offset.Whole) :
    Writes subject mailItems instant.toRfc2822 := by
  obtain ⟨date, time⟩ := shows
  have weekday : Writes subject [.form .shortWeekday]
      (Calendar.short (Calendar.weekdayName instant.wall.date.weekdayIndex)) := by
    apply Writes.item
    simp [Pattern.itemText, Pattern.formText, Subject.needDate, date]
  have month : Writes subject [.form .shortMonth]
      (Calendar.short (Calendar.monthName instant.wall.date.month)) := by
    apply Writes.item
    simp [Pattern.itemText, Pattern.formText, Subject.needDate, date]
  have offset : Writes subject [.form (.offset false)]
      (Offset.minutesText false instant.offset.seconds) := by
    rw [← whole.fullText_eq]
    exact Pattern.writes_offset east false
  have day := Pattern.writes_day date
  have year := Pattern.writes_year date
  have clock := Pattern.writes_clock time
  simp only [toRfc2822, List.append_assoc]
  apply weekday.append
  apply (Writes.literal ',').append
  apply (Writes.blank ' ').append
  apply day.append
  apply (Writes.blank ' ').append
  apply month.append
  apply (Writes.blank ' ').append
  apply year.append
  apply (Writes.blank ' ').append
  apply clock.append
  exact (Writes.blank ' ').append offset

end

theorem format_writes {instant : Instant} {subject : Subject} {pattern t : Text}
    {items : List Pattern.Item} (seen : instant.subject = .ok subject)
    (compiles : Pattern.compile pattern = .ok items) (writes : Writes subject items t) :
    instant.format pattern = .ok t := by
  rw [format, seen, ok_bind]
  exact writes.format compiles

/-- Dates, times and readings are written in their own forms by these patterns, and so are the
instants that can be come by, leap seconds and all: as RFC 3339, as the seconds since the epoch, as
themselves unless they are in UTC, and as RFC 2822 unless there are seconds in the offset. Only an
instant whose zone raises an error for its moment is written by no pattern. -/
theorem format_eq_forms :
    (∀ date : Date, date.format (ofString "%F") = .ok date.text)
      ∧ (∀ time : Time, time.format (ofString "%T%.f") = .ok time.text)
      ∧ (∀ reading : Reading, reading.format (ofString "%FT%T%.f") = .ok reading.text)
      ∧ ∀ instant : Instant, Reachable instant →
        (instant.format (ofString "%+") = .ok (instant.toRfc3339 .auto false)
          ∧ instant.format (ofString "%s") = .ok (Text.decimalInt instant.timestamp)
          ∧ (instant.zone ≠ .utc →
            instant.format (ofString "%F %T%.f %:z") = .ok instant.text)
          ∧ (instant.offset.Whole →
            instant.format (ofString "%a, %d %b %Y %T %z") = .ok instant.toRfc2822))
        ∨ ∃ error, instant.zone.offsetAtUtc instant.utc = .error error
          ∧ ∀ pattern, instant.format pattern = .error error := by
  refine ⟨?_, ?_, ?_, ?_⟩
  next =>
    intro date
    exact (Pattern.writes_date rfl).format Pattern.compile_dateItems
  next =>
    intro time
    exact (Pattern.writes_time rfl).format Pattern.compile_timeItems
  next =>
    intro reading
    exact (Pattern.writes_reading ⟨rfl, rfl⟩).format Pattern.compile_readingItems
  next =>
    intro instant reachable
    have ends := instant.subject_ends
    cases seen : instant.subject with
    | error error =>
      refine .inr ⟨error, ends.allowed_of_error seen, fun pattern => ?_⟩
      rw [format, seen, error_bind]
    | ok subject =>
      obtain ⟨shows, east⟩ := ends.good_of_ok seen
      refine .inl ⟨?_, ?_, fun elsewhere => ?_, fun whole => ?_⟩
      next => exact format_writes seen Pattern.compile_strictForm (writes_rfc3339 shows east)
      next =>
        have written := writes_timestamp shows east reachable.coherent
        exact format_writes seen Pattern.compile_timestamp written
      next =>
        have written := writes_text shows east elsewhere
        exact format_writes seen Pattern.compile_instantItems written
      next =>
        have written := writes_rfc2822 shows east whole
        exact format_writes seen Pattern.compile_mailItems written

theorem format_eq_forms_twentyMinutesBehind :
    Reachable twentyMinutesBehind ∧ twentyMinutesBehind.zone ≠ .utc
      ∧ twentyMinutesBehind.offset.Whole
      ∧ twentyMinutesBehind.format (ofString "%s") = .ok (ofString "915149999")
      ∧ twentyMinutesBehind.format (ofString "%F %T%.f %:z") = .ok twentyMinutesBehind.text
      ∧ twentyMinutesBehind.format (ofString "%a, %d %b %Y %T %z") =
        .ok (ofString "Thu, 31 Dec 1998 23:59:60 -0020") := by
  have elsewhere : twentyMinutesBehind.zone ≠ .utc := by
    intro utc
    cases utc
  have whole : twentyMinutesBehind.offset.Whole := by decide
  have stamp : Text.decimalInt twentyMinutesBehind.timestamp = ofString "915149999" := by
    decide +kernel
  have mail : twentyMinutesBehind.toRfc2822 = ofString "Thu, 31 Dec 1998 23:59:60 -0020" := by
    decide +kernel
  obtain ⟨-, -, -, instants⟩ := format_eq_forms
  rcases instants twentyMinutesBehind reachable_twentyMinutesBehind with
    ⟨-, seconds, text, rfc2822⟩ | ⟨error, raised, -⟩
  next =>
    exact ⟨reachable_twentyMinutesBehind, elsewhere, whole, stamp ▸ seconds, text elsewhere,
      mail ▸ rfc2822 whole⟩
  next => cases raised

section

open Tzif (LocalType Designates File Table)

def nameless (offset : Int) : LocalType := ⟨offset, 0, 0, []⟩

def strayTable : Table where
  firstType := nameless 3600
  otherTypes := [nameless 0, nameless 90000]
  switches := [⟨978307200, 1, by decide⟩, ⟨978309000, 2, by decide⟩]
  chars := [0]
  offsets := by decide
  named := by
    have designated : Designates [0] 0 [] := ⟨[], [], rfl, rfl, by decide⟩
    simp only [List.forall_mem_cons]
    exact ⟨designated, designated, designated, List.forall_mem_nil _⟩
  typeCount := ⟨by decide, by decide⟩
  switchCount := ⟨by decide, by decide⟩
  charCount := ⟨by decide, by decide⟩

def strayFile : File := .first strayTable Tzif.bare (by decide)

def strayPlace : Place where
  rules := .ofTransitions none ⟨3600, []⟩ [(978307200, ⟨0, []⟩), (978309000, ⟨90000, []⟩)] none
  source := none

def strayMoment : Instant where
  utc := ⟨⟨2001, 1, 1, by decide⟩, ⟨0, 40, 0, 0, by decide⟩⟩
  wall := ⟨⟨2001, 1, 1, by decide⟩, ⟨0, 40, 0, 0, by decide⟩⟩
  offset := .zero
  zone := .place strayPlace

/-- Clocks show it the second time, and by then the zone is 25 hours ahead in UTC, which is no offset
and has no name. -/
theorem format_not_toRfc3339 :
    Place.ofTzif none strayFile.bytes = .ok strayPlace
      ∧ Reachable strayMoment
      ∧ strayMoment.toRfc3339 .auto false = ofString "2001-01-01T00:40:00+00:00"
      ∧ strayMoment.format (ofString "%+") = .error (.zoneOffset 90000 (ofString "<unnamed>"))
      ∧ ¬ ∀ instant, Reachable instant →
        instant.format (ofString "%+") = .ok (instant.toRfc3339 .auto false) := by
  have read : Place.ofTzif none strayFile.bytes = .ok strayPlace := by
    rw [Place.ofTzif, Tzif.parse_layout]
    rfl
  have resolved : strayMoment.zone.offsetsAtWall strayMoment.wall =
      .ok (.ambiguous ⟨3600, by decide⟩ .zero) := by decide +kernel
  have made : (Source.atWall strayMoment.wall strayMoment.zone (ofString "later")).run =
      .ok [strayMoment] := by
    have earlier : strayMoment.wall.shift? (-3600) =
        some ⟨⟨2000, 12, 31, by decide⟩, ⟨23, 40, 0, 0, by decide⟩⟩ := by decide
    have later : strayMoment.wall.shift? (-Offset.zero.seconds) = some strayMoment.utc := by decide
    rw [Source.run, Reading.inZone, Zone.instantsAt, resolved, ok_bind]
    simp only [Resolution.filterMap, ofWall?, earlier, later]
    rfl
  have reachable : Reachable strayMoment := .made made (.head _)
  have nameless : strayMoment.zone.abbreviation strayMoment.utc =
      .error (.zoneOffset 90000 (ofString "<unnamed>")) := by decide +kernel
  have raised : strayMoment.format (ofString "%+") =
      .error (.zoneOffset 90000 (ofString "<unnamed>")) := by
    rw [format, subject, nameless]
    rfl
  refine ⟨read, reachable, by decide +kernel, raised, fun always => ?_⟩
  have written := always strayMoment reachable
  rw [raised] at written
  cases written

end

end Instant

end ZonedTime
