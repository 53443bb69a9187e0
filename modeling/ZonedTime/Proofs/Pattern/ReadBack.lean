import Mathlib.Data.List.DropRight
import ZonedTime.Pattern.Render
import ZonedTime.Proofs.Pattern.Known
import ZonedTime.Proofs.Text.Scanning

set_option autoImplicit false

namespace ZonedTime

namespace Pattern

def Number.slots : Number -> List Slot
  | .year => [.year]
  | .century => [.century]
  | .yearOfCentury => [.yearOfCentury]
  | .isoYear => [.isoYear]
  | .isoYearOfCentury => [.isoYearOfCentury]
  | .month => [.month]
  | .day => [.day]
  | .weekFromSunday => [.weekFromSunday]
  | .weekFromMonday => [.weekFromMonday]
  | .isoWeek => [.isoWeek]
  | .daysFromSunday => [.weekday]
  | .weekdayFromMonday => [.weekday]
  | .yearDay => [.yearDay]
  | .hour => [.half, .hourOfHalf]
  | .hour12 => [.hourOfHalf]
  | .minute => [.minute]
  | .second => [.second]
  | .nanosecond => [.nanosecond]
  | .timestamp => [.timestamp]

theorem Number.width_pos (kind : Number) : 0 < kind.width := by
  cases kind <;> decide

def numberAt (reading : Reading) (kind : Number) : Int :=
  if kind = .timestamp then reading.epochSecond
  else if kind.ofTime then timeNumber reading.time kind
  else dateNumber reading.date kind

section

variable {reading : Reading} {kind : Number}

def Shows (subject : Subject) (reading : Reading) : Prop :=
  subject.date = some reading.date ∧ subject.time = some reading.time

theorem numberOf_shown {subject : Subject} (shows : Shows subject reading)
    (other : kind ≠ .timestamp) : numberOf subject kind = .ok (numberAt reading kind) := by
  obtain ⟨date, time⟩ := shows
  cases kind with
  | timestamp => exact absurd rfl other
  | _ => simp [numberOf, numberAt, Number.ofTime, Subject.needDate, Subject.needTime, date, time]

def Number.range : Number -> Int × Int
  | .year | .isoYear => (1, 9999)
  | .century | .yearOfCentury | .isoYearOfCentury => (0, 99)
  | .month | .hour12 => (1, 12)
  | .day => (1, 31)
  | .weekFromSunday | .weekFromMonday => (0, 53)
  | .isoWeek => (1, 53)
  | .daysFromSunday => (0, 6)
  | .weekdayFromMonday => (1, 7)
  | .yearDay => (1, 366)
  | .hour => (0, 23)
  | .minute => (0, 59)
  | .second => (0, 60)
  | .nanosecond | .timestamp => (0, 999999999)

theorem numberAt_inRange (reading : Reading) (other : kind ≠ .timestamp) :
    kind.range.1 ≤ numberAt reading kind ∧ numberAt reading kind ≤ kind.range.2 := by
  obtain ⟨firstYear, lastYear, firstMonth, lastMonth, firstDay, -⟩ := reading.date.real
  obtain ⟨firstHour, lastHour, firstMinute, lastMinute, firstSecond, lastSecond⟩ :=
    reading.time.inDay
  have lastDay := reading.date.day_le
  have isoYear := reading.date.isoYear_bounds
  have isoWeek := reading.date.isoWeek_bounds
  have weekday := reading.date.weekdayIndex_bounds
  have yearDay := reading.date.yearDay_bounds
  have days := Calendar.daysInYear_bounds reading.date.year
  have sunday := reading.date.weekOfYear_bounds 6
  have monday := reading.date.weekOfYear_bounds 0
  have second := reading.time.shownSecond_bounds
  cases kind with
  | timestamp => exact absurd rfl other
  | _ =>
    simp only [numberAt, Number.ofTime, dateNumber, timeNumber, Number.range, reduceCtorEq,
      Bool.false_eq_true, if_true, if_false]
    omega

theorem numberAt_bounds (reading : Reading) (other : kind ≠ .timestamp) :
    0 ≤ numberAt reading kind ∧ (numberAt reading kind).toNat < 10 ^ kind.width := by
  obtain ⟨first, last⟩ := numberAt_inRange reading other
  have start : 0 ≤ kind.range.1 := by cases kind <;> decide
  have width : kind.range.2 < (10 ^ kind.width : Nat) := by
    cases kind with
    | timestamp => exact absurd rfl other
    | _ => decide
  omega

theorem numberFields_at (reading : Reading) (kind : Number) :
    numberFields (numberAt reading kind) kind = .ok (reading.statements kind.slots) := by
  by_cases timestamp : kind = .timestamp
  next =>
    subst timestamp
    rfl
  next =>
    have range := numberAt_inRange reading timestamp
    cases kind with
    | timestamp => exact absurd rfl timestamp
    | nanosecond => rfl
    | hour12 =>
      have twelve : numberAt reading .hour12 % 12 = reading.time.hour % 12 := by
        simp only [numberAt, Number.ofTime, timeNumber, reduceCtorEq, if_true, if_false]
        split <;> omega
      refine (if_pos range).trans ?_
      rw [twelve]
      rfl
    | daysFromSunday =>
      have weekday := reading.date.weekdayIndex_bounds
      have turned : (numberAt reading .daysFromSunday - 1) % 7 = reading.date.weekdayIndex := by
        simp only [numberAt, Number.ofTime, dateNumber, reduceCtorEq, Bool.false_eq_true, if_false]
        omega
      refine (if_pos range).trans ?_
      rw [turned]
      rfl
    | weekdayFromMonday =>
      have counted : numberAt reading .weekdayFromMonday - 1 = reading.date.weekdayIndex := by
        simp [numberAt, Number.ofTime, dateNumber]
      refine (if_pos range).trans ?_
      rw [counted]
      rfl
    | _ => exact if_pos range

theorem numberText_zero (width : Nat) {n : Int} (natural : 0 ≤ n) :
    numberText width .zero n = Text.padded width n.toNat := by
  have size : n.natAbs = n.toNat := by omega
  simp [numberText, Text.padded, size, Int.not_lt.mpr natural]

theorem numberText_at (reading : Reading) (other : kind ≠ .timestamp) :
    numberText kind.width .zero (numberAt reading kind) =
      Text.padded kind.width (numberAt reading kind).toNat :=
  numberText_zero kind.width (numberAt_bounds reading other).1

theorem reads_numberValue (reading : Reading) (other : kind ≠ .timestamp) (rest : Text) :
    Reads (numberValue kind) (Text.padded kind.width (numberAt reading kind).toNat ++ rest)
      (numberAt reading kind) rest := by
  obtain ⟨first, small⟩ := numberAt_bounds reading other
  have positive := kind.width_pos
  have digits := Scan.reads_padded positive small positive rest
  by_cases nano : kind = .nanosecond
  next =>
    subst nano
    -- All nine digits are there.
    have value : Scan.nanosOfDigits (Text.padded Number.nanosecond.width
        (numberAt reading .nanosecond).toNat) = numberAt reading .nanosecond := by
      rw [Scan.nanosOfDigits_eq, Text.value_padded, Text.padded_length positive small]
      simp [Number.width, Int.toNat_of_nonneg first]
    have read := digits.andThen (f := Scan.nanosOfDigits)
    rwa [value] at read
  next =>
    have read := digits.andThen (f := fun digits => (Text.value digits : Int))
    rw [Text.value_padded, Int.toNat_of_nonneg first] at read
    cases kind with
    | nanosecond => exact absurd rfl nano
    | timestamp => exact absurd rfl other
    | _ => exact read

end

namespace Item

/-- The item is read to its own end: a number fills its width. -/
def plain : Item -> Bool
  | .literal text => text.head?.any fun c => !Text.isBlank c
  | .blank text => text.all Text.isBlank
  | .number kind padding => kind != .timestamp && padding == .zero
  | .form kind => kind == .lowerHalf || kind == .upperHalf

def slots : Item -> List Slot
  | .literal _ | .blank _ => []
  | .number kind _ => kind.slots
  | .form _ => [.half]

end Item

def written (reading : Reading) : Item -> Text
  | .literal text => text
  | .blank text => text
  | .number kind _ => Text.padded kind.width (numberAt reading kind).toNat
  | .form .lowerHalf => halfText reading.time "am" "pm"
  | .form _ => halfText reading.time "AM" "PM"

section

variable {reading : Reading} {first : Item} {items : List Item}

theorem itemText_written {subject : Subject} (shows : Shows subject reading)
    (plain : first.plain) : itemText subject first = .ok (written reading first) := by
  cases first with
  | literal text => rfl
  | blank text => rfl
  | number kind padding =>
    simp only [Item.plain, Bool.and_eq_true, bne_iff_ne, beq_iff_eq] at plain
    obtain ⟨other, rfl⟩ := plain
    simp [itemText, numberOf_shown shows other, numberText_at reading other, written]
  | form kind =>
    simp only [Item.plain, Bool.or_eq_true, beq_iff_eq] at plain
    obtain ⟨-, time⟩ := shows
    rcases plain with rfl | rfl
    next => simp [itemText, formText, Subject.needTime, time, written]
    next => simp [itemText, formText, Subject.needTime, time, written]

theorem render_shown {subject : Subject} (shows : Shows subject reading)
    (plain : ∀ item ∈ items, item.plain) {more : List Item} {rest : Text}
    (later : render subject more = .ok rest) :
    render subject (items ++ more) = .ok (items.flatMap (written reading) ++ rest) := by
  induction items with
  | nil => exact later
  | cons first others ih =>
    obtain ⟨here, there⟩ := List.forall_mem_cons.mp plain
    simp [render, itemText_written shows here, ih there]

theorem render_written (reading : Reading) (plain : ∀ item ∈ items, item.plain) :
    render reading.subject items = .ok (items.flatMap (written reading)) := by
  have shows : Shows reading.subject reading := ⟨rfl, rfl⟩
  have rendered := render_shown shows plain (show render reading.subject [] = .ok [] from rfl)
  simpa using rendered

theorem scanned_reads {α : Type} {scan : Scan α} {t rest : Text} {a : α}
    (reads : Reads scan t a rest) : Reads (scanned scan) t a rest := by
  unfold Reads at *
  change (scan.run t).mapError _ = _
  rw [reads]
  rfl

theorem half_reads (time : Time) (inDay : 0 ≤ time.hour ∧ time.hour < 24) (rest : Text) :
    Reads half (halfText time "am" "pm" ++ rest) (time.hour / 12) rest
      ∧ Reads half (halfText time "AM" "PM" ++ rest) (time.hour / 12) rest := by
  by_cases late : 12 ≤ time.hour
  next =>
    have second : time.hour / 12 = 1 := by omega
    simp only [halfText, late, if_true, second]
    exact ⟨rfl, rfl⟩
  next =>
    have earlier : time.hour / 12 = 0 := by omega
    simp only [halfText, late, if_false, earlier]
    exact ⟨rfl, rfl⟩

theorem literalText_reads (text rest : Text) : Reads (literalText text) (text ++ rest) () rest := by
  change literalText text (text ++ rest) = .ok ((), rest)
  simp [literalText]

theorem item_reads (plain : first.plain) (solid : ∀ text, first ≠ .blank text) (rest : Text) :
    Reads (item first) (written reading first ++ rest) (reading.statements first.slots) rest := by
  cases first with
  | literal text => exact scanned_reads ((literalText_reads text rest).bind (.pure [] rest))
  | blank text => exact absurd rfl (solid text)
  | number kind padding =>
    simp only [Item.plain, Bool.and_eq_true, bne_iff_ne, beq_iff_eq] at plain
    obtain ⟨other, rfl⟩ := plain
    apply scanned_reads
    exact (reads_numberValue reading other rest).bind (.lift (numberFields_at reading kind) rest)
  | form kind =>
    obtain ⟨first, last, -⟩ := reading.time.inDay
    obtain ⟨lower, upper⟩ := half_reads reading.time ⟨first, last⟩ rest
    simp only [Item.plain, Bool.or_eq_true, beq_iff_eq] at plain
    rcases plain with rfl | rfl
    next => exact scanned_reads lower.andThen
    next => exact scanned_reads upper.andThen

theorem dropBlanks_written (reading : Reading) (plain : first.plain)
    (solid : ∀ text, first ≠ .blank text) (rest : Text) :
    Text.dropBlanks (written reading first ++ rest) = written reading first ++ rest := by
  have begins : ∃ c tail, written reading first = c :: tail ∧ Text.isBlank c = false := by
    cases first with
    | literal text =>
      cases text with
      | nil => simp [Item.plain] at plain
      | cons c tail => exact ⟨c, tail, rfl, by simpa [Item.plain] using plain⟩
    | blank text => exact absurd rfl (solid text)
    | number kind padding =>
      simp only [Item.plain, Bool.and_eq_true, bne_iff_ne] at plain
      have short := (numberAt_bounds reading plain.1).2
      obtain ⟨c, tail, same, digit⟩ := Text.padded_head kind.width_pos short
      exact ⟨c, tail, same, Text.not_isBlank_of_isDigit digit⟩
    | form kind =>
      simp only [Item.plain, Bool.or_eq_true, beq_iff_eq] at plain
      rcases plain with rfl | rfl
      all_goals
        simp only [written, halfText]
        split
        next => exact ⟨_, _, rfl, rfl⟩
        next => exact ⟨_, _, rfl, rfl⟩
  obtain ⟨c, tail, same, other⟩ := begins
  simp [same, Text.dropBlanks, other]

/-- What an item leaves for the next one may begin with blanks, and it may not. -/
def From (start t : Text) : Prop := start = t ∨ start = Text.dropBlanks t

theorem item_reads_from (plain : first.plain) {start rest : Text}
    (place : From start (written reading first ++ rest)) :
    ∃ after, From after rest
      ∧ Reads (item first) start (reading.statements first.slots) after := by
  by_cases isBlank : ∃ text, first = .blank text
  next =>
    obtain ⟨text, rfl⟩ := isBlank
    have dropped : Text.dropBlanks start = Text.dropBlanks rest := by
      have blanks : Text.dropBlanks (text ++ rest) = Text.dropBlanks rest :=
        List.dropWhile_append_of_pos (List.all_eq_true.mp plain)
      rcases place with rfl | rfl
      next => exact blanks
      next => exact (List.dropWhile_idempotent ..).trans blanks
    refine ⟨Text.dropBlanks rest, .inr rfl, ?_⟩
    apply scanned_reads
    rw [← dropped]
    have skipped : Reads (skip Text.isBlank) start () (Text.dropBlanks start) := rfl
    exact skipped.bind (.pure [] _)
  next =>
    have solid (text : Text) : first ≠ .blank text := fun same => isBlank ⟨text, same⟩
    have same : start = written reading first ++ rest := by
      rcases place with rfl | rfl
      next => rfl
      next => exact dropBlanks_written reading plain solid rest
    rw [same]
    exact ⟨rest, .inl rfl, item_reads plain solid rest⟩

/-- Whatever the items stand next to each other, every one of them states what it was written
from. -/
theorem gather_written (reading : Reading) (plain : ∀ item ∈ items, item.plain)
    (slots : List Slot) {more : List Item} {start rest final : Text} {fields : Fields}
    (place : From start (items.flatMap (written reading) ++ rest))
    (later : ∀ after, From after rest →
      Reads (gather (.known reading ((items.flatMap Item.slots).reverse ++ slots)) more) after
        fields final) :
    Reads (gather (.known reading slots) (items ++ more)) start fields final := by
  induction items generalizing slots start with
  | nil => exact later start place
  | cons first others ih =>
    obtain ⟨here, there⟩ := List.forall_mem_cons.mp plain
    rw [List.flatMap_cons, List.append_assoc] at place
    obtain ⟨after, left, reads⟩ := item_reads_from here place
    have put : Fields.ofIssue
        ((Fields.known reading slots).setAll (reading.statements first.slots)) =
          .ok (.known reading (first.slots.reverse ++ slots)) := by
      rw [Fields.setAll_known]
      rfl
    rw [List.flatMap_cons, List.reverse_append, List.append_assoc] at later
    have remaining := ih there (first.slots.reverse ++ slots) left later
    exact reads.bind (Reads.bind (.lift put after) remaining)

theorem read_written (reading : Reading) (plain : ∀ item ∈ items, item.plain) :
    read items (items.flatMap (written reading)) =
      .ok (.known reading (items.flatMap Item.slots).reverse) := by
  have reads : Reads (gather (.known reading []) (items ++ []))
      (items.flatMap (written reading) ++ [])
      (.known reading ((items.flatMap Item.slots).reverse ++ [])) [] := by
    apply gather_written reading plain [] (.inl rfl)
    intro after left
    have empty : after = [] := by
      rcases left with rfl | rfl
      next => rfl
      next => rfl
    rw [empty]
    exact .pure _ []
  simp only [List.append_nil] at reads
  unfold Reads at reads
  simp only [read, ← Fields.known_nil reading, reads]
  rfl

end

end Pattern

end ZonedTime
