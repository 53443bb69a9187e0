import ZonedTime.Proofs.Pattern.FixedForms

set_option autoImplicit false

namespace ZonedTime

open Text (ofString)

namespace Fields

variable {fields : Fields} {n : Int}

theorem stampDate_gives (fields : Fields) (n : Int) :
    Gives (fun date => date.dayNumber = fields.stampSecond n / 86400 + Calendar.epochDay)
      (fields.stampDate n) := by
  unfold stampDate
  cases found : Date.ofDayNumber? (fields.stampSecond n / 86400 + Calendar.epochDay) with
  | none => trivial
  | some date => exact Date.ofDayNumber?_eq_some.mp found

/-- Other fields of a date can refuse the timestamp, but not change it. -/
theorem date_stamped (stated : fields.get .timestamp = some n) :
    Gives (fun date => date.dayNumber = fields.stampSecond n / 86400 + Calendar.epochDay)
      fields.date := by
  unfold date
  simp only [stated]
  refine (gives_any _).bind fun built _ => ?_
  refine (fields.stampDate_gives n).bind fun stamped place => ?_
  split
  next => exact place
  next => trivial

theorem clock_stamped (stated : fields.get .timestamp = some n) :
    Gives (fun clock => 3600 * clock.hour + 60 * clock.minute + clock.second =
      fields.stampSecond n % 86400) fields.clock := by
  have stamped : Gives (fun clock => 3600 * clock.hour + 60 * clock.minute + clock.second =
      fields.stampSecond n % 86400) (fields.stampClock n) := by
    refine (gives_any _).bind fun _ _ => ?_
    change 3600 * (_ / 3600) + 60 * (_ % 3600 / 60) + _ % 60 = _
    omega
  unfold clock
  simp only [stated]
  refine (gives_any _).bind fun built _ => ?_
  refine stamped.bind fun clock place => ?_
  cases built with
  | none => exact place
  | some other =>
    dsimp only
    split
    next same =>
      simp only [Clock.sameSecond, Bool.and_eq_true, beq_iff_eq] at same
      obtain ⟨⟨hour, minute⟩, second⟩ := same
      change 3600 * other.hour + 60 * other.minute + other.second = _
      rw [hour, minute, second, place]
    next => trivial

theorem reading_stamped (stated : fields.get .timestamp = some n) :
    Gives (fun wall => wall.epochSecond = n + (fields.get .offset).getD 0) fields.reading := by
  refine (date_stamped stated).bind fun date day => ?_
  have time : Gives (fun time => time.secondOfDay = fields.stampSecond n % 86400) fields.time := by
    refine (clock_stamped stated).bind fun clock place => ?_
    unfold Time.ofClock
    split
    next => exact place
    next =>
      split
      next => trivial
      next => split <;> trivial
  refine time.bind fun time second => ?_
  change (Reading.mk date time).epochSecond = fields.stampSecond n
  simp only [Reading.epochSecond_eq, Calendar.epochDay] at day ⊢
  omega

end Fields

theorem Zone.instantsAt_wall (zone : Zone) (wall : Reading) :
    Gives (fun candidates => ∀ instant ∈ candidates.toList,
      instant.Coherent ∧ instant.wall = wall) (zone.instantsAt wall) := by
  refine (zone.instantsAt_made wall).gives.imp fun candidates each instant member => ?_
  obtain ⟨offset, made⟩ := each instant member
  have coherent := Instant.ofWall?_coherent made
  obtain ⟨utc, -, rfl⟩ := Option.map_eq_some_iff.mp made
  exact ⟨coherent, rfl⟩

theorem Zone.parse_stamped (zone : Zone) {t pattern : Text} {fields : Fields} {n : Int}
    (parsed : Pattern.parse t pattern = .ok fields) (stated : fields.get .timestamp = some n) :
    Gives (fun instant => instant.timestamp =
      if (fields.get .offset).isSome then n else n - instant.offset.seconds)
      (zone.parse t pattern) := by
  rw [Zone.parse, parsed, ok_bind]
  refine (Fields.reading_stamped stated).bind fun wall second => ?_
  refine (zone.instantsAt_wall wall).bind fun candidates shown => ?_
  have moment : ∀ instant ∈ candidates.toList,
      instant.timestamp = n + (fields.get .offset).getD 0 - instant.offset.seconds := by
    intro instant member
    obtain ⟨⟨ahead, -⟩, same⟩ := shown instant member
    rw [same, second] at ahead
    rw [Instant.timestamp]
    omega
  cases offset : fields.get .offset with
  | some seconds =>
    dsimp only
    cases found : candidates.toList.find? fun instant => instant.offset.seconds == seconds with
    | none => trivial
    | some instant =>
      have place := moment instant (List.mem_of_find?_eq_some found)
      have same : instant.offset.seconds = seconds := by
        simpa using List.find?_some found
      change instant.timestamp = n
      rw [place, offset, Option.getD_some, same]
      omega
  | none =>
    cases candidates with
    | single instant =>
      have place := moment instant (.head _)
      change instant.timestamp = n - instant.offset.seconds
      rw [place, offset, Option.getD_none, Int.add_zero]
    | skipped => trivial
    | ambiguous earlier later => trivial

namespace Pattern

theorem reads_signedNumber {n : Int} (small : n.natAbs < 10 ^ 20) {rest : Text}
    (ends : NoDigit rest) : Reads signedNumber (Text.decimalInt n ++ rest) n rest := by
  obtain ⟨c, tail, same, digit⟩ := Text.decimal_head n.natAbs
  have noSign {sign : Char} (other : sign.isDigit = false) :
      Reads (Scan.optional sign) (Text.decimal n.natAbs ++ rest) false
        (Text.decimal n.natAbs ++ rest) := by
    apply Scan.reads_noOptional
    rw [same]
    rintro _ ⟨⟩
    rw [beq_eq_false_iff_ne]
    rintro rfl
    rw [digit] at other
    cases other
  have size (negative : Bool) (signed : (if negative then -(n.natAbs : Int) else n.natAbs) = n) :
      Reads (do
        let size : Int := Text.value (<- Scan.digits 1 20)
        return if negative then -size else size) (Text.decimal n.natAbs ++ rest) n rest := by
    have some : 1 ≤ (Text.decimal n.natAbs).length := by simp [same]
    have digits := Scan.reads_digits (Text.isDigits_decimal _) some
      (Text.decimal_length_le (by decide) small) (.inr ends)
    have read := digits.andThen (f := fun digits =>
      if negative then -(Text.value digits : Int) else Text.value digits)
    rw [Text.value_decimal, signed] at read
    exact read
  unfold Text.decimalInt signedNumber
  by_cases below : n < 0
  next =>
    rw [if_pos below]
    apply Reads.bind (Scan.reads_optional '-' _)
    apply size true
    simp only [if_true]
    omega
  next =>
    rw [if_neg below]
    apply Reads.bind (noSign rfl)
    apply Reads.bind (noSign rfl)
    apply size false
    simp only [Bool.false_eq_true, if_false]
    omega

def momentPattern : Text := ofString "%s %f"

def nanoItems : List Item := [blank ' ', zeroPadded .nanosecond]

theorem compile_momentPattern :
    compile momentPattern = .ok (.number .timestamp .none :: nanoItems) := by decide +kernel

theorem nanoItems_plain : ∀ item ∈ nanoItems, item.plain := by decide

theorem nanoItems_written (reading : Reading) :
    nanoItems.flatMap (written reading) =
      ' ' :: Text.padded 9 (reading.time.nano % 1000000000).toNat := by
  change [' '] ++ (Text.padded 9 (reading.time.nano % 1000000000).toNat ++ []) = _
  rw [List.append_nil]
  rfl

def momentText (utc : Reading) : Text :=
  Text.decimalInt utc.epochSecond ++ nanoItems.flatMap (written utc)

theorem parse_momentText (utc : Reading) :
    parse (momentText utc) momentPattern = .ok (.known utc [.nanosecond, .timestamp]) := by
  have small : utc.epochSecond.natAbs < 10 ^ 20 := by
    have bounds := utc.epochSecond_bounds
    rw [Reading.first_epochSecond, Reading.last_epochSecond] at bounds
    omega
  have stamp : Reads (item (.number .timestamp .none)) (momentText utc)
      (utc.statements [.timestamp]) (nanoItems.flatMap (written utc)) := by
    apply scanned_reads
    exact (reads_signedNumber small (noDigit_cons (by decide))).bind (.lift rfl _)
  have put : Fields.ofIssue ((Fields.known utc []).setAll (utc.statements [.timestamp])) =
      .ok (.known utc [.timestamp]) := by
    rw [Fields.setAll_known]
    rfl
  have rest : Reads (gather (.known utc [.timestamp]) (nanoItems ++ []))
      (nanoItems.flatMap (written utc)) (.known utc [.nanosecond, .timestamp]) [] := by
    have place : From (nanoItems.flatMap (written utc)) (nanoItems.flatMap (written utc) ++ []) :=
      .inl (List.append_nil _).symm
    apply gather_written utc nanoItems_plain [.timestamp] place
    rintro after (rfl | rfl)
    next => exact .pure _ _
    next => exact .pure _ _
  have reads : Reads (gather .empty (.number .timestamp .none :: nanoItems)) (momentText utc)
      (.known utc [.nanosecond, .timestamp]) [] := by
    rw [← Fields.known_nil utc]
    exact stamp.bind (Reads.bind (.lift put _) rest)
  unfold Reads at reads
  simp only [parse, compile_momentPattern, ok_bind, read, reads]
  rfl

end Pattern

namespace Fields

theorem moment_reading {utc : Reading} (fraction : IsFraction utc.time.nano) :
    (known utc [.nanosecond, .timestamp]).reading = .ok utc := by
  have stated : (known utc [.nanosecond, .timestamp]).get .timestamp = some utc.epochSecond := rfl
  have second : (known utc [.nanosecond, .timestamp]).stampSecond utc.epochSecond =
      utc.epochSecond := Int.add_zero _
  have inDay := utc.time.secondOfDay_bounds
  have place : utc.epochSecond % 86400 = utc.time.secondOfDay := by
    rw [Reading.epochSecond_eq]
    omega
  have stampDate : (known utc [.nanosecond, .timestamp]).stampDate utc.epochSecond =
      .ok utc.date := by
    have day : Date.ofDayNumber? (utc.epochSecond / 86400 + Calendar.epochDay) =
        some utc.date := by
      rw [Date.ofDayNumber?_eq_some, Reading.epochSecond_eq, Calendar.epochDay]
      omega
    rw [Fields.stampDate, second, day, orOutOfRange]
  have stampClock : (known utc [.nanosecond, .timestamp]).stampClock utc.epochSecond =
      .ok ⟨utc.time.hour, utc.time.minute, utc.time.second, utc.time.nano⟩ := by
    obtain ⟨firstHour, _, firstMinute, _, firstSecond, _⟩ := utc.time.inDay
    have hour : utc.time.secondOfDay / 3600 = utc.time.hour := by
      unfold Time.secondOfDay
      omega
    have minute : utc.time.secondOfDay % 3600 / 60 = utc.time.minute := by
      unfold Time.secondOfDay
      omega
    have last : utc.time.secondOfDay % 60 = utc.time.second := by
      unfold Time.secondOfDay
      omega
    have nano : ((known utc [.nanosecond, .timestamp]).get .nanosecond).getD 0 =
        utc.time.nano := by
      obtain ⟨first, below⟩ := fraction
      change utc.time.nano % 1000000000 = utc.time.nano
      omega
    simp [Fields.stampClock, stampDate, second, place, hour, minute, last, nano]
  have date : (known utc [.nanosecond, .timestamp]).date = .ok utc.date := by
    have unbuilt : (known utc [.nanosecond, .timestamp]).fieldDate = .ok none := rfl
    simp [Fields.date, unbuilt, stated, stampDate]
  have time : (known utc [.nanosecond, .timestamp]).time = .ok utc.time := by
    have unbuilt : ofIssue (known utc [.nanosecond, .timestamp]).fieldClock = .ok none := rfl
    simp [Fields.time, clock, unbuilt, stated, stampClock, Time.ofClock_fields]
  simp [reading, date, time]

end Fields

namespace Zone

variable {zone : Zone} {offset : Offset}

theorem instantsAt_constant (constant : zone.constant? = some offset) (wall : Reading) :
    zone.instantsAt wall =
      .ok (match Instant.ofWall? wall offset zone with
        | some instant => .single instant
        | none => .skipped) := by
  simp only [instantsAt, offsetsAtWall_constant constant, ok_bind, Resolution.filterMap]
  cases Instant.ofWall? wall offset zone with
  | some instant => rfl
  | none => rfl

theorem parse_momentText (constant : zone.constant? = some offset) {utc : Reading}
    (fraction : IsFraction utc.time.nano) :
    zone.parse (Pattern.momentText utc) Pattern.momentPattern =
      match Instant.ofWall? utc offset zone with
      | some instant => .ok instant
      | none => .error (.issue .impossible (some (Pattern.momentText utc))) := by
  have unstated : (Fields.known utc [.nanosecond, .timestamp]).get .offset = none := rfl
  rw [parse, Pattern.parse_momentText, ok_bind, Fields.moment_reading fraction, ok_bind,
    instantsAt_constant constant, ok_bind, unstated]
  cases Instant.ofWall? utc offset zone with
  | some instant => rfl
  | none => rfl

/-- Going back to UTC from a wall on which the moment's own reading in UTC was taken to be shown
misses the moment by the offset. -/
theorem parse_momentText_eq_iff (constant : zone.constant? = some offset) {instant : Instant}
    (fraction : IsFraction instant.utc.time.nano) :
    (∃ parsed, zone.parse (Pattern.momentText instant.utc) Pattern.momentPattern = .ok parsed
        ∧ parsed.eq instant = true) ↔ offset.seconds = 0 := by
  rw [parse_momentText constant fraction]
  constructor
  next =>
    rintro ⟨parsed, read, same⟩
    cases made : Instant.ofWall? instant.utc offset zone with
    | none =>
      rw [made] at read
      cases read
    | some other =>
      rw [made] at read
      cases read
      obtain ⟨utc, shifted, rfl⟩ := Option.map_eq_some_iff.mp made
      have moved := (Reading.shift?_eq_some.mp shifted).1
      have unmoved : utc = instant.utc := beq_iff_eq.mp same
      rw [unmoved] at moved
      omega
  next =>
    intro zero
    have still : instant.utc.shift? (-offset.seconds) = some instant.utc := by
      simp [Reading.shift?, zero]
    refine ⟨⟨instant.utc, instant.utc, offset, zone⟩, ?_, beq_self_eq_true _⟩
    simp [Instant.ofWall?, still]

end Zone

namespace Instant

open Pattern (momentPattern momentText)

theorem format_momentPattern {instant : Instant} {offset : Offset} (coherent : instant.Coherent)
    (constant : instant.zone.constant? = some offset) :
    instant.format momentPattern = .ok (momentText instant.utc) := by
  have ends := instant.subject_ends
  cases seen : instant.subject with
  | error error =>
    have raised := ends.allowed_of_error seen
    rw [Zone.offsetAtUtc_constant constant] at raised
    cases raised
  | ok subject =>
    obtain ⟨shows, east⟩ := ends.good_of_ok seen
    have stamp := writes_timestamp shows east coherent
    have nanos : Pattern.Writes subject Pattern.nanoItems
        (Pattern.nanoItems.flatMap (Pattern.written instant.utc)) := by
      have written := Pattern.render_shown shows Pattern.nanoItems_plain
        (show Pattern.render subject [] = .ok [] from rfl)
      rwa [List.append_nil, List.append_nil, Pattern.nanoItems_written, coherent.2,
        ← Pattern.nanoItems_written] at written
    exact format_writes seen Pattern.compile_momentPattern (stamp.append nanos)

end Instant

namespace Zone

open Pattern (momentPattern momentText)

/-- A text with a timestamp is read in a zone as the instant of that timestamp if it states an
offset too, or if the zone is at the offset zero then. If not, the timestamp counts as seconds of
the wall, and the instant comes earlier by its offset. At a constant offset the text of a moment is
read as what the wall shows when it shows the moment's reading in UTC. -/
theorem parse_timestamp (zone : Zone) :
    (∀ (t pattern : Text) (fields : Fields) (n : Int) (instant : Instant),
      Pattern.parse t pattern = .ok fields → fields.get .timestamp = some n →
      zone.parse t pattern = .ok instant →
        (instant.timestamp = n ↔ (fields.get .offset).isSome ∨ instant.offset.seconds = 0)
        ∧ (fields.get .offset = none → instant.timestamp = n - instant.offset.seconds))
    ∧ ∀ (instant : Instant) (offset : Offset), instant.Reachable → instant.zone = zone →
      zone.constant? = some offset → IsFraction instant.utc.time.nano →
        ∃ t, instant.format momentPattern = .ok t
          ∧ ((∃ parsed, zone.parse t momentPattern = .ok parsed ∧ parsed.eq instant = true) ↔
            offset.seconds = 0)
          ∧ zone.parse t momentPattern =
            match Instant.ofWall? instant.utc offset zone with
            | some other => .ok other
            | none => .error (.issue .impossible (some t)) := by
  constructor
  next =>
    intro t pattern fields n instant parsed stated read
    have place := (zone.parse_stamped parsed stated).good_of_ok read
    cases offset : fields.get .offset with
    | some seconds =>
      rw [offset, Option.isSome_some, if_pos rfl] at place
      simp [place]
    | none =>
      rw [offset, Option.isSome_none, if_neg Bool.false_ne_true] at place
      simp only [Option.isSome_none, Bool.false_eq_true, false_or]
      exact ⟨by omega, fun _ => place⟩
  next =>
    rintro instant offset reachable rfl constant fraction
    exact ⟨momentText instant.utc, instant.format_momentPattern reachable.coherent constant,
      parse_momentText_eq_iff constant fraction, parse_momentText constant fraction⟩

end Zone

namespace Instant

open Pattern (momentPattern momentText)

def billionth : Instant where
  utc := ⟨⟨2001, 9, 9, by decide⟩, ⟨1, 46, 40, 0, by decide⟩⟩
  wall := ⟨⟨2001, 9, 9, by decide⟩, ⟨7, 16, 40, 0, by decide⟩⟩
  offset := ⟨19800, by decide⟩
  zone := .fixed ⟨19800, by decide⟩

def beforeBillionth : Instant where
  utc := ⟨⟨2001, 9, 8, by decide⟩, ⟨20, 16, 40, 0, by decide⟩⟩
  wall := ⟨⟨2001, 9, 9, by decide⟩, ⟨1, 46, 40, 0, by decide⟩⟩
  offset := ⟨19800, by decide⟩
  zone := .fixed ⟨19800, by decide⟩

theorem reachable_billionth : Reachable billionth := by
  have made : (Source.atOffset billionth.wall billionth.offset).run = .ok [billionth] := rfl
  exact .made made (.head _)

theorem ofWall?_beforeBillionth :
    ofWall? billionth.utc billionth.offset billionth.zone = some beforeBillionth := by
  have shifted : billionth.utc.shift? (-billionth.offset.seconds) = some beforeBillionth.utc := by
    decide
  rw [ofWall?, shifted]
  rfl

theorem parse_timestamp_billionth :
    Reachable billionth ∧ billionth.zone.constant? = some billionth.offset
      ∧ IsFraction billionth.utc.time.nano
      ∧ ∃ t, billionth.format momentPattern = .ok t
        ∧ billionth.zone.parse t momentPattern = .ok beforeBillionth
        ∧ beforeBillionth.timestamp = billionth.timestamp - 19800
        ∧ ¬ ∃ parsed, billionth.zone.parse t momentPattern = .ok parsed
          ∧ parsed.eq billionth = true := by
  have constant : billionth.zone.constant? = some billionth.offset := rfl
  have fraction : IsFraction billionth.utc.time.nano := isFraction_zero
  obtain ⟨stamped, moments⟩ := billionth.zone.parse_timestamp
  obtain ⟨t, written, same, read⟩ :=
    moments billionth billionth.offset reachable_billionth rfl constant fraction
  rw [ofWall?_beforeBillionth] at read
  have states : Pattern.parse t momentPattern =
      .ok (.known billionth.utc [.nanosecond, .timestamp]) := by
    rw [format_momentPattern reachable_billionth.coherent constant] at written
    cases written
    exact Pattern.parse_momentText billionth.utc
  have early := (stamped t momentPattern _ _ beforeBillionth states rfl read).2 rfl
  refine ⟨reachable_billionth, constant, fraction, t, written, read, early, ?_⟩
  rw [same]
  decide

theorem billionth_not_parsed :
    Reachable billionth ∧ billionth.zone = .fixed ⟨19800, by decide⟩
      ∧ IsFraction billionth.utc.time.nano
      ∧ billionth.format momentPattern = .ok (Text.ofString "1000000000 000000000")
      ∧ billionth.zone.parse (Text.ofString "1000000000 000000000") momentPattern =
        .ok beforeBillionth
      ∧ beforeBillionth.timestamp = 999980200 ∧ beforeBillionth.eq billionth = false := by
  have constant : billionth.zone.constant? = some billionth.offset := rfl
  have fraction : IsFraction billionth.utc.time.nano := isFraction_zero
  have text : momentText billionth.utc = Text.ofString "1000000000 000000000" := by decide +kernel
  have written := format_momentPattern reachable_billionth.coherent constant
  have read := Zone.parse_momentText constant fraction
  rw [text] at written
  rw [text, ofWall?_beforeBillionth] at read
  exact ⟨reachable_billionth, rfl, fraction, written, read, by decide, by decide⟩

end Instant

end ZonedTime
