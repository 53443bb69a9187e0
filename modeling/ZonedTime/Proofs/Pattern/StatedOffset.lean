import ZonedTime.Proofs.Pattern.OffsetBack
import ZonedTime.Proofs.Written.LenientWords
import ZonedTime.Proofs.Zone.Place
import ZonedTime.Proofs.Zone.TzifLayout

set_option autoImplicit false

namespace ZonedTime

open Error (IsParse)

def Fields.Tells (fields : Fields) (offset : Offset) (wall utc : Reading) : Prop :=
  fields.reading = .ok wall ∧ wall.shift? (-offset.seconds) = some utc

def Zone.Shows (zone : Zone) (wall : Reading) (offset : Offset) : Prop :=
  ∃ offsets, zone.offsetsAtWall wall = .ok offsets ∧ offset ∈ offsets.toList

/-- An error with which a zone refuses a text: the text is at fault, or the zone has no offset that
it could give for the reading of the text. -/
def Zone.Rejects (zone : Zone) (t pattern : Text) (error : Error) : Prop :=
  error.IsParse ∨ error.kind = .provider
    ∧ ∃ wall, Reading.parse t pattern = .ok wall ∧ zone.offsetsAtWall wall = .error error

section

variable {t pattern : Text} {fields : Fields} {offset : Offset} {zone : Zone}

theorem Pattern.exists_stated {seconds : Int} (parsed : parse t pattern = .ok fields)
    (stated : fields.get .offset = some seconds) :
    ∃ offset : Offset, fields.get .offset = some offset.seconds := by
  have admitted := (parse_ends t pattern).good_of_ok parsed
  have bounds := admitted .offset seconds stated
  simp only [Slot.Admits, Slot.range] at bounds
  exact ⟨⟨seconds, by omega⟩, stated⟩

theorem Instant.ofWall?_eq_some {wall : Reading} {instant : Instant} :
    ofWall? wall offset zone = some instant ↔
      ∃ utc, wall.shift? (-offset.seconds) = some utc ∧ instant = ⟨utc, wall, offset, zone⟩ := by
  simp [ofWall?, eq_comm]

theorem Instant.find?_offset (offsets : List Offset) (wall : Reading) (offset : Offset)
    (zone : Zone) :
    (offsets.filterMap fun each => ofWall? wall each zone).find?
        (fun instant => instant.offset.seconds == offset.seconds) =
      if offset ∈ offsets then ofWall? wall offset zone else none := by
  induction offsets with
  | nil => rfl
  | cons first rest ih =>
    by_cases same : first = offset
    next =>
      subst same
      rw [if_pos (.head _)]
      cases made : ofWall? wall first zone with
      | none => simp only [List.filterMap_cons, made, ih, ite_self]
      | some instant =>
        obtain ⟨utc, -, rfl⟩ := ofWall?_eq_some.mp made
        simp only [List.filterMap_cons, made, List.find?_cons, beq_self_eq_true]
    next =>
      have other : (first.seconds == offset.seconds) = false := by
        rw [beq_eq_false_iff_ne]
        exact fun seconds => same (Offset.eq_of_seconds_eq seconds)
      have inRest : offset ∈ first :: rest ↔ offset ∈ rest := by simp [Ne.symm same]
      simp only [inRest, ← ih]
      cases made : ofWall? wall first zone with
      | none => simp only [List.filterMap_cons, made]
      | some instant =>
        obtain ⟨utc, -, rfl⟩ := ofWall?_eq_some.mp made
        simp only [List.filterMap_cons, made, List.find?_cons, other]

section

variable (parsed : Pattern.parse t pattern = .ok fields)
  (stated : fields.get .offset = some offset.seconds)

include parsed stated

theorem Instant.parseBy_stated {plain : Instant} :
    parseBy t pattern = .ok plain ↔
      ∃ wall utc, fields.Tells offset wall utc ∧ plain = ⟨utc, wall, offset, .fixed offset⟩ := by
  have found : Offset.ofSeconds offset.seconds = .ok offset := by
    rw [Offset.ofSeconds, Offset.ofSeconds?_eq_some.mpr rfl]
  rw [parseBy, parsed, ok_bind, stated]
  cases told : fields.reading with
  | error error => simp [Fields.Tells, told]
  | ok wall =>
    simp only [Fields.Tells, told, found, ok_bind, ofWall?]
    cases shifted : wall.shift? (-offset.seconds) with
    | none => simp [shifted]
    | some utc => simp [shifted, eq_comm (a := plain)]

theorem Zone.parse_stated {instant : Instant} :
    zone.parse t pattern = .ok instant ↔
      ∃ wall utc, fields.Tells offset wall utc ∧ zone.Shows wall offset
        ∧ instant = ⟨utc, wall, offset, zone⟩ := by
  rw [Zone.parse, parsed, ok_bind, stated]
  cases told : fields.reading with
  | error error => simp [Fields.Tells, told]
  | ok wall =>
    cases asked : zone.offsetsAtWall wall with
    | error error => simp [Fields.Tells, told, Shows, asked, instantsAt]
    | ok offsets =>
      simp only [Fields.Tells, told, Shows, asked, instantsAt, ok_bind, pure_eq_ok,
        Resolution.toList_filterMap, Instant.find?_offset]
      by_cases member : offset ∈ offsets.toList
      next =>
        rw [if_pos member]
        cases shifted : wall.shift? (-offset.seconds) with
        | none => simp [Instant.ofWall?, shifted]
        | some utc => simp [Instant.ofWall?, shifted, asked, member, eq_comm (a := instant)]
      next => simp [asked, member]

theorem Zone.parseBy_of_parse {instant : Instant}
    (read : zone.parse t pattern = .ok instant) :
    Instant.parseBy t pattern = .ok { instant with zone := .fixed instant.offset } := by
  obtain ⟨wall, utc, tells, -, rfl⟩ := (parse_stated parsed stated).mp read
  exact (Instant.parseBy_stated parsed stated).mpr ⟨wall, utc, tells, rfl⟩

theorem Zone.parse_fixed_of_parseBy {plain : Instant}
    (read : Instant.parseBy t pattern = .ok plain) :
    (Zone.fixed plain.offset).parse t pattern = .ok plain := by
  obtain ⟨wall, utc, tells, rfl⟩ := (Instant.parseBy_stated parsed stated).mp read
  have shows : (Zone.fixed offset).Shows wall offset := ⟨.single offset, rfl, .head _⟩
  exact (parse_stated parsed stated).mpr ⟨wall, utc, tells, shows, rfl⟩

theorem Zone.exists_parse_iff_shows {plain : Instant}
    (read : Instant.parseBy t pattern = .ok plain) :
    (∃ instant, zone.parse t pattern = .ok instant) ↔ zone.Shows plain.wall plain.offset := by
  obtain ⟨wall, utc, tells, rfl⟩ := (Instant.parseBy_stated parsed stated).mp read
  constructor
  next =>
    rintro ⟨instant, inZone⟩
    obtain ⟨other, _, told, shows, -⟩ := (parse_stated parsed stated).mp inZone
    have same : wall = other := Except.ok.inj (tells.1.symm.trans told.1)
    rw [same]
    exact shows
  next =>
    intro shows
    exact ⟨_, (parse_stated parsed stated).mpr ⟨wall, utc, tells, shows, rfl⟩⟩

end

namespace Zone

/-- The offsets of a place that are a day or more are all that a zone can stumble over. -/
theorem offsetsAtWall_provider (zone : Zone) (wall : Reading) :
    Refuses (fun error => error.kind = .provider) (zone.offsetsAtWall wall) := by
  cases zone with
  | utc => trivial
  | fixed offset => trivial
  | custom provider => trivial
  | place place =>
    have checked (seconds : Int) :
        Refuses (fun error => error.kind = .provider) (place.checkOffset seconds) := by
      unfold Place.checkOffset
      split
      next => trivial
      next => rfl
    change Refuses _ ((place.rules.offsetsAtWall wall.epochSecond).mapM place.checkOffset)
    cases place.rules.offsetsAtWall wall.epochSecond with
    | skipped => trivial
    | single seconds => exact (checked seconds).bind fun _ _ => trivial
    | ambiguous earlier later =>
      exact (checked earlier).bind fun _ _ => (checked later).bind fun _ _ => trivial

theorem parse_rejects (zone : Zone) (t pattern : Text) :
    Refuses (zone.Rejects t pattern) (zone.parse t pattern) := by
  unfold parse
  cases parsed : Pattern.parse t pattern with
  | error error => exact .inl ((Pattern.parse_ends t pattern).allowed_of_error parsed)
  | ok fields =>
    have admitted := (Pattern.parse_ends t pattern).good_of_ok parsed
    cases told : fields.reading with
    | error error =>
      simp only [ok_bind, told]
      exact .inl ((Fields.reading_ends admitted).allowed_of_error told)
    | ok wall =>
      have reading : Reading.parse t pattern = .ok wall := by
        rw [Reading.parse, parsed, ok_bind, told]
      cases asked : zone.offsetsAtWall wall with
      | error error =>
        have provider := (zone.offsetsAtWall_provider wall).allowed_of_error asked
        simp only [ok_bind, instantsAt, told, asked]
        exact .inr ⟨provider, wall, reading, asked⟩
      | ok offsets =>
        simp only [ok_bind, instantsAt, told, asked, pure_eq_ok]
        split
        next =>
          split
          next => trivial
          next => exact .inl rfl
        next => trivial
        next => exact .inl rfl
        next => exact .inl rfl

end Zone

/-- In any zone a text with a stated offset is read as the instant that it is without one, if it is
read at all: it is when the zone has that offset there, as the zone of that one offset has. What is
not read is refused as a text, or else because the zone is at a loss. -/
theorem Zone.parse_refines_parseBy (zone : Zone) (t pattern : Text) :
    (∀ (fields : Fields) (seconds : Int), Pattern.parse t pattern = .ok fields →
      fields.get .offset = some seconds →
        (∀ instant, zone.parse t pattern = .ok instant →
          ∃ plain, Instant.parseBy t pattern = .ok plain ∧ plain.utc = instant.utc
            ∧ plain.wall = instant.wall ∧ plain.offset = instant.offset)
        ∧ ∀ plain, Instant.parseBy t pattern = .ok plain →
          (∃ settled, (Zone.fixed plain.offset).parse t pattern = .ok settled
            ∧ settled.same plain = true)
          ∧ ((∃ instant, zone.parse t pattern = .ok instant) ↔
            zone.Shows plain.wall plain.offset))
    ∧ Refuses IsParse (Instant.parseBy t pattern)
    ∧ Refuses (zone.Rejects t pattern) (zone.parse t pattern) := by
  constructor
  next =>
    intro fields seconds parsed given
    obtain ⟨offset, stated⟩ := Pattern.exists_stated parsed given
    constructor
    next =>
      intro instant read
      exact ⟨_, parseBy_of_parse parsed stated read, rfl, rfl, rfl⟩
    next =>
      intro plain read
      have settled := parse_fixed_of_parseBy parsed stated read
      obtain ⟨wall, utc, -, rfl⟩ := (Instant.parseBy_stated parsed stated).mp read
      exact ⟨⟨_, settled, Instant.same_self rfl⟩, exists_parse_iff_shows parsed stated read⟩
  next =>
    have plainly := (Instant.parseBy_ends t pattern).imp fun _ _ => True.intro
    exact ⟨plainly, zone.parse_rejects t pattern⟩

end

section

open Pattern (stampPattern stampText)

/-- In the hour that comes twice when summer ends in eastern Europe, the second time: a leap second.
-/
def secondTime : Instant where
  utc := ⟨⟨2013, 10, 27, by decide⟩, ⟨1, 30, 59, 1500000000, by decide⟩⟩
  wall := ⟨⟨2013, 10, 27, by decide⟩, ⟨3, 30, 59, 1500000000, by decide⟩⟩
  offset := ⟨7200, by decide⟩
  zone := .place {
    rules := .ofYearly ⟨7200, ['E', 'E', 'T'],
      some ⟨10800, ['E', 'E', 'S', 'T'], ⟨.last 3 0, 10800⟩, ⟨.last 10 0, 14400⟩⟩⟩
    source := some (Text.ofString "EET-2EEST,M3.5.0/3,M10.5.0/4") }

theorem shows_secondTime : secondTime.zone.Shows secondTime.wall secondTime.offset := by
  have asked : secondTime.zone.offsetsAtWall secondTime.wall =
      .ok (.ambiguous ⟨10800, by decide⟩ ⟨7200, by decide⟩) := by
    rw [secondTime, Zone.offsetsAtWall_place rfl]
    decide +kernel
  exact ⟨_, asked, .tail _ (.head _)⟩

def secondTimeFields : Fields :=
  (Fields.known secondTime.wall Pattern.readingSlots).put .offset 7200

theorem parse_secondTime :
    Pattern.parse (Text.ofString "2013-10-27 03:30:60.500000000 +0200") (stampPattern false) =
      .ok secondTimeFields := by
  have text : stampText false secondTime.wall 7200 =
      Text.ofString "2013-10-27 03:30:60.500000000 +0200" := by decide +kernel
  rw [← text]
  exact Pattern.parse_stamp false secondTime.wall secondTime.offset.withinDay

theorem secondTimeFields_tells :
    secondTimeFields.Tells secondTime.offset secondTime.wall secondTime.utc :=
  ⟨Instant.known_stamp (by decide) 7200, by decide⟩

theorem parse_refines_parseBy_secondTime :
    ∃ instant settled plain,
      secondTime.zone.parse (Text.ofString "2013-10-27 03:30:60.500000000 +0200")
          (stampPattern false) = .ok instant
        ∧ instant.utc = secondTime.utc
        ∧ (Zone.fixed secondTime.offset).parse
          (Text.ofString "2013-10-27 03:30:60.500000000 +0200") (stampPattern false) = .ok settled
        ∧ settled.same plain = true ∧ plain.offset = secondTime.offset := by
  have alone := (Instant.parseBy_stated parse_secondTime rfl).mpr
    ⟨_, _, secondTimeFields_tells, rfl⟩
  obtain ⟨reads, -, -⟩ := secondTime.zone.parse_refines_parseBy
    (Text.ofString "2013-10-27 03:30:60.500000000 +0200") (stampPattern false)
  obtain ⟨forward, back⟩ := reads _ _ parse_secondTime rfl
  obtain ⟨⟨settled, read, same⟩, here⟩ := back _ alone
  obtain ⟨instant, found⟩ := here.mpr shows_secondTime
  obtain ⟨plain, again, utc, -, -⟩ := forward instant found
  have one := Except.ok.inj (again.symm.trans alone)
  rw [one] at utc
  exact ⟨instant, settled, _, found, utc.symm, read, same, rfl⟩

theorem Rules.offsetsAtWall_lasting (key : Option Text) (period : Period) (wall : Int) :
    (ofTransitions key period [] none).offsetsAtWall wall = .single period.offset := by
  simp [offsetsAtWall, ending?, ofTransitions, wallTable, finalOffset, finalPeriod,
    Table.firstAfter?, Table.search]

def dayAheadFile : Tzif.File := .lasting 86400 [68, 65, 89] (by decide) (by decide) (by decide)

/-- A whole day is no offset, and no text is to blame for it. -/
theorem parse_dayAhead_not_isParse :
    ¬ ∀ (key : Option Text) (bytes : Bytes) (place : Place) (t pattern : Text) (fields : Fields)
      (seconds : Int), Place.ofTzif key bytes = .ok place →
      Pattern.parse t pattern = .ok fields →
        fields.get .offset = some seconds →
          Refuses IsParse (Instant.parseBy t pattern)
          ∧ Refuses IsParse ((Zone.place place).parse t pattern) := by
  intro always
  have place : Place.ofTzif none dayAheadFile.bytes =
      .ok ⟨.ofTransitions none ⟨86400, ['D', 'A', 'Y']⟩ [] none, none⟩ := by
    rw [Place.ofTzif, dayAheadFile, Tzif.parse_lasting]
    rfl
  have atLoss : (Zone.place ⟨.ofTransitions none ⟨86400, ['D', 'A', 'Y']⟩ [] none, none⟩).parse
      (Text.ofString "2013-10-27 03:30:60.500000000 +0200") (stampPattern false) =
        .error (.zoneOffset 86400 (Text.ofString "<unnamed>")) := by
    rw [Zone.parse, parse_secondTime, ok_bind, secondTimeFields_tells.1, ok_bind, Zone.instantsAt,
      Zone.offsetsAtWall, Place.offsetsAtWall, Rules.offsetsAtWall_lasting]
    rfl
  have blamed := (always none _ _ _ _ _ 7200 place parse_secondTime rfl).2
  rw [atLoss] at blamed
  cases blamed

end

end ZonedTime
