import ZonedTime.Proofs.Zone.LostMoment

set_option autoImplicit false

namespace ZonedTime

open Calendar

theorem Instant.lt_iff (a b : Instant) :
    a.lt b ↔ a.utc.epochSecond < b.utc.epochSecond
      ∨ (a.utc.epochSecond = b.utc.epochSecond ∧ a.utc.time.nano < b.utc.time.nano) :=
  Reading.lt_iff a.utc b.utc

namespace Day

theorem firstOf_eq_none {resolution : Resolution Instant} :
    firstOf resolution = none ↔ resolution = .skipped := by
  cases resolution <;> simp [firstOf]

theorem firstOf_first {resolution : Resolution Instant} {instant : Instant}
    (first : firstOf resolution = some instant) :
    ∀ other ∈ resolution.toList, ¬ other.lt instant := by
  intro other member
  cases resolution with
  | skipped => cases member
  | single value =>
    cases first
    obtain rfl := List.mem_singleton.mp member
    rw [Instant.lt_iff]
    omega
  | ambiguous earlier later =>
    cases first
    simp only [Resolution.toList, List.mem_cons, List.not_mem_nil, or_false] at member
    split
    next late =>
      rw [Instant.lt_iff] at late ⊢
      rcases member with rfl | rfl <;> omega
    next notLate =>
      rcases member with rfl | rfl
      next =>
        rw [Instant.lt_iff]
        omega
      next => exact notLate

theorem firstIn_eq_some {zone : Zone} {readings : List Reading} {instant : Instant}
    (found : firstIn zone readings = .ok (some instant)) :
    ∃ (k : Nat) (reading : Reading) (resolution : Resolution Instant),
      readings[k]? = some reading ∧ zone.instantsAt reading = .ok resolution
      ∧ firstOf resolution = some instant
      ∧ ∀ j < k, ∀ earlier ∈ readings[j]?, zone.instantsAt earlier = .ok .skipped := by
  induction readings with
  | nil => cases found
  | cons reading rest ih =>
    rw [firstIn] at found
    cases asked : zone.instantsAt reading with
    | error error =>
      rw [asked] at found
      cases found
    | ok resolution =>
      rw [asked, ok_bind] at found
      cases first : firstOf resolution with
      | some start =>
        rw [first] at found
        cases found
        exact ⟨0, reading, resolution, rfl, asked, first, by omega⟩
      | none =>
        rw [first] at found
        -- A reading is passed over only where nothing at all is shown at it.
        obtain rfl := firstOf_eq_none.mp first
        obtain ⟨k, later, resolution, place, askedLater, firstLater, before⟩ := ih found
        refine ⟨k + 1, later, resolution, place, askedLater, firstLater, fun j early => ?_⟩
        cases j with
        | zero =>
          rintro earlier ⟨⟩
          exact asked
        | succ j => exact before j (by omega)

def quarter (date : Date) (k : Nat) : Reading := ⟨date, .ofSecondOfDay (900 * (k : Int)) 0⟩

theorem probes_getElem? (date : Date) (k : Nat) :
    (probes date)[k]? = if k < 25 then some (quarter date k) else none := by
  unfold probes
  rw [List.getElem?_map]
  split
  next early => rw [List.getElem?_range early]; rfl
  next late => rw [List.getElem?_eq_none (by simpa using late)]; rfl

theorem quarter_epochSecond (date : Date) {k : Nat} (inDay : k < 25) :
    (quarter date k).epochSecond = date.epochSecond + 900 * k := by
  simp only [Reading.epochSecond, quarter, Time.ofSecondOfDay, Time.secondOfDay]
  omega

theorem start_eq_ok {day : Day} {start : Instant} (started : day.start = .ok start) :
    ∃ (k : Nat) (resolution : Resolution Instant), k < 25
      ∧ day.zone.instantsAt (quarter day.date k) = .ok resolution
      ∧ firstOf resolution = some start
      ∧ ∀ j < k, day.zone.instantsAt (quarter day.date j) = .ok .skipped := by
  unfold Day.start at started
  cases found : firstIn day.zone (probes day.date) with
  | error error =>
    rw [found] at started
    cases started
  | ok first =>
    rw [found, ok_bind] at started
    cases first with
    | none => cases started
    | some instant =>
      cases started
      obtain ⟨k, reading, resolution, place, asked, first, before⟩ := firstIn_eq_some found
      rw [probes_getElem?] at place
      split at place
      next early =>
        cases place
        refine ⟨k, resolution, early, asked, first, fun j earlier => before j earlier _ ?_⟩
        rw [probes_getElem?, if_pos (by omega)]
        rfl
      next => cases place

end Day

section

variable {rule : Yearly} {place : Place} {date : Date}

/-- No reading of the date falls before the first second of UTC at any of the offsets. -/
def Kept (rule : Yearly) (date : Date) : Prop :=
  ∀ offset ∈ rule.offsets, Reading.first.epochSecond ≤ date.epochSecond - offset

theorem kept_of (within : rule.WithinDay)
    (late : date ≠ .first ∨ ∀ offset ∈ rule.offsets, offset ≤ 0) : Kept rule date := by
  intro offset member
  have day := date.dayNumber_bounds
  rw [Reading.first_epochSecond, Date.epochSecond, epochDay, secondsPerDay]
  rcases late with other | west
  next =>
    have second : date.dayNumber ≠ 1 := fun same =>
      other (Date.eq_of_dayNumber_eq (same.trans (by decide)))
    obtain ⟨-, below⟩ := within offset member
    omega
  next =>
    have := west offset member
    omega

theorem yearOfEpoch_onDate {reading : Reading} (onDate : reading.date = date) :
    yearOfEpoch reading.epochSecond = date.year := by
  rw [reading.yearOfEpoch_epochSecond, onDate]

theorem epochSecond_onDate {reading : Reading} (onDate : reading.date = date) :
    date.epochSecond ≤ reading.epochSecond
      ∧ reading.epochSecond < date.epochSecond + 86400 := by
  have second := reading.time.secondOfDay_bounds
  rw [Reading.epochSecond, onDate]
  omega

theorem exists_instant_not_later (rules : place.rules = .ofYearly rule)
    (within : rule.WithinDay) (kept : Kept rule date) {wall : Reading} (onDate : wall.date = date)
    (visible : rule.offsetsAtWall wall.epochSecond ≠ .skipped) {resolution : Resolution Instant}
    (asked : (Zone.place place).instantsAt wall = .ok resolution) {later : Instant}
    (coherent : later.Coherent) (sameDay : later.wall.date = date)
    (ordered : wall.epochSecond ≤ later.wall.epochSecond)
    (shown : later.offset.seconds ∈ (rule.offsetsAtWall later.wall.epochSecond).toList) :
    ∃ instant ∈ resolution.toList, instant.wall = wall ∧ instant.Coherent
      ∧ instant.utc.epochSecond ≤ later.utc.epochSecond := by
  have sameYear : yearOfEpoch wall.epochSecond = yearOfEpoch later.wall.epochSecond := by
    rw [yearOfEpoch_onDate onDate, yearOfEpoch_onDate sameDay]
  obtain ⟨offset, member, before⟩ :=
    rule.exists_not_later ordered sameYear shown visible
  have bounds := later.utc.epochSecond_bounds
  have early := kept offset (rule.offsetsAtWall_subset _ member)
  have midnight := epochSecond_onDate onDate
  have place' := coherent.1
  -- The moment is in range: below by what is asked of the date, above by the later one.
  obtain ⟨utc, shifted⟩ : ∃ utc, wall.shift? (-offset) = some utc := by
    cases shifted : wall.shift? (-offset) with
    | some utc => exact ⟨utc, rfl⟩
    | none =>
      rw [Reading.shift?_eq_none] at shifted
      omega
  have moved := Reading.shift?_eq_some.mp shifted
  obtain ⟨given, asked', members⟩ := Zone.instantsAt_gives rules within wall
  rw [asked] at asked'
  cases asked'
  let instant : Instant :=
    ⟨utc, wall, ⟨offset, within _ (rule.offsetsAtWall_subset _ member)⟩, .place place⟩
  have here : instant.Coherent := ⟨by simp only [instant]; omega, moved.2.symm⟩
  refine ⟨instant, (members instant).mpr ⟨rfl, rfl, here, member⟩, rfl, here, ?_⟩
  simp only [instant]
  omega

theorem Day.skipped_before_start (rules : place.rules = .ofYearly rule) (within : rule.WithinDay)
    (kept : Kept rule date) {start : Instant} {k : Nat} (inDay : k < 25)
    (coherent : start.Coherent) (wall : start.wall = quarter date k)
    (shown : start.offset.seconds ∈ (rule.offsetsAtWall start.wall.epochSecond).toList)
    (skipped : ∀ j < k, (Zone.place place).instantsAt (quarter date j) = .ok .skipped) :
    ∀ j < k, rule.offsetsAtWall (quarter date j).epochSecond = .skipped := by
  intro j early
  by_contra visible
  -- A moment that the rule gives for this quarter of an hour would be in range as the start is.
  have ordered : (quarter date j).epochSecond ≤ start.wall.epochSecond := by
    rw [wall, quarter_epochSecond date (by omega), quarter_epochSecond date inDay]
    omega
  obtain ⟨instant, member, -⟩ := exists_instant_not_later rules within kept rfl visible
    (skipped j early) coherent (by rw [wall]; rfl) ordered shown
  cases member

theorem Day.skipped_quarter (rule : Yearly) {k : Nat} (inDay : k < 25)
    (skipped : ∀ j < k, rule.offsetsAtWall (quarter date j).epochSecond = .skipped)
    {reading : Reading} (onDate : reading.date = date)
    (visible : rule.offsetsAtWall reading.epochSecond ≠ .skipped)
    (early : reading.epochSecond < (quarter date k).epochSecond) :
    ∃ before, k = before + 1 ∧ (quarter date before).epochSecond < reading.epochSecond := by
  have midnight := epochSecond_onDate onDate
  rw [quarter_epochSecond date inDay] at early
  obtain ⟨before, rfl⟩ : ∃ before, k = before + 1 := ⟨k - 1, by omega⟩
  refine ⟨before, rfl, ?_⟩
  by_contra notAfter
  have last := quarter_epochSecond date (show before < 25 by omega)
  -- It would lie between the quarter of an hour it has begun and the last one that is skipped.
  let begun := ((reading.epochSecond - date.epochSecond) / 900).toNat
  have first := quarter_epochSecond date (show begun < 25 by simp only [begun]; omega)
  have sameYear {k : Nat} :
      yearOfEpoch (quarter date k).epochSecond = yearOfEpoch reading.epochSecond := by
    rw [yearOfEpoch_onDate onDate]
    exact yearOfEpoch_onDate rfl
  refine visible (rule.skipped_between ⟨sameYear, sameYear⟩
    (skipped begun (by simp only [begun]; omega)) (skipped before (by omega)) ?_ (by omega))
  simp only [begun] at first
  rw [first]
  omega

end

/-- The start of a day is not later than any moment of its date whose reading is not earlier. Only
where the clock skips a quarter of an hour, but not the whole of the minutes up to the next one,
has the start an earlier reading before it. It is supposed that the moment is found for what the
wall shows then, and that nothing of the first date falls out of range. -/
theorem Day.start_not_later {source : Text} {place : Place}
    (accepted : Place.ofYearly source = .ok place) {date : Date}
    (late : date ≠ .first ∨ ∀ rule ∈ place.rules.footer, ∀ offset ∈ rule.offsets, offset ≤ 0)
    {start : Instant} (started : (Day.mk date (.place place)).start = .ok start)
    {utc : Reading} (proper : utc.Proper) {instant : Instant}
    (made : Instant.ofUtc utc (.place place) = .ok instant) (onDate : instant.wall.date = date)
    (found : ∃ candidates, (Zone.place place).instantsAt instant.wall = .ok candidates
      ∧ instant ∈ candidates.toList) :
    (start.wall.epochSecond ≤ instant.wall.epochSecond → ¬ instant.lt start)
      ∧ (instant.wall.epochSecond < start.wall.epochSecond →
        ∃ skipped : Reading, skipped.date = date
          ∧ skipped.epochSecond + 900 = start.wall.epochSecond
          ∧ skipped.epochSecond < instant.wall.epochSecond
          ∧ (Zone.place place).instantsAt skipped = .ok .skipped) := by
  obtain ⟨rule, read, rules⟩ := Place.ofYearly_eq_ok accepted
  have within := Yearly.parse_withinDay read
  have kept : Kept rule date := kept_of within <| late.imp id fun west =>
    west rule (by rw [rules]; rfl)
  obtain ⟨k, resolution, inDay, asked, first, skipped⟩ := start_eq_ok started
  obtain ⟨given, asked', members⟩ := Zone.instantsAt_gives rules within (quarter date k)
  rw [asked] at asked'
  cases asked'
  obtain ⟨wall, -, coherent, shown⟩ := (members start).mp (firstOf_mem first)
  rw [← wall] at shown
  obtain ⟨candidates, askedHere, member⟩ := found
  obtain ⟨all, askedHere', membersHere⟩ := Zone.instantsAt_gives rules within instant.wall
  rw [askedHere] at askedHere'
  cases askedHere'
  obtain ⟨-, -, coherentHere, shownHere⟩ := (membersHere instant).mp member
  have visible {reading : Reading} {offset : Int}
      (shown : offset ∈ (rule.offsetsAtWall reading.epochSecond).toList) :
      rule.offsetsAtWall reading.epochSecond ≠ .skipped := by
    intro skipped
    rw [skipped] at shown
    cases shown
  constructor
  next =>
    intro ordered
    rw [wall] at ordered
    obtain ⟨other, member, otherWall, otherCoherent, notLater⟩ :=
      exists_instant_not_later rules within kept rfl (visible (wall ▸ shown)) asked
        coherentHere onDate ordered shownHere
    have notBefore := firstOf_first first other member
    obtain ⟨rfl, -⟩ := (Instant.ofUtc_eq_ok rules).mp made
    rw [Instant.lt_iff] at notBefore ⊢
    -- A quarter of an hour is a whole second, and so is a moment at which the wall shows it.
    have startWhole : start.utc.time.nano = 0 := by
      rw [← coherent.2, wall]
      rfl
    have otherWhole : other.utc.time.nano = 0 := by
      rw [← otherCoherent.2, otherWall]
      rfl
    have fraction : 0 ≤ instant.utc.time.nano := proper.1
    omega
  next =>
    intro early
    have skippedHere :=
      skipped_before_start rules within kept inDay coherent wall shown skipped
    obtain ⟨before, rfl, after⟩ :=
      skipped_quarter rule inDay skippedHere onDate (visible shownHere) (wall ▸ early)
    refine ⟨quarter date before, rfl, ?_, after, skipped before (by omega)⟩
    rw [wall, quarter_epochSecond date inDay, quarter_epochSecond date (by omega)]
    omega

/-- Summer time of ten minutes, begun at midnight: the first quarter of an hour that the wall shows
on the day is five minutes after the change. -/
def tenMinutes : Place where
  rules := .ofYearly ⟨0, ['A', 'A', 'A'],
    some ⟨600, ['B', 'B', 'B'], ⟨.julian 100, 0⟩, ⟨.julian 200, 0⟩⟩⟩
  source := some (Text.ofString "AAA0BBB-0:10,J100/0,J200/0")

namespace Day

def midnightChange : Instant where
  utc := ⟨⟨2023, 4, 10, Instant.isDate_dayOfChange⟩, ⟨0, 0, 0, 0, Time.midnight.inDay⟩⟩
  wall := ⟨⟨2023, 4, 10, Instant.isDate_dayOfChange⟩, ⟨0, 10, 0, 0, by decide⟩⟩
  offset := ⟨600, by decide⟩
  zone := .place tenMinutes

def quarterPast : Instant where
  utc := ⟨⟨2023, 4, 10, Instant.isDate_dayOfChange⟩, ⟨0, 5, 0, 0, by decide⟩⟩
  wall := ⟨⟨2023, 4, 10, Instant.isDate_dayOfChange⟩, ⟨0, 15, 0, 0, by decide⟩⟩
  offset := ⟨600, by decide⟩
  zone := .place tenMinutes

theorem midnightChange_started :
    Place.ofYearly (Text.ofString "AAA0BBB-0:10,J100/0,J200/0") = .ok tenMinutes
      ∧ (Day.mk ⟨2023, 4, 10, by decide⟩ (.place tenMinutes)).start = .ok quarterPast
      ∧ Instant.ofUtc midnightChange.utc (.place tenMinutes) = .ok midnightChange :=
  ⟨by decide +kernel, by with_unfolding_all rfl,
    (Instant.ofUtc_eq_ok rfl).mpr ⟨rfl, rfl, by decide, by decide⟩⟩

theorem midnightChange_found :
    ∃ candidates, (Zone.place tenMinutes).instantsAt midnightChange.wall = .ok candidates
      ∧ midnightChange ∈ candidates.toList :=
  Zone.exists_instantsAt rfl (by decide) rfl (by decide) (by decide)

theorem start_not_later_midnightChange :
    ∃ skipped : Reading, skipped.date = midnightChange.wall.date
      ∧ skipped.epochSecond + 900 = quarterPast.wall.epochSecond
      ∧ skipped.epochSecond < midnightChange.wall.epochSecond
      ∧ (Zone.place tenMinutes).instantsAt skipped = .ok .skipped := by
  obtain ⟨accepted, started, made⟩ := midnightChange_started
  exact (start_not_later accepted (.inl (by decide)) started (by decide) made rfl
    midnightChange_found).2 (by decide)

def firstHour : Place where
  rules := .ofYearly ⟨0, ['A', 'A', 'A'],
    some ⟨3600, ['B', 'B', 'B'], ⟨.julian 200, 0⟩, ⟨.julian 1, 5400⟩⟩⟩
  source := some (Text.ofString "AAA0BBB,J200/0,J1/1:30")

def firstMoment : Instant where
  utc := Reading.first
  wall := ⟨.first, ⟨1, 0, 0, 0, by decide⟩⟩
  offset := ⟨3600, withinDay_hour⟩
  zone := .place firstHour

theorem firstMoment_found :
    ∃ candidates, (Zone.place firstHour).instantsAt firstMoment.wall = .ok candidates
      ∧ firstMoment ∈ candidates.toList :=
  Zone.exists_instantsAt rfl (by decide) rfl (by decide) (by decide)

/-- A moment of the day may come before the start: one between two quarters of an hour; and, at a
reading after the start's, one whose own first reading would be out of range. -/
theorem start_later :
    (¬ ∀ (source : Text) (place : Place) (date : Date) (start : Instant) (utc : Reading)
        (instant : Instant), Place.ofYearly source = .ok place →
        (Day.mk date (.place place)).start = .ok start → utc.Proper →
        Instant.ofUtc utc (.place place) = .ok instant → instant.wall.date = date →
        ¬ instant.lt start)
      ∧ ∃ source place start instant, Place.ofYearly source = .ok place
        ∧ (Day.mk .first (.place place)).start = .ok start
        ∧ Instant.ofUtc .first (.place place) = .ok instant ∧ instant.wall.date = .first
        ∧ (∃ candidates, (Zone.place place).instantsAt instant.wall = .ok candidates
          ∧ instant ∈ candidates.toList)
        ∧ start.wall.epochSecond ≤ instant.wall.epochSecond ∧ instant.lt start := by
  constructor
  next =>
    intro always
    obtain ⟨accepted, started, made⟩ := midnightChange_started
    exact always _ _ _ _ _ _ accepted started (by decide) made rfl (by decide)
  next =>
    have made : Instant.ofUtc .first (.place firstHour) = .ok firstMoment :=
      (Instant.ofUtc_eq_ok rfl).mpr ⟨rfl, rfl, by decide, by decide⟩
    exact ⟨Text.ofString "AAA0BBB,J200/0,J1/1:30", firstHour,
      ⟨⟨.first, ⟨0, 30, 0, 0, by decide⟩⟩, ⟨.first, ⟨0, 30, 0, 0, by decide⟩⟩, ⟨0, by decide⟩,
        .place firstHour⟩, firstMoment, by decide +kernel, by with_unfolding_all rfl, made, rfl,
      firstMoment_found, by decide, by decide⟩

end Day

end ZonedTime
