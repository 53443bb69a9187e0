import ZonedTime.Proofs.Zone.Place
import ZonedTime.Proofs.Zone.Unguarded

set_option autoImplicit false

namespace ZonedTime

structure Change.InRange (change : Change) : Prop where
  day : change.day.InRange
  time : change.time.natAbs < 604800

structure Yearly.InRange (rule : Yearly) : Prop where
  offsets : rule.WithinDay
  changes : ∀ daylight ∈ rule.daylight, daylight.start.InRange ∧ daylight.stop.InRange

theorem Yearly.InRange.changesInRange {rule : Yearly} (inRange : rule.InRange) :
    rule.ChangesInRange := by
  intro daylight given
  obtain ⟨start, stop⟩ := inRange.changes daylight given
  exact ⟨start.day, stop.day⟩

namespace RuleScan

theorem sixty_yields : Yields (fun n : Nat => n ≤ 59) sixty := by
  intro t
  change Gives _ (sixty t)
  unfold sixty
  simp only
  split
  next => trivial
  next =>
    apply (gives_any _).bind
    intro n _
    split
    next => trivial
    next small => exact Nat.le_of_not_lt small

theorem minutesAndSeconds_yields : Yields (fun n : Nat => n < 3600) minutesAndSeconds := by
  apply (Yields.any _).bind
  intro colon _
  apply Yields.ite
  next =>
    intro _
    apply sixty_yields.bind
    intro minutes fewMinutes
    apply (Yields.any _).bind
    intro again _
    apply Yields.ite
    next =>
      intro _
      apply sixty_yields.bind
      intro seconds fewSeconds
      apply Yields.pure
      omega
    next =>
      intro _
      apply Yields.pure
      omega
  next =>
    intro _
    apply Yields.pure
    omega

theorem clock_yields (mostHours : Nat) :
    Yields (fun n : Int => n.natAbs < (mostHours + 1) * 3600) (clock mostHours) := by
  apply (Yields.any _).bind
  intro negative _
  apply (Yields.any _).bind
  intro hours _
  by_cases many : mostHours < hours
  next =>
    simp only [many, if_true]
    exact fun _ => trivial
  next =>
    simp only [many, if_false]
    apply minutesAndSeconds_yields.bind
    intro rest small
    apply Yields.pure
    split <;> omega

theorem change_inRange : Yields Change.InRange change := by
  apply changeDay_yields.bind
  intro day inRange
  apply (Yields.any _).bind
  intro timed _
  apply Yields.ite
  next =>
    intro _
    apply (clock_yields 167).bind
    intro time small
    exact Yields.pure ⟨inRange, small⟩
  next =>
    intro _
    have small : Int.natAbs 7200 < 604800 := by decide
    exact Yields.pure ⟨inRange, small⟩

end RuleScan

theorem Yearly.parse_inRange {source : Text} {rule : Yearly} (accepted : parse source = .ok rule) :
    rule.InRange := by
  have changes : Gives (fun rule : Yearly => ∀ daylight ∈ rule.daylight,
      daylight.start.InRange ∧ daylight.stop.InRange) (parse source) := by
    unfold parse
    split
    next => trivial
    next => exact Ends.map (RuleScan.zone_changes RuleScan.change_inRange source)
  exact ⟨parse_withinDay accepted, changes.good_of_ok accepted⟩

namespace Unguarded

/-- Where there may be no day, and where an offset may be refused. -/
abbrev Answer (α : Type) := Except (Slip ⊕ Error) α

def offset (place : Place) (utc : Reading) : Answer Offset := do
  let seconds <- (offsetAtUtc place.rules utc.epochSecond).mapError Sum.inl
  (place.checkOffset seconds).mapError Sum.inr

def offsets (place : Place) (wall : Reading) : Answer (Resolution Offset) := do
  let resolution <- (offsetsAtWall place.rules wall.epochSecond).mapError Sum.inl
  (resolution.mapM place.checkOffset).mapError Sum.inr

def abbreviation (place : Place) (utc : Reading) : Answer Text := do
  let name <- (nameAtUtc place.rules utc.epochSecond).mapError Sum.inl
  if name.isEmpty then return (<- offset place utc).text else return name

section

variable {place : Place}

theorem offset_eq (complete : place.rules.Complete) (utc : Reading) :
    offset place utc = ((Zone.place place).offsetAtUtc utc).mapError Sum.inr := by
  rw [offset, offsetAtUtc_eq complete]
  rfl

theorem offsets_eq (complete : place.rules.Complete) (wall : Reading) :
    offsets place wall = ((Zone.place place).offsetsAtWall wall).mapError Sum.inr := by
  rw [offsets, offsetsAtWall_eq complete]
  rfl

theorem abbreviation_eq (complete : place.rules.Complete) (utc : Reading) :
    abbreviation place utc = ((Zone.place place).abbreviation utc).mapError Sum.inr := by
  rw [abbreviation, nameAtUtc_eq complete, offset_eq complete]
  simp only [Zone.abbreviation, Zone.offsetAtUtc, Except.mapError, ok_bind]
  split
  next => cases place.offsetAtUtc utc <;> rfl
  next => rfl

end

end Unguarded

theorem Rules.complete_ofYearly {rule : Yearly} (inRange : rule.ChangesInRange) :
    (ofYearly rule).Complete := by
  constructor
  next =>
    intro none
    cases none
  next =>
    rintro _ ⟨⟩
    exact inRange

theorem Yearly.offsetAtUtc_mem (rule : Yearly) (second : Int) :
    rule.offsetAtUtc second ∈ rule.offsets := by
  obtain ⟨standard, name, _ | daylight⟩ := rule
  next => simp [offsetAtUtc, offsets]
  next =>
    simp only [offsetAtUtc, offsets]
    split <;> simp

namespace Place

section

variable {place : Place} {rule : Yearly}

theorem exists_offsetAtUtc (rules : place.rules = .ofYearly rule) (within : rule.WithinDay)
    (utc : Reading) : ∃ offset, (Zone.place place).offsetAtUtc utc = .ok offset := by
  rw [Zone.offsetAtUtc_place rules]
  apply exists_checkOffset
  apply within
  exact rule.offsetAtUtc_mem utc.epochSecond

theorem exists_offsetsAtWall (rules : place.rules = .ofYearly rule) (within : rule.WithinDay)
    (wall : Reading) : ∃ offsets, (Zone.place place).offsetsAtWall wall = .ok offsets := by
  rw [Zone.offsetsAtWall_place rules]
  have each : ∀ seconds ∈ (rule.offsetsAtWall wall.epochSecond).toList,
      ∃ offset, place.checkOffset seconds = .ok offset := by
    intro seconds member
    apply exists_checkOffset
    apply within
    exact rule.offsetsAtWall_subset _ member
  obtain ⟨offsets, checked, -⟩ := Resolution.mapM_gives each
  exact ⟨offsets, checked⟩

theorem exists_abbreviation (rules : place.rules = .ofYearly rule) (within : rule.WithinDay)
    (utc : Reading) : ∃ name, (Zone.place place).abbreviation utc = .ok name := by
  obtain ⟨offset, asked⟩ := exists_offsetAtUtc rules within utc
  change place.offsetAtUtc utc = .ok offset at asked
  simp only [Zone.abbreviation]
  split
  next => exact ⟨offset.text, by rw [asked]; rfl⟩
  next => exact ⟨_, rfl⟩

end

/-- Every rule that can be read has all its numbers in range, so that its changes come in every
year and its place answers for every reading. No lookup stumbles on the way, neither in the first
and the last year nor where another year is shown in UTC or on standard time. -/
theorem ofYearly_answers {source : Text} {rule : Yearly}
    (accepted : Yearly.parse source = .ok rule) :
    rule.InRange
      ∧ (∀ daylight ∈ rule.daylight, ∀ year, 1 ≤ year → year ≤ 9999 →
        (∃ date, daylight.start.day.date year = .ok date)
          ∧ ∃ date, daylight.stop.day.date year = .ok date)
      ∧ ∃ place, ofYearly source = .ok place ∧ place.rules = .ofYearly rule
        ∧ ∀ reading,
          (∃ offset, (Zone.place place).offsetAtUtc reading = .ok offset
            ∧ Unguarded.offset place reading = .ok offset)
          ∧ (∃ offsets, (Zone.place place).offsetsAtWall reading = .ok offsets
            ∧ Unguarded.offsets place reading = .ok offsets)
          ∧ ∃ name, (Zone.place place).abbreviation reading = .ok name
            ∧ Unguarded.abbreviation place reading = .ok name := by
  have inRange := Yearly.parse_inRange accepted
  let place : Place := ⟨.ofYearly rule, some source⟩
  have rules : place.rules = .ofYearly rule := rfl
  have made : ofYearly source = .ok place := by
    rw [ofYearly, accepted]
  have complete : place.rules.Complete := Rules.complete_ofYearly inRange.changesInRange
  refine ⟨inRange, ?_, place, made, rules, fun reading => ⟨?_, ?_, ?_⟩⟩
  next =>
    intro daylight given year first last
    obtain ⟨start, stop⟩ := inRange.changesInRange daylight given
    obtain ⟨startDate, startFound, -⟩ := ChangeDay.exists_date start first last
    obtain ⟨stopDate, stopFound, -⟩ := ChangeDay.exists_date stop first last
    exact ⟨⟨startDate, startFound⟩, stopDate, stopFound⟩
  next =>
    obtain ⟨offset, asked⟩ := exists_offsetAtUtc rules inRange.offsets reading
    exact ⟨offset, asked, by rw [Unguarded.offset_eq complete, asked]; rfl⟩
  next =>
    obtain ⟨offsets, asked⟩ := exists_offsetsAtWall rules inRange.offsets reading
    exact ⟨offsets, asked, by rw [Unguarded.offsets_eq complete, asked]; rfl⟩
  next =>
    obtain ⟨name, asked⟩ := exists_abbreviation rules inRange.offsets reading
    exact ⟨name, asked, by rw [Unguarded.abbreviation_eq complete, asked]; rfl⟩

/-- Nearly a day either way, with changes nearly a week outside their year. -/
def farApart : Yearly where
  standard := -86399
  name := ['-', '2', '4']
  daylight := some ⟨86399, ['+', '2', '4'], ⟨.yearDay 1, -604799⟩, ⟨.julian 365, 604799⟩⟩

theorem ofYearly_answers_farApart :
    ∃ source, Yearly.parse source = .ok farApart ∧ farApart.InRange
      ∧ ∃ place, ofYearly source = .ok place
        ∧ (∃ offset, (Zone.place place).offsetAtUtc .first = .ok offset
          ∧ Unguarded.offset place .first = .ok offset)
        ∧ ∃ offsets, (Zone.place place).offsetsAtWall .last = .ok offsets
          ∧ Unguarded.offsets place .last = .ok offsets := by
  have accepted : Yearly.parse
      (Text.ofString "<-24>23:59:59<+24>-23:59:59,0/-167:59:59,J365/167:59:59") =
        .ok farApart := by
    decide +kernel
  obtain ⟨inRange, -, place, made, -, answers⟩ := ofYearly_answers accepted
  exact ⟨_, accepted, inRange, place, made, (answers .first).1, (answers .last).2.1⟩

end Place

end ZonedTime
