import Mathlib.Tactic.MkIffOfInductiveProp
import ZonedTime.Proofs.Zone.Place
import ZonedTime.Proofs.Zone.WallSeason

set_option autoImplicit false

namespace ZonedTime

open Calendar

namespace Yearly

/-- The changes of a year come in one order on the wall and in the other one in UTC. -/
def Turned (standard : Int) (daylight : Daylight) (year : Int) : Prop :=
  StartsFirst daylight year ↔
    ¬ daylight.start.localSecond year - standard
      < daylight.stop.localSecond year - daylight.offset

/-- A moment at an epoch second that is shown at an offset, but not found from what is shown. -/
@[mk_iff]
inductive Lost (standard : Int) (daylight : Daylight) (second offset : Int) : Prop where
  -- The season in between is too short: its end is shown in the gap that its start left.
  | inGap (gap : InGap standard daylight (yearOfEpoch (second + offset)) (second + offset))
  -- The wall takes the one moment between the changes for the whole year.
  | turned (turned : Turned standard daylight (yearOfEpoch (second + offset)))
    (larger : offset = max standard daylight.offset)
  -- The clock on standard time shows another year, and by that year it is the other season.
  | overNewYear (other : yearOfEpoch (second + standard) ≠ yearOfEpoch (second + offset))
    (off : ¬ InSeason daylight (yearOfEpoch (second + offset)) (second + standard)
      (second + daylight.offset))

variable {standard : Int} {daylight : Daylight}

theorem inDaylight_iff_utc (second : Int) :
    inDaylight standard daylight second ↔
      (daylight.start.localSecond (yearOfEpoch (second + standard)) - standard
          < daylight.stop.localSecond (yearOfEpoch (second + standard)) - daylight.offset →
        daylight.start.localSecond (yearOfEpoch (second + standard)) ≤ second + standard
        ∧ second + daylight.offset
          < daylight.stop.localSecond (yearOfEpoch (second + standard)))
      ∧ (¬ daylight.start.localSecond (yearOfEpoch (second + standard)) - standard
          < daylight.stop.localSecond (yearOfEpoch (second + standard)) - daylight.offset →
        second + daylight.offset < daylight.stop.localSecond (yearOfEpoch (second + standard))
        ∨ daylight.start.localSecond (yearOfEpoch (second + standard)) ≤ second + standard) := by
  unfold inDaylight
  simp only
  split <;> simp only [Bool.and_eq_true, Bool.not_eq_true', Bool.and_eq_false_iff,
    decide_eq_true_eq, decide_eq_false_iff_not] <;> omega

theorem found_onStandard (name : Text) {second : Int}
    (off : ¬ inDaylight standard daylight second) :
    standard ∈ (offsetsAtWall ⟨standard, name, some daylight⟩ (second + standard)).toList ↔
      ¬ Lost standard daylight second standard := by
  rw [lost_iff, mem_offsetsAtWall_iff]
  rw [inDaylight_iff_utc] at off
  unfold InSeason Turned StartsFirst InGap
  -- Standard time is the clock by which the season is told, so that there is one year only.
  generalize yearOfEpoch (second + standard) = year at *
  omega

theorem found_onDaylight (name : Text) {second : Int}
    (on : inDaylight standard daylight second) :
    daylight.offset ∈
        (offsetsAtWall ⟨standard, name, some daylight⟩ (second + daylight.offset)).toList ↔
      ¬ Lost standard daylight second daylight.offset := by
  rw [lost_iff, mem_offsetsAtWall_iff]
  rw [inDaylight_iff_utc] at on
  unfold InSeason Turned StartsFirst InGap
  by_cases same : yearOfEpoch (second + standard) = yearOfEpoch (second + daylight.offset)
  next =>
    rw [same] at on ⊢
    generalize yearOfEpoch (second + daylight.offset) = year at *
    omega
  next =>
    -- By the other year it may be any season, and only the changes on the wall count.
    have moves : standard ≠ daylight.offset := by
      rintro still
      rw [still] at same
      exact same rfl
    simp only [ne_eq, same, not_false_eq_true, true_and]
    generalize yearOfEpoch (second + daylight.offset) = year at *
    omega

theorem found_offsetAtUtc (rule : Yearly) (second : Int) :
    rule.offsetAtUtc second ∈ (rule.offsetsAtWall (second + rule.offsetAtUtc second)).toList ↔
      ∀ daylight ∈ rule.daylight,
        ¬ Lost rule.standard daylight second (rule.offsetAtUtc second) := by
  obtain ⟨standard, name, _ | daylight⟩ := rule
  next => simp [offsetAtUtc, offsetsAtWall, Resolution.toList]
  next =>
    simp only [Option.mem_def, Option.some.injEq, forall_eq']
    by_cases on : inDaylight standard daylight second
    next => simpa [offsetAtUtc, on] using found_onDaylight name on
    next => simpa [offsetAtUtc, on] using found_onStandard name on

theorem not_lost_of_regular
    (regular : ∀ year, 1 ≤ year → year ≤ 9999 → Regular standard daylight year)
    (alike : ∀ year, 1 ≤ year → year < 9999 →
      (StartsFirst daylight year ↔ StartsFirst daylight (year + 1)))
    (wall : Reading) (name : Text) {second : Int}
    (shown : wall.epochSecond =
      second + offsetAtUtc ⟨standard, name, some daylight⟩ second) :
    ¬ Lost standard daylight second (offsetAtUtc ⟨standard, name, some daylight⟩ second) := by
  let rule : Yearly := ⟨standard, name, some daylight⟩
  refine (rule.found_offsetAtUtc second).mp ?_ daylight rfl
  rw [← shown]
  -- At new year the wall and the clock on standard time may differ in the year, not in the season.
  have season := inSeason_onStandard regular alike wall (Int.sub_add_cancel _ _)
  rw [← wall.yearOfEpoch_epochSecond] at season
  refine ((exact_iff name regular (Int.sub_add_cancel _ _).symm).mpr (.inr season) _).mpr ?_
  rw [shown, Int.add_sub_cancel]

end Yearly

namespace Instant

open Yearly (Lost)

/-- A moment of any place is among those found for the reading that the place shows then, unless
it is lost in one of three ways. -/
theorem found_iff_not_lost {source : Text} {place : Place}
    (accepted : Place.ofYearly source = .ok place) {utc : Reading} {instant : Instant}
    (made : ofUtc utc (.place place) = .ok instant) :
    ∃ resolution, (Zone.place place).instantsAt instant.wall = .ok resolution
      ∧ ((∃ found ∈ resolution.toList, found.eq instant ∧ found.offset = instant.offset) ↔
        ∀ rule ∈ place.rules.footer, ∀ daylight ∈ rule.daylight,
          ¬ Lost rule.standard daylight utc.epochSecond instant.offset.seconds) := by
  obtain ⟨rule, read, rules⟩ := Place.ofYearly_eq_ok accepted
  obtain ⟨resolution, asked, members⟩ :=
    Zone.instantsAt_gives rules (Yearly.parse_withinDay read) instant.wall
  obtain ⟨rfl, zone, coherent, offset⟩ := (ofUtc_eq_ok rules).mp made
  have footer : place.rules.footer = some rule := by rw [rules, Rules.ofYearly]
  have wall : instant.utc.epochSecond + instant.offset.seconds = instant.wall.epochSecond :=
    coherent.1.symm
  refine ⟨resolution, asked, ?_⟩
  have shown := rule.found_offsetAtUtc instant.utc.epochSecond
  rw [← offset, wall] at shown
  simp only [footer, Option.mem_some_iff, forall_eq']
  rw [← shown]
  constructor
  next =>
    rintro ⟨found, member, -, same⟩
    rw [← same]
    exact ((members found).mp member).2.2.2
  next =>
    intro shown
    have member := (members instant).mpr ⟨rfl, zone, coherent, shown⟩
    exact ⟨instant, member, by simp [Instant.eq], rfl⟩

/-- In leap years the start and the stop change places, so that only the old year ends in daylight
saving time. -/
def leapFlip : Place where
  rules := .ofYearly ⟨0, ['A', 'A', 'A'],
    some ⟨3600, ['B', 'B', 'B'], ⟨.yearDay 100, 64800⟩, ⟨.julian 100, 21600⟩⟩⟩
  source := some (Text.ofString "AAA0BBB,99/18,J100/6")

def newYearsEve : Instant where
  utc := ⟨⟨2023, 12, 31, by decide⟩, ⟨23, 30, 0, 0, by decide⟩⟩
  wall := ⟨⟨2024, 1, 1, by decide⟩, ⟨0, 30, 0, 0, by decide⟩⟩
  offset := ⟨3600, withinDay_hour⟩
  zone := .place leapFlip

theorem lost_newYearsEve :
    Place.ofYearly (Text.ofString "AAA0BBB,99/18,J100/6") = .ok leapFlip
      ∧ ofUtc newYearsEve.utc (.place leapFlip) = .ok newYearsEve
      ∧ ∃ resolution, (Zone.place leapFlip).instantsAt newYearsEve.wall = .ok resolution
        ∧ ¬ ∃ found ∈ resolution.toList, found.eq newYearsEve
          ∧ found.offset = newYearsEve.offset := by
  have accepted : Place.ofYearly (Text.ofString "AAA0BBB,99/18,J100/6") = .ok leapFlip := by
    decide +kernel
  have made : ofUtc newYearsEve.utc (.place leapFlip) = .ok newYearsEve :=
    (ofUtc_eq_ok rfl).mpr ⟨rfl, rfl, by decide, by decide⟩
  obtain ⟨resolution, asked, found⟩ := found_iff_not_lost accepted made
  refine ⟨accepted, made, resolution, asked, fun again => ?_⟩
  refine found.mp again _ rfl _ rfl (.overNewYear ?_ ?_)
  next => decide
  next => decide

def halfHour : Place where
  rules := .ofYearly ⟨0, ['A', 'A', 'A'],
    some ⟨3600, ['B', 'B', 'B'], ⟨.julian 100, 7200⟩, ⟨.julian 100, 12600⟩⟩⟩
  source := some (Text.ofString "AAA0BBB,J100/2,J100/3:30")

theorem isDate_dayOfChange : IsDate 2023 4 10 := by decide

def afterHalfHour : Instant where
  utc := ⟨⟨2023, 4, 10, isDate_dayOfChange⟩, ⟨2, 45, 0, 0, by decide⟩⟩
  wall := ⟨⟨2023, 4, 10, isDate_dayOfChange⟩, ⟨2, 45, 0, 0, by decide⟩⟩
  offset := ⟨0, Offset.zero.withinDay⟩
  zone := .place halfHour

theorem lost_afterHalfHour :
    ¬ ∀ (source : Text) (place : Place) (utc : Reading) (instant : Instant),
      Place.ofYearly source = .ok place → ofUtc utc (.place place) = .ok instant →
      ∃ resolution, (Zone.place place).instantsAt instant.wall = .ok resolution
        ∧ ∃ found ∈ resolution.toList, found.eq instant ∧ found.offset = instant.offset := by
  intro always
  have made : ofUtc afterHalfHour.utc (.place halfHour) = .ok afterHalfHour :=
    (ofUtc_eq_ok rfl).mpr ⟨rfl, rfl, by decide, by decide⟩
  have skipped : (Zone.place halfHour).instantsAt afterHalfHour.wall = .ok .skipped := by
    unfold Zone.instantsAt
    rw [Zone.offsetsAtWall_place rfl]
    rfl
  obtain ⟨resolution, asked, found, member, -⟩ :=
    always (Text.ofString "AAA0BBB,J100/2,J100/3:30") _ _ _ (by decide +kernel) made
  rw [skipped] at asked
  cases asked
  cases member

end Instant

end ZonedTime
