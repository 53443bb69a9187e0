import ZonedTime.Proofs.Instant.Coherence

set_option autoImplicit false

namespace ZonedTime

open Calendar (newYear)

structure Instant.FixedAt (fixed : Offset) (instant : Instant) : Prop where
  offset : instant.offset = fixed
  zone : instant.zone = .fixed fixed
  coherent : instant.Coherent

section

variable {fixed : Offset} {wall utc : Reading} {instant : Instant}

theorem Instant.FixedAt.same (held : instant.FixedAt fixed) : instant.same instant := by
  simp [Instant.same, held.zone, Zone.same]

theorem Instant.ofWall?_fixed_iff :
    ofWall? wall fixed (.fixed fixed) = some instant ↔
      instant.wall = wall ∧ instant.FixedAt fixed := by
  constructor
  next =>
    intro made
    have coherent := ofWall?_coherent made
    obtain ⟨utc, -, rfl⟩ := Option.map_eq_some_iff.mp made
    exact ⟨rfl, rfl, rfl, coherent⟩
  next =>
    rintro ⟨rfl, rfl, zone, coherent⟩
    exact Option.map_eq_some_iff.mpr ⟨instant.utc, coherent.shift_back, by rw [← zone]⟩

theorem Instant.ofUtc_fixed_iff :
    ofUtc utc (.fixed fixed) = .ok instant ↔ instant.utc = utc ∧ instant.FixedAt fixed := by
  rw [ofUtc_iff]
  constructor
  next =>
    rintro ⟨utc, zone, coherent, asked⟩
    exact ⟨utc, (Except.ok.inj asked).symm, zone, coherent⟩
  next =>
    rintro ⟨utc, rfl, zone, coherent⟩
    exact ⟨utc, zone, coherent, rfl⟩

theorem Reading.atOffset_fixed_iff :
    wall.atOffset fixed = .ok instant ↔ instant.wall = wall ∧ instant.FixedAt fixed := by
  rw [← Instant.ofWall?_fixed_iff, atOffset]
  cases Instant.ofWall? wall fixed (.fixed fixed) <;> simp

theorem Zone.instantsAt_fixed_iff :
    (Zone.fixed fixed).instantsAt wall = .ok (.single instant) ↔
      instant.wall = wall ∧ instant.FixedAt fixed := by
  rw [← Instant.ofWall?_fixed_iff]
  cases made : Instant.ofWall? wall fixed (.fixed fixed) <;>
    simp [instantsAt, offsetsAtWall, Resolution.filterMap, made]

theorem Instant.ofWall?_fixed_eq_none :
    ofWall? wall fixed (.fixed fixed) = none ↔
      ¬ (newYear 1 ≤ wall.epochSecond - fixed.seconds
        ∧ wall.epochSecond - fixed.seconds < newYear 10000) := by
  have ends : newYear 1 = Reading.first.epochSecond
      ∧ newYear 10000 = Reading.last.epochSecond + 1 := by decide
  rw [ofWall?, Option.map_eq_none_iff, Reading.shift?_eq_none, ends.1, ends.2]
  omega

theorem Zone.instantsAt_fixed_none (beyond : Instant.ofWall? wall fixed (.fixed fixed) = none) :
    (Zone.fixed fixed).instantsAt wall = .ok .skipped := by
  simp [instantsAt, offsetsAtWall, Resolution.filterMap, beyond]

theorem Reading.atOffset_none (beyond : Instant.ofWall? wall fixed (.fixed fixed) = none) :
    wall.atOffset fixed = .error .utcReading := by
  rw [atOffset, beyond]

end

/-- Both ways from the wall make the same instant where the reading in UTC is in range, and else
none, each in its manner. An instant made from the wall is the one made from its reading in UTC, and
the other way round, with nothing lost. -/
theorem Offset.both_ways (fixed : Offset) :
    (∀ wall : Reading,
      ((∃ instant, wall.atOffset fixed = .ok instant) ↔
        newYear 1 ≤ wall.epochSecond - fixed.seconds
          ∧ wall.epochSecond - fixed.seconds < newYear 10000)
      ∧ (∀ instant, wall.atOffset fixed = .ok instant ↔
        (Zone.fixed fixed).instantsAt wall = .ok (.single instant))
      ∧ ((∀ instant, wall.atOffset fixed ≠ .ok instant) →
        wall.atOffset fixed = .error .utcReading ∧ Error.utcReading.kind = .overflow
          ∧ (Zone.fixed fixed).instantsAt wall = .ok .skipped)
      ∧ ∀ instant, wall.atOffset fixed = .ok instant →
        Instant.ofUtc instant.utc (.fixed fixed) = .ok instant ∧ instant.same instant
          ∧ instant.wall = wall ∧ instant.FixedAt fixed)
    ∧ ∀ (utc : Reading) (instant : Instant), Instant.ofUtc utc (.fixed fixed) = .ok instant →
      instant.wall.atOffset fixed = .ok instant ∧ instant.same instant
        ∧ instant.utc = utc ∧ instant.FixedAt fixed := by
  refine ⟨fun wall => ⟨?_, fun instant => ?_, fun refused => ?_, fun instant made => ?_⟩,
    fun utc instant made => ?_⟩
  next =>
    simp only [Reading.atOffset_fixed_iff, ← Instant.ofWall?_fixed_iff]
    rw [← Option.isSome_iff_exists, Option.isSome_iff_ne_none, ne_eq,
      Instant.ofWall?_fixed_eq_none, not_not]
  next => rw [Reading.atOffset_fixed_iff, Zone.instantsAt_fixed_iff]
  next =>
    have beyond : Instant.ofWall? wall fixed (.fixed fixed) = none := by
      refine Option.eq_none_iff_forall_ne_some.mpr fun instant made => refused instant ?_
      rwa [Reading.atOffset_fixed_iff, ← Instant.ofWall?_fixed_iff]
    exact ⟨Reading.atOffset_none beyond, rfl, Zone.instantsAt_fixed_none beyond⟩
  next =>
    have held := Reading.atOffset_fixed_iff.mp made
    exact ⟨Instant.ofUtc_fixed_iff.mpr ⟨rfl, held.2⟩, held.2.same, held⟩
  next =>
    have held := Instant.ofUtc_fixed_iff.mp made
    exact ⟨Reading.atOffset_fixed_iff.mpr ⟨rfl, held.2⟩, held.2.same, held⟩

def eastward : Offset := ⟨5025, by decide⟩

def lastMoment : Reading := ⟨Reading.last.date, { Reading.last.time with nano := 1000000001 }⟩

def lastMomentEast : Instant where
  utc := ⟨lastMoment.date, ⟨22, 36, 14, 1000000001, by decide⟩⟩
  wall := lastMoment
  offset := eastward
  zone := .fixed eastward

theorem Offset.both_ways_eastward :
    lastMoment.atOffset eastward = .ok lastMomentEast
      ∧ (Zone.fixed eastward).instantsAt lastMoment = .ok (.single lastMomentEast)
      ∧ Instant.ofUtc lastMomentEast.utc (.fixed eastward) = .ok lastMomentEast
      ∧ lastMomentEast.wall.atOffset eastward = .ok lastMomentEast
      ∧ Reading.first.atOffset eastward = .error .utcReading
      ∧ (Zone.fixed eastward).instantsAt .first = .ok .skipped := by
  have made : lastMoment.atOffset eastward = .ok lastMomentEast := by rfl
  obtain ⟨fromWall, fromUtc⟩ := both_ways eastward
  obtain ⟨-, single, -, back⟩ := fromWall lastMoment
  obtain ⟨range, -, refused, -⟩ := fromWall .first
  have shown := (back lastMomentEast made).1
  have none := refused fun instant found => absurd (range.mp ⟨instant, found⟩) (by decide)
  exact ⟨made, (single lastMomentEast).mp made, shown, (fromUtc _ _ shown).1, none.1, none.2.2⟩

end ZonedTime
