import ZonedTime.Proofs.Instant.Proper
import ZonedTime.Proofs.Written.Rfc3339

set_option autoImplicit false

namespace ZonedTime

theorem Time.cut_nano (time : Time) (span : Int) :
    (time.cut span).nano = time.nano + -(time.nano % span) := by
  have parts := Int.ediv_mul_add_emod time.nano span
  simp only [cut]
  omega

namespace Reading

variable {reading : Reading} {span : Int}

theorem cut_of_whole (whole : reading.time.nano % span = 0) : reading.cut span = reading := by
  have kept := reading.time.cut_nano span
  rw [whole, Int.neg_zero, Int.add_zero] at kept
  exact eq_of_epochSecond_eq rfl kept

theorem addNanos?_cut (positive : 0 < span) (inBand : reading.InBand) :
    reading.addNanos? (-(reading.time.nano % span)) = some (reading.cut span) := by
  obtain ⟨first, last⟩ := inBand
  have kept := reading.time.cut_nano span
  have rest := Int.emod_nonneg reading.time.nano (Int.ne_of_gt positive)
  have part : reading.time.nano % span ≤ reading.time.nano := by
    have quotient := Int.ediv_nonneg first (Int.le_of_lt positive)
    have product := Int.mul_nonneg quotient (Int.le_of_lt positive)
    simp only [Time.cut] at kept
    omega
  unfold addNanos?
  -- A leap second keeps its nanoseconds apart; it is left only over one of its ends.
  by_cases leap : 1000000000 ≤ reading.time.nano
  next =>
    simp only [leap, if_true]
    rw [if_neg (by omega), if_neg (by omega), ← kept]
    rfl
  next =>
    simp only [leap, if_false]
    rw [onLine?, ofEpoch?_eq_some, cut, kept]
    exact ⟨show reading.epochSecond = _ by omega, by omega⟩

end Reading

namespace Instant

variable {instant : Instant} {digits span : Int}

theorem digitSpan_positive (found : digitSpan digits = .ok span) : 0 < span := by
  unfold digitSpan at found
  split at found
  next => cases found
  next =>
    cases found
    exact Int.natCast_pos.mpr (Nat.pow_pos (by decide))

theorem truncate_eq (found : digitSpan digits = .ok span) (inBand : instant.utc.InBand)
    (coherent : instant.Coherent)
    (kept : instant.zone.offsetAtUtc (instant.utc.cut span) = .ok instant.offset) :
    instant.truncate digits =
      .ok { instant with utc := instant.utc.cut span, wall := instant.wall.cut span } := by
  have moved := Reading.addNanos?_cut (digitSpan_positive found) inBand
  obtain ⟨place, nano⟩ := coherent
  have shifted : (instant.utc.cut span).shift? instant.offset.seconds =
      some (instant.wall.cut span) := by
    refine Reading.shift?_eq_some.mpr ⟨place, ?_⟩
    simp only [Reading.cut, Time.cut, nano]
  unfold truncate
  rw [found, ok_bind]
  simp only
  split
  next whole =>
    rw [Reading.cut_of_whole whole, Reading.cut_of_whole (nano ▸ whole)]
    rfl
  next => simp [addNanos, addNanos?, withUtc?, moved, kept, shifted]

end Instant

end ZonedTime
