import Mathlib.Order.Bounds.Basic
import ZonedTime.Proofs.Instant.Constant
import ZonedTime.Proofs.Instant.Truncated

set_option autoImplicit false

namespace ZonedTime

def subsecondSpan (digits : Nat) : Int := (10 ^ (9 - min digits 9) : Nat)

theorem subsecondSpan_dvd_of_le {few many : Nat} (le : few ≤ many) :
    subsecondSpan many ∣ subsecondSpan few := by
  apply Int.natCast_dvd_natCast.mpr
  apply Nat.pow_dvd_pow
  omega

theorem subsecondSpan_dvd_second (digits : Nat) : subsecondSpan digits ∣ 1000000000 :=
  subsecondSpan_dvd_of_le (Nat.zero_le digits)

theorem subsecondSpan_pos (digits : Nat) : 0 < subsecondSpan digits :=
  Int.natCast_pos.mpr (Nat.pow_pos (by decide))

theorem next_multiple (n span : Int) : span ∣ n + (span - n % span) := by
  have whole := Int.dvd_self_sub_emod (x := n) (m := span)
  have next := Int.dvd_add whole (Int.dvd_refl span)
  rwa [show n - n % span + span = n + (span - n % span) by omega] at next

namespace Time

variable {time : Time} {span coarse fine : Int}

theorem cut_nano_isGreatest (positive : 0 < span) (time : Time) :
    IsGreatest {n | n ≤ time.nano ∧ span ∣ n} (time.cut span).nano := by
  constructor
  next => exact ⟨Int.ediv_mul_le time.nano (Int.ne_of_gt positive), Int.dvd_mul_left _ _⟩
  next =>
    rintro n ⟨below, multiple⟩
    rw [← Int.ediv_mul_cancel multiple]
    exact Int.mul_le_mul_of_nonneg_right (Int.ediv_le_ediv positive below) (Int.le_of_lt positive)

theorem cut_coarse_cut_fine (positive : 0 < fine) (multiple : fine ∣ coarse) (time : Time) :
    (time.cut fine).cut coarse = time.cut coarse := by
  obtain ⟨count, rfl⟩ := multiple
  simp only [cut, mk.injEq, true_and]
  rw [Int.mul_comm (time.nano / fine) fine, Int.mul_ediv_mul_of_pos _ _ positive,
    Int.ediv_ediv_of_nonneg (Int.le_of_lt positive)]

theorem cut_fine_cut_coarse (multiple : fine ∣ coarse) (time : Time) :
    (time.cut coarse).cut fine = time.cut coarse := by
  have whole : fine ∣ time.nano / coarse * coarse := Int.dvd_trans multiple (Int.dvd_mul_left _ _)
  simp only [cut, Int.ediv_mul_cancel whole]

theorem isLeapSecond_cut_of_dvd (positive : 0 < span) (part : span ∣ 1000000000) (time : Time) :
    (time.cut span).isLeapSecond = time.isLeapSecond := by
  have greatest := cut_nano_isGreatest positive time
  rw [Bool.eq_iff_iff, isLeapSecond_iff, isLeapSecond_iff]
  exact ⟨fun late => Int.le_trans late greatest.1.1, fun late => greatest.2 ⟨late, part⟩⟩

end Time

namespace Reading

variable {reading sum : Reading} {n : Int}

theorem cut_cut (few many : Nat) (reading : Reading) :
    (reading.cut (subsecondSpan many)).cut (subsecondSpan few) =
      reading.cut (subsecondSpan (min few many)) := by
  by_cases fewer : few ≤ many
  next =>
    have time := Time.cut_coarse_cut_fine (subsecondSpan_pos many) (subsecondSpan_dvd_of_le fewer)
      reading.time
    rw [Nat.min_eq_left fewer]
    simp only [cut, time]
  next =>
    have less : many ≤ few := Nat.le_of_not_le fewer
    have time := Time.cut_fine_cut_coarse (subsecondSpan_dvd_of_le less) reading.time
    rw [Nat.min_eq_right less]
    simp only [cut, time]

theorem cut_inBand {span : Int} (positive : 0 < span) (inBand : reading.InBand) :
    (reading.cut span).InBand := by
  have greatest := Time.cut_nano_isGreatest positive reading.time
  exact ⟨greatest.2 ⟨inBand.1, Int.dvd_zero span⟩, Int.lt_of_le_of_lt greatest.1.1 inBand.2⟩

/-- Whatever becomes of a leap second, it changes the nanoseconds by whole seconds. -/
theorem addNanos?_nano (added : reading.addNanos? n = some sum) :
    sum.time.nano % 1000000000 = (reading.time.nano + n) % 1000000000 := by
  have place {reading : Reading} : reading.epochNano =
      reading.epochSecond * 1000000000 + reading.time.nano := rfl
  rcases addNanos?_cases added with ⟨-, -, line⟩ | ⟨-, -, -, ahead⟩ | ⟨-, -, -, back⟩
    | ⟨-, -, -, rfl⟩
  next => rw [place, place] at line; omega
  next => rw [place, place] at ahead; omega
  next => rw [place, place] at back; omega
  next => rfl

theorem dvd_of_added {span : Int} (part : span ∣ 1000000000)
    (multiple : span ∣ reading.time.nano + n) (added : reading.addNanos? n = some sum) :
    span ∣ sum.time.nano := by
  apply Int.dvd_of_emod_eq_zero
  rw [← Int.emod_emod_of_dvd _ part, addNanos?_nano added, Int.emod_emod_of_dvd _ part]
  exact Int.emod_eq_zero_of_dvd multiple

theorem addNanos?_leapEnd (leap : 1000000000 ≤ reading.time.nano)
    (full : reading.time.nano + n = 2000000000) (added : reading.addNanos? n = some sum) :
    sum.epochSecond = reading.epochSecond + 1 ∧ sum.time.nano = 0 := by
  rcases addNanos?_cases added with ⟨line, -⟩ | ⟨-, -, onLine, ahead⟩ | ⟨-, back, -⟩
    | ⟨-, -, within, -⟩
  next => omega
  next =>
    rw [onLine_iff] at onLine
    unfold epochNano at ahead
    omega
  next => omega
  next => omega

end Reading

namespace Instant

variable {instant : Instant} {utc : Reading}

def dropped (instant : Instant) (digits : Nat) : Int :=
  instant.utc.time.nano % subsecondSpan digits

theorem digitSpan_natCast (digits : Nat) : digitSpan digits = .ok (subsecondSpan digits) := by
  rw [digitSpan, if_neg (Int.not_lt.mpr (Int.natCast_nonneg digits)), Int.toNat_natCast]
  rfl

theorem round_of_whole {digits : Nat} (whole : instant.dropped digits = 0) :
    instant.round digits = .ok instant := by
  unfold dropped at whole
  simp only [round, digitSpan_natCast, ok_bind]
  rw [if_pos whole]
  rfl

theorem round_down {digits : Nat} (down : 2 * instant.dropped digits < subsecondSpan digits) :
    instant.round digits = instant.truncate digits := by
  unfold dropped at down
  simp only [round, truncate, digitSpan_natCast, ok_bind]
  rw [if_neg (show ¬ subsecondSpan digits - instant.utc.time.nano % subsecondSpan digits ≤
    instant.utc.time.nano % subsecondSpan digits by omega)]

theorem round_up {digits : Nat} (up : subsecondSpan digits ≤ 2 * instant.dropped digits) :
    instant.round digits = instant.add ⟨subsecondSpan digits - instant.dropped digits⟩ := by
  have positive := subsecondSpan_pos digits
  unfold dropped at up ⊢
  simp only [round, digitSpan_natCast, ok_bind]
  rw [if_neg (by omega), if_pos (by omega)]
  rfl

theorem Reachable.eq_inUtc (reachable : Reachable instant) (zone : instant.zone = .utc) :
    instant = instant.utc.inUtc := by
  obtain ⟨place, nano⟩ := reachable.coherent
  have offset : instant.offset = .zero := reachable.settled .zero (by rw [zone]; rfl)
  rw [offset] at place
  have wall : instant.wall = instant.utc :=
    Reading.eq_of_epochSecond_eq (place.trans (Int.add_zero _)) nano
  cases instant
  simp_all [Reading.inUtc]

theorem truncate_inUtc (inBand : utc.InBand) (digits : Nat) :
    utc.inUtc.truncate digits = .ok (utc.cut (subsecondSpan digits)).inUtc :=
  truncate_eq (digitSpan_natCast digits) inBand utc.inUtc_coherent rfl

theorem add_inUtc (utc : Reading) (duration : Duration) :
    utc.inUtc.add duration = (utc.add duration).map Reading.inUtc := by
  have sum : utc.inUtc.utc.addNanos? duration.nanos = utc.add? duration := rfl
  rw [add, addNanos, addNanos?, sum, Reading.add]
  cases utc.add? duration with
  | none => rfl
  | some sum => rfl

theorem map_add_eq_ok {duration : Duration} :
    (utc.add duration).map Reading.inUtc = .ok instant ↔
      ∃ sum, utc.add? duration = some sum ∧ sum.inUtc = instant := by
  rw [Reading.add]
  cases utc.add? duration <;> simp [Reading.orElse, Except.map]

theorem map_add_eq_error {duration : Duration} {error : Error} :
    (utc.add duration).map Reading.inUtc = .error error ↔
      error = .result ∧ utc.add? duration = none := by
  rw [Reading.add]
  cases utc.add? duration <;> simp [Reading.orElse, Except.map, eq_comm]

/-- The dropped digits decide between the two neighbours, of which the later one may not exist. -/
theorem round_cases (reachable : Reachable instant) (zone : instant.zone = .utc)
    (proper : instant.utc.Proper) (digits : Nat) :
    (2 * instant.dropped digits < subsecondSpan digits
        ∧ instant.round digits = .ok (instant.utc.cut (subsecondSpan digits)).inUtc)
      ∨ (subsecondSpan digits ≤ 2 * instant.dropped digits
        ∧ instant.round digits = (instant.utc.add
          ⟨subsecondSpan digits - instant.dropped digits⟩).map Reading.inUtc) := by
  have shown := reachable.eq_inUtc zone
  by_cases down : 2 * instant.dropped digits < subsecondSpan digits
  next =>
    have cut := truncate_inUtc proper.inBand digits
    rw [← shown] at cut
    exact .inl ⟨down, (round_down down).trans cut⟩
  next =>
    have up := Int.not_lt.mp down
    have sum := add_inUtc instant.utc ⟨subsecondSpan digits - instant.dropped digits⟩
    rw [← shown] at sum
    exact .inr ⟨up, (round_up up).trans sum⟩

theorem round_round (reachable : Reachable instant) (zone : instant.zone = .utc)
    (proper : instant.utc.Proper) {digits : Nat} {rounded : Instant}
    (found : instant.round digits = .ok rounded) : rounded.round digits = .ok rounded := by
  apply round_of_whole
  apply Int.emod_eq_zero_of_dvd
  rcases round_cases reachable zone proper digits with ⟨-, down⟩ | ⟨-, up⟩
  next =>
    rw [down] at found
    cases found
    exact Int.dvd_mul_left _ _
  next =>
    rw [up, map_add_eq_ok] at found
    obtain ⟨sum, added, rfl⟩ := found
    exact Reading.dvd_of_added (subsecondSpan_dvd_second digits) (next_multiple _ _) added

/-- Digits are cut off within the second, down to the greatest nanosecond that has no more of them,
and cut off twice as by the fewer digits. A half or more is rounded up by an addition, which leads
out of a leap second at its end and fails where there is no later reading; the rest is cut off. -/
theorem truncated_and_rounded {instant : Instant} (reachable : Reachable instant)
    (zone : instant.zone = .utc) (proper : instant.utc.Proper) (j k : Nat) :
    (∃ cut : Reading, instant.truncate k = .ok cut.inUtc
      ∧ cut.epochSecond = instant.utc.epochSecond
      ∧ IsGreatest {n | n ≤ instant.utc.time.nano ∧ subsecondSpan k ∣ n} cut.time.nano
      ∧ cut.time.isLeapSecond = instant.utc.time.isLeapSecond
      ∧ cut.inUtc.truncate j = instant.truncate (min j k : Nat))
    ∧ (2 * instant.dropped k < subsecondSpan k → instant.round k = instant.truncate k)
    ∧ (subsecondSpan k ≤ 2 * instant.dropped k →
      instant.round k =
          (instant.utc.add ⟨subsecondSpan k - instant.dropped k⟩).map Reading.inUtc
        ∧ (instant.utc.time.nano + (subsecondSpan k - instant.dropped k) = 2000000000 →
          ∀ up, instant.round k = .ok up →
            up.utc.epochSecond = instant.utc.epochSecond + 1 ∧ up.utc.time.nano = 0))
    ∧ (∀ error, instant.round k = .error error ↔
      error = .result ∧ subsecondSpan k ≤ 2 * instant.dropped k
        ∧ instant.utc.add? ⟨subsecondSpan k - instant.dropped k⟩ = none)
    ∧ Error.result.kind = .overflow
    ∧ ∀ rounded, instant.round k = .ok rounded → rounded.round k = .ok rounded := by
  have shown := reachable.eq_inUtc zone
  have positive := subsecondSpan_pos k
  have cases := round_cases reachable zone proper k
  have cut (digits : Nat) : instant.truncate digits =
      .ok (instant.utc.cut (subsecondSpan digits)).inUtc := by
    have inUtc := truncate_inUtc proper.inBand digits
    rwa [← shown] at inUtc
  refine ⟨⟨instant.utc.cut (subsecondSpan k), cut k, rfl,
    Time.cut_nano_isGreatest positive instant.utc.time,
    Time.isLeapSecond_cut_of_dvd positive (subsecondSpan_dvd_second k) instant.utc.time, ?_⟩,
    round_down, fun half => ?_, fun error => ?_, rfl,
    fun rounded => round_round reachable zone proper⟩
  next =>
    have inBand := Reading.cut_inBand positive proper.inBand
    rw [truncate_inUtc inBand j, Reading.cut_cut, cut]
  next =>
    obtain ⟨-, up⟩ := cases.resolve_left fun down => absurd down.1 (Int.not_lt.mpr half)
    refine ⟨up, fun full rounded found => ?_⟩
    rw [up, map_add_eq_ok] at found
    obtain ⟨sum, added, rfl⟩ := found
    have second := Int.le_of_dvd (by decide) (subsecondSpan_dvd_second k)
    have rest := Int.emod_nonneg instant.utc.time.nano (Int.ne_of_gt positive)
    have leap : 1000000000 ≤ instant.utc.time.nano := by
      unfold dropped at full
      omega
    exact Reading.addNanos?_leapEnd leap full added
  next =>
    rcases cases with ⟨down, found⟩ | ⟨half, up⟩
    next =>
      have none : ¬ subsecondSpan k ≤ 2 * instant.dropped k := Int.not_le.mpr down
      simp [found, none]
    next => simp only [up, map_add_eq_error, half, true_and]

def lastMoments : Reading := ⟨.last, { Reading.last.time with nano := 1999999500 }⟩

theorem reachable_lastMoments : Reachable lastMoments.inUtc := by
  have made : (Source.inUtc lastMoments).run = .ok [lastMoments.inUtc] := rfl
  exact .made made (.head _)

theorem truncated_and_rounded_lastMoments :
    lastMoments.Proper ∧ Reachable lastMoments.inUtc
      ∧ (∃ cut : Reading, lastMoments.inUtc.truncate 6 = .ok cut.inUtc
        ∧ cut.time.isLeapSecond = true
        ∧ cut.inUtc.truncate 2 = lastMoments.inUtc.truncate 2)
      ∧ lastMoments.inUtc.dropped 6 = 500 ∧ lastMoments.inUtc.round 6 = .error .result := by
  have proper : lastMoments.Proper := by decide
  have dropped : lastMoments.inUtc.dropped 6 = 500 := by decide
  obtain ⟨⟨cut, cutOff, -, -, leap, twice⟩, -, -, failed, -⟩ :=
    truncated_and_rounded reachable_lastMoments rfl proper 2 6
  have beyond := (failed .result).mpr ⟨rfl, by decide, by decide⟩
  exact ⟨proper, reachable_lastMoments, ⟨cut, cutOff, leap, twice⟩, dropped, beyond⟩

end Instant

end ZonedTime
