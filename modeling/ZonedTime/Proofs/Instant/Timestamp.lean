import ZonedTime.Proofs.Instant.Proper

set_option autoImplicit false

namespace ZonedTime

section

variable {utc : Reading} {seconds nanos n : Int} {instant : Instant}

theorem Instant.ofUtc_inUtc (utc : Reading) : ofUtc utc .utc = .ok utc.inUtc := rfl

theorem Reading.same_inUtc (utc : Reading) : utc.inUtc.same utc.inUtc = true := by
  simp [Instant.same, inUtc, Zone.same]

theorem Reading.exists_epochSecond_iff :
    (∃ utc : Reading, utc.epochSecond = seconds) ↔
      first.epochSecond ≤ seconds ∧ seconds ≤ last.epochSecond := by
  have ends : Calendar.newYear 1 = first.epochSecond
      ∧ Calendar.newYear 10000 = last.epochSecond + 1 := by decide
  constructor
  next =>
    rintro ⟨utc, rfl⟩
    exact utc.epochSecond_bounds
  next =>
    rintro ⟨low, high⟩
    exact exists_epochSecond (by omega) (by omega)

namespace Instant

theorem ofTimestamp_eq_ok :
    ofTimestamp seconds nanos .utc = .ok instant ↔
      ∃ utc : Reading, utc.Proper ∧ utc.epochSecond = seconds ∧ utc.time.nano = nanos
        ∧ instant = utc.inUtc := by
  constructor
  next =>
    intro made
    have proper := (ofTimestamp_proper seconds nanos .utc).good_of_ok made
    unfold ofTimestamp at made
    split at made
    next => cases made
    next =>
      split at made
      next => cases made
      next =>
        split at made
        next utc found =>
          obtain ⟨second, nano⟩ := Reading.ofEpoch?_eq_some.mp found
          cases made
          exact ⟨utc, proper, second, nano, rfl⟩
        next => cases made
  next =>
    rintro ⟨utc, proper, rfl, rfl, rfl⟩
    obtain ⟨⟨low, high⟩, second⟩ := utc.proper_iff.mp proper
    rw [ofTimestamp, if_neg (by omega), if_neg (by omega), Reading.ofEpoch?_eq_some.mpr ⟨rfl, rfl⟩]
    exact ofUtc_inUtc utc

theorem ofNanos_eq_ok :
    ofNanos n .utc = .ok instant ↔
      ∃ utc : Reading, utc.OnLine ∧ utc.epochNano = n ∧ instant = utc.inUtc := by
  rw [ofNanos, ofTimestamp_eq_ok]
  constructor
  next =>
    rintro ⟨utc, proper, second, nano, rfl⟩
    refine ⟨utc, (Reading.onLine_iff utc).mpr (by omega), ?_, rfl⟩
    unfold Reading.epochNano
    omega
  next =>
    rintro ⟨utc, onLine, rfl, rfl⟩
    obtain ⟨low, high⟩ := (Reading.onLine_iff utc).mp onLine
    refine ⟨utc, onLine.1, ?_, ?_, rfl⟩
    next => unfold Reading.epochNano; omega
    next => unfold Reading.epochNano; omega

theorem ofMillis_eq_ofNanos (n : Int) (zone : Zone) :
    ofMillis n zone = ofNanos (n * 1000000) zone := by
  have second : n * 1000000 / 1000000000 = n / 1000 := by omega
  have nano : n * 1000000 % 1000000000 = n % 1000 * 1000000 := by omega
  rw [ofMillis, ofNanos, second, nano]

theorem exists_ofNanos_iff :
    (∃ instant, ofNanos n .utc = .ok instant) ↔
      first.timestampNanos ≤ n ∧ n ≤ last.timestampNanos := by
  simp only [ofNanos_eq_ok]
  constructor
  next =>
    rintro ⟨-, utc, onLine, rfl, -⟩
    exact Reading.epochNano_covered onLine
  next =>
    intro covered
    obtain ⟨utc, onLine, place⟩ := Reading.epochNano_bijOn.surjOn covered
    exact ⟨utc.inUtc, utc, onLine, place, rfl⟩

theorem exists_ofMillis_iff :
    (∃ instant, ofMillis n .utc = .ok instant) ↔
      first.timestampMillis ≤ n ∧ n ≤ last.timestampMillis := by
  have nanos : first.timestampNanos = -62135596800000000000
      ∧ last.timestampNanos = 253402300799999999999 := by decide
  have millis : first.timestampMillis = -62135596800000
      ∧ last.timestampMillis = 253402300799999 := by decide
  rw [ofMillis_eq_ofNanos, exists_ofNanos_iff, nanos.1, nanos.2, millis.1, millis.2]
  omega

theorem timestampNanos_ofNanos (made : ofNanos n .utc = .ok instant) :
    instant.timestampNanos = n := by
  obtain ⟨utc, -, place, rfl⟩ := ofNanos_eq_ok.mp made
  exact place

theorem timestampMillis_ofMillis (made : ofMillis n .utc = .ok instant) :
    instant.timestampMillis = n := by
  rw [ofMillis_eq_ofNanos] at made
  obtain ⟨utc, onLine, place, rfl⟩ := ofNanos_eq_ok.mp made
  rw [Reading.onLine_iff] at onLine
  change utc.epochSecond * 1000 + utc.time.nano / 1000000 = n
  unfold Reading.epochNano at place
  omega

theorem exists_ofTimestamp_iff (low : 0 ≤ nanos) (high : nanos < 2000000000) :
    (∃ instant, ofTimestamp seconds nanos .utc = .ok instant) ↔
      (first.timestamp ≤ seconds ∧ seconds ≤ last.timestamp)
        ∧ (nanos < 1000000000
          ∨ ∃ utc : Reading, utc.epochSecond = seconds ∧ utc.time.second = 59) := by
  have range : first.timestamp ≤ seconds ∧ seconds ≤ last.timestamp ↔
      ∃ utc : Reading, utc.epochSecond = seconds := Reading.exists_epochSecond_iff.symm
  -- Every reading of the second can be moved to the nanoseconds, and is proper there or not.
  have moved (utc : Reading) (second : utc.epochSecond = seconds)
      (leap : nanos < 1000000000 ∨ utc.time.second = 59) :
      ∃ instant, ofTimestamp seconds nanos .utc = .ok instant := by
    let there : Reading := ⟨utc.date, { utc.time with nano := nanos }⟩
    have proper : there.Proper :=
      ⟨low, high, fun late => leap.resolve_left (Int.not_lt.mpr late)⟩
    exact ⟨there.inUtc, ofTimestamp_eq_ok.mpr ⟨there, proper, second, rfl, rfl⟩⟩
  rw [range]
  constructor
  next =>
    rintro ⟨instant, made⟩
    obtain ⟨utc, proper, second, rfl, -⟩ := ofTimestamp_eq_ok.mp made
    refine ⟨⟨utc, second⟩, ?_⟩
    by_cases late : 1000000000 ≤ utc.time.nano
    next => exact .inr ⟨utc, second, proper.2.2 late⟩
    next => exact .inl (Int.not_le.mp late)
  next =>
    rintro ⟨⟨utc, second⟩, early | ⟨other, same, leap⟩⟩
    next => exact moved utc second (.inl early)
    next => exact moved other same (.inr leap)

/-- Instants in UTC are made from the nanoseconds and milliseconds between the first and the last
instant and no others, and give back what they were made from. Seconds with nanoseconds beside them
reach every proper reading as well, in leap seconds too, which are made at second 59 only. -/
theorem timestamps_exact :
    (∀ n : Int,
      ((∃ instant, ofNanos n .utc = .ok instant) ↔
        first.timestampNanos ≤ n ∧ n ≤ last.timestampNanos)
      ∧ ∀ instant, ofNanos n .utc = .ok instant → instant.timestampNanos = n)
    ∧ (∀ n : Int,
      ((∃ instant, ofMillis n .utc = .ok instant) ↔
        first.timestampMillis ≤ n ∧ n ≤ last.timestampMillis)
      ∧ ∀ instant, ofMillis n .utc = .ok instant → instant.timestampMillis = n)
    ∧ (∀ utc : Reading, utc.Proper → ∃ instant, ofUtc utc .utc = .ok instant
      ∧ ∃ again, ofTimestamp instant.timestamp instant.utc.time.nano .utc = .ok again
        ∧ again.same instant = true)
    ∧ ∀ seconds nanos : Int, 0 ≤ nanos → nanos < 2000000000 →
      ((∃ instant, ofTimestamp seconds nanos .utc = .ok instant) ↔
        (first.timestamp ≤ seconds ∧ seconds ≤ last.timestamp)
          ∧ (nanos < 1000000000
            ∨ ∃ utc : Reading, utc.epochSecond = seconds ∧ utc.time.second = 59)) := by
  refine ⟨fun n => ⟨exists_ofNanos_iff, fun _ => timestampNanos_ofNanos⟩,
    fun n => ⟨exists_ofMillis_iff, fun _ => timestampMillis_ofMillis⟩, ?_,
    fun seconds nanos => exists_ofTimestamp_iff⟩
  intro utc proper
  have made := ofTimestamp_eq_ok.mpr ⟨utc, proper, rfl, rfl, rfl⟩
  exact ⟨utc.inUtc, ofUtc_inUtc utc, utc.inUtc, made, utc.same_inUtc⟩

def leapBefore1970 : Reading :=
  ⟨⟨1969, 6, 30, by decide⟩, { Reading.last.time with nano := 1500000000 }⟩

theorem timestamps_exact_leapBefore1970 :
    leapBefore1970.Proper
      ∧ (∃ instant, ofUtc leapBefore1970 .utc = .ok instant
        ∧ ∃ again, ofTimestamp instant.timestamp instant.utc.time.nano .utc = .ok again
          ∧ again.same instant = true)
      ∧ (∃ instant, ofNanos (-62135596800000000000) .utc = .ok instant)
      ∧ ofNanos (-1) .utc = .ok (Reading.inUtc
        ⟨⟨1969, 12, 31, by decide⟩, { Reading.last.time with nano := 999999999 }⟩)
      ∧ (∃ instant, ofTimestamp (-15897601) 1500000000 .utc = .ok instant)
      ∧ ¬ ∃ instant, ofTimestamp 253402300800 0 .utc = .ok instant := by
  have proper : leapBefore1970.Proper := by decide
  obtain ⟨nanos, -, readings, seconds⟩ := timestamps_exact
  have last : last.timestamp = 253402300799 := by decide
  refine ⟨proper, readings leapBefore1970 proper, (nanos _).1.mpr (by decide), rfl,
    (seconds _ _ (by decide) (by decide)).mpr ⟨by decide, .inr ⟨leapBefore1970, rfl, rfl⟩⟩, ?_⟩
  rw [seconds _ _ (by decide) (by decide), last]
  omega

end Instant

end

end ZonedTime
