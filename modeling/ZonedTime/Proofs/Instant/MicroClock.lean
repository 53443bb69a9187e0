import ZonedTime.Proofs.Instant.FixedOffset
import ZonedTime.Proofs.Reading.Arithmetic
import ZonedTime.Proofs.Written.Rfc3339

set_option autoImplicit false

namespace ZonedTime

open Calendar (newYear epochDay secondsPerDay)

namespace MicroStamp

variable {stamp : MicroStamp} {fixed : Offset}

structure Real (stamp : MicroStamp) : Prop where
  date : IsDate stamp.year stamp.month stamp.day
  clock : IsClock stamp.hour stamp.minute stamp.second
  micro : 0 ≤ stamp.micro ∧ stamp.micro < 1000000
  offset : ∀ offset ∈ stamp.offset, -86400000000 < offset ∧ offset < 86400000000

def epochSecond (stamp : MicroStamp) : Int :=
  (Calendar.dayNumber stamp.year stamp.month stamp.day - epochDay) * secondsPerDay
    + (3600 * stamp.hour + 60 * stamp.minute + stamp.second)

def Real.wall (real : stamp.Real) : Reading where
  date := ⟨stamp.year, stamp.month, stamp.day, real.date⟩
  time := ⟨stamp.hour, stamp.minute, stamp.second, stamp.micro * 1000, real.clock⟩

theorem Real.wall_epochSecond (real : stamp.Real) : real.wall.epochSecond = stamp.epochSecond :=
  rfl

theorem Real.reading_eq (real : stamp.Real) : stamp.reading = .ok real.wall := by
  obtain ⟨low, high⟩ := real.micro
  let whole : Reading := ⟨real.wall.date, { real.wall.time with nano := 0 }⟩
  have proper : whole.Proper := isFraction_zero.proper _
  have fields : whole.fields = ⟨stamp.year, stamp.month, stamp.day, stamp.hour, stamp.minute,
      stamp.second, 0⟩ := rfl
  have made := Reading.make_fields proper
  rw [fields] at made
  have narrow : fitsField stamp.micro = true := by
    simp only [fitsField, Bool.and_eq_true, decide_eq_true_eq]
    omega
  have inSecond : ¬ (stamp.micro < 0 ∨ 999999 < stamp.micro) := by omega
  simp [reading, narrow, made, inSecond]
  rfl

theorem Real.toInstant_eq (real : stamp.Real)
    (whole : stamp.offset = some (fixed.seconds * 1000000)) :
    stamp.toInstant = real.wall.atOffset fixed := by
  have seconds : fixed.seconds * 1000000 / 1000000 = fixed.seconds := by omega
  have noRest : fixed.seconds * 1000000 % 1000000 = 0 := by omega
  unfold toInstant
  simp [real.reading_eq, whole, seconds, noRest, fixed.ofSeconds_seconds]

theorem Real.exists_toInstant (real : stamp.Real)
    (whole : stamp.offset = some (fixed.seconds * 1000000))
    (first : newYear 1 ≤ stamp.epochSecond - fixed.seconds)
    (last : stamp.epochSecond - fixed.seconds < newYear 10000) :
    ∃ instant, stamp.toInstant = .ok instant ∧ instant.wall = real.wall
      ∧ instant.FixedAt fixed := by
  rw [real.toInstant_eq whole]
  cases made : Instant.ofWall? real.wall fixed (.fixed fixed) with
  | some instant =>
    have held := Instant.ofWall?_fixed_iff.mp made
    exact ⟨instant, Reading.atOffset_fixed_iff.mpr held, held⟩
  | none =>
    have beyond := Instant.ofWall?_fixed_eq_none.mp made
    rw [real.wall_epochSecond] at beyond
    exact absurd ⟨first, last⟩ beyond

end MicroStamp

namespace Instant

variable {instant : Instant}

theorem toMicro_onLine (onLine : instant.wall.OnLine) :
    instant.toMicro = .ofReading instant.wall (instant.wall.time.nano / 1000)
      (some (instant.offset.seconds * 1000000)) := by
  have early := ((Reading.onLine_iff _).mp onLine).2
  simp only [toMicro, if_neg (Int.not_le.mpr early)]

theorem ofReading_real (onLine : instant.wall.OnLine) :
    (MicroStamp.ofReading instant.wall (instant.wall.time.nano / 1000)
      (some (instant.offset.seconds * 1000000))).Real := by
  obtain ⟨low, high⟩ := (Reading.onLine_iff _).mp onLine
  obtain ⟨west, east⟩ := instant.offset.withinDay
  constructor
  next => exact instant.wall.date.real
  next => exact instant.wall.time.inDay
  next =>
    change 0 ≤ instant.wall.time.nano / 1000 ∧ instant.wall.time.nano / 1000 < 1000000
    omega
  next =>
    rintro offset ⟨⟩
    omega

theorem Coherent.cut (coherent : instant.Coherent) (span : Int) (zone : Zone) :
    Coherent ⟨instant.utc.cut span, instant.wall.cut span, instant.offset, zone⟩ := by
  obtain ⟨place, nano⟩ := coherent
  refine ⟨place, ?_⟩
  simp only [Reading.cut, Time.cut, nano]

theorem toInstant_toMicro (coherent : instant.Coherent) (onLine : instant.wall.OnLine) :
    instant.toMicro.toInstant = .ok ⟨instant.utc.cut 1000, instant.wall.cut 1000, instant.offset,
      .fixed instant.offset⟩ := by
  have real := ofReading_real onLine
  rw [toMicro_onLine onLine, real.toInstant_eq rfl, Reading.atOffset_fixed_iff]
  exact ⟨rfl, rfl, rfl, coherent.cut 1000 _⟩

theorem toMicro_eq {stamp : MicroStamp} (real : stamp.Real) (wall : instant.wall = real.wall)
    (whole : stamp.offset = some (instant.offset.seconds * 1000000)) :
    instant.toMicro = stamp := by
  obtain ⟨low, high⟩ := real.micro
  have nano : instant.wall.time.nano = stamp.micro * 1000 := by
    rw [wall]
    rfl
  have onLine : instant.wall.OnLine := by
    rw [Reading.onLine_iff, nano]
    omega
  have micro : stamp.micro * 1000 / 1000 = stamp.micro := by omega
  rw [toMicro_onLine onLine, nano, micro, wall, ← whole]
  rfl

end Instant

/-- Clocks that count microseconds take an instant and give it back, at its offset and with less
than a microsecond cut off, whatever its zone; all instants that programs come by are coherent. What
such a clock shows at an offset of whole seconds is taken and given back without a change, as far as
the years in UTC go. -/
theorem micro_round_trips :
    (∀ instant : Instant, instant.Coherent → instant.wall.OnLine →
      ∃ back, instant.toMicro.toInstant = .ok back ∧ back.offset = instant.offset
        ∧ back.utc = instant.utc.cut 1000 ∧ back.wall = instant.wall.cut 1000)
    ∧ ∀ (stamp : MicroStamp) (seconds : Int), stamp.Real →
      stamp.offset = some (seconds * 1000000) →
      newYear 1 ≤ stamp.epochSecond - seconds → stamp.epochSecond - seconds < newYear 10000 →
        ∃ instant, stamp.toInstant = .ok instant ∧ instant.toMicro = stamp := by
  constructor
  next =>
    intro instant coherent onLine
    exact ⟨_, Instant.toInstant_toMicro coherent onLine, rfl, rfl, rfl⟩
  next =>
    intro stamp seconds real whole first last
    have bounds := real.offset _ whole
    let fixed : Offset := ⟨seconds, by omega⟩
    have atFixed : stamp.offset = some (fixed.seconds * 1000000) := whole
    obtain ⟨instant, made, wall, held⟩ := real.exists_toInstant atFixed first last
    rw [← held.offset] at atFixed
    exact ⟨instant, made, Instant.toMicro_eq real wall atFixed⟩

def lateEvening : MicroStamp := ⟨2015, 6, 30, 23, 59, 59, 500001, some (-12612 * 1000000)⟩

theorem lateEvening_real : lateEvening.Real where
  date := by decide
  clock := by decide
  micro := by decide
  offset := by decide

def lastEast : Instant where
  utc := ⟨.last, ⟨22, 47, 58, 999999999, by decide⟩⟩
  wall := .last
  offset := ⟨4321, by decide⟩
  zone := .fixed ⟨4321, by decide⟩

theorem micro_round_trips_lateEvening :
    lateEvening.Real ∧ lastEast.Coherent ∧ lastEast.wall.OnLine
      ∧ (∃ instant, lateEvening.toInstant = .ok instant ∧ instant.toMicro = lateEvening)
      ∧ ∃ back, lastEast.toMicro.toInstant = .ok back
        ∧ back.wall = ⟨.last, { Reading.last.time with nano := 999999000 }⟩ := by
  have coherent : lastEast.Coherent := by decide
  have onLine : lastEast.wall.OnLine := by decide
  obtain ⟨instants, stamps⟩ := micro_round_trips
  obtain ⟨back, taken, -, -, wall⟩ := instants lastEast coherent onLine
  have given := stamps lateEvening (-12612) lateEvening_real rfl (by decide) (by decide)
  exact ⟨lateEvening_real, coherent, onLine, given, back, taken, wall⟩

end ZonedTime
