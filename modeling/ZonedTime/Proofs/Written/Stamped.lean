import ZonedTime.Proofs.Text.Scanning
import ZonedTime.Written.Lenient
import ZonedTime.Written.Rfc2822
import ZonedTime.Written.Rfc3339

set_option autoImplicit false

namespace ZonedTime

open Error (IsParse)

def IsFraction (nano : Int) : Prop := 0 ≤ nano ∧ nano < 1000000000

theorem isFraction_zero : IsFraction 0 := by
  constructor <;> omega

theorem IsFraction.proper {nano : Int} (fraction : IsFraction nano) (second : Int) :
    IsProperNano second nano := by
  obtain ⟨first, last⟩ := fraction
  exact ⟨first, by omega, by omega⟩

theorem IsFraction.folded {nano : Int} (fraction : IsFraction nano) :
    IsProperNano 59 (nano + 1000000000) := by
  obtain ⟨first, last⟩ := fraction
  exact ⟨by omega, by omega, fun _ => rfl⟩

theorem Scan.nanosOfDigits_yields (least : Nat) {most : Nat} (nine : most ≤ 9) :
    Yields IsFraction (do return nanosOfDigits (<- digits least most) : Scan Int) := by
  refine (digits_yields least most).bind fun run numeral => Yields.pure ?_
  exact nanosOfDigits_bounds numeral.1 (Nat.le_trans numeral.2 nine)

theorem Instant.ofWall?_proper {wall : Reading} (proper : wall.Proper) {offset : Offset}
    {zone : Zone} {instant : Instant} (made : ofWall? wall offset zone = some instant) :
    instant.wall.Proper := by
  obtain ⟨utc, -, rfl⟩ := Option.map_eq_some_iff.mp made
  exact proper

namespace Stamp

structure Natural (stamp : Stamp) : Prop where
  hour : 0 ≤ stamp.hour
  minute : 0 ≤ stamp.minute
  second : 0 ≤ stamp.second
  nano : IsFraction stamp.nano

structure Sound (stamp : Stamp) : Prop where
  date : IsDate stamp.year stamp.month stamp.day
  clock : IsClock stamp.hour stamp.minute stamp.second
  nano : IsProperNano stamp.second stamp.nano
  withinDay : -86400 < stamp.offset ∧ stamp.offset < 86400

variable {stamp : Stamp}

theorem Natural.fold_sound (natural : stamp.Natural) (inRange : stamp.InRange) :
    stamp.foldLeapSecond.Sound := by
  obtain ⟨hour, minute, second, fraction⟩ := natural
  obtain ⟨date, lastHour, lastMinute, lastSecond, offset⟩ := inRange
  have withinDay : -86400 < stamp.offset ∧ stamp.offset < 86400 := by omega
  unfold foldLeapSecond
  split
  next =>
    have last : (0 : Int) ≤ 59 ∧ (59 : Int) < 60 := by decide
    exact ⟨date, ⟨hour, lastHour, minute, lastMinute, last⟩, fraction.folded, withinDay⟩
  next other =>
    exact ⟨date, ⟨hour, lastHour, minute, lastMinute, second, by omega⟩, fraction.proper _,
      withinDay⟩

theorem check_gives (natural : stamp.Natural) : Gives Sound stamp.check := by
  unfold check
  split
  next inRange => exact natural.fold_sound inRange
  next => trivial

namespace Sound

def wall (sound : stamp.Sound) : Reading :=
  ⟨⟨stamp.year, stamp.month, stamp.day, sound.date⟩,
    ⟨stamp.hour, stamp.minute, stamp.second, stamp.nano, sound.clock⟩⟩

theorem wall_proper (sound : stamp.Sound) : sound.wall.Proper := sound.nano

def shift (sound : stamp.Sound) : Offset := ⟨stamp.offset, sound.withinDay⟩

theorem reading_eq (sound : stamp.Sound) : stamp.reading = .ok sound.wall := by
  unfold reading Reading.ofClock Date.ofFields Date.ofYmd? Time.ofClock
  simp only [dif_pos sound.date, dif_pos sound.clock]
  rfl

theorem ofSeconds_eq (sound : stamp.Sound) : Offset.ofSeconds stamp.offset = .ok sound.shift := by
  unfold Offset.ofSeconds Offset.ofSeconds?
  rw [dif_pos sound.withinDay]
  rfl

theorem toInstant_eq (sound : stamp.Sound) (input : Text) :
    stamp.toInstant input =
      match Instant.ofWall? sound.wall sound.shift (.fixed sound.shift) with
      | some instant => .ok instant
      | none => .error (.issue .outOfRange (some input)) := by
  unfold toInstant
  rw [sound.reading_eq, ok_bind, sound.ofSeconds_eq, ok_bind]
  rfl

end Sound

end Stamp

namespace Rfc3339

theorem fractionRun_yields : Yields IsFraction fractionRun := by
  intro t
  change Gives _ (fractionRun t)
  unfold fractionRun
  simp only
  split
  next => trivial
  next =>
    split
    next => trivial
    next short => exact Scan.nanosOfDigits_bounds List.all_takeWhile (Nat.le_of_not_lt short)

theorem fraction_yields : Yields IsFraction fraction := by
  refine (Yields.any _).bind fun point _ => ?_
  split
  next => exact fractionRun_yields
  next => exact Yields.pure isFraction_zero

theorem shape_yields : Yields (fun found => found.1.Natural) shape := by
  -- The date and the separator come first, and nothing after the fraction touches the clock.
  iterate 6 refine (Yields.any _).bind fun _ _ => ?_
  refine (Scan.number_yields 2).bind fun hour someHour => (Yields.any _).bind fun _ _ => ?_
  refine (Scan.number_yields 2).bind fun minute someMinute => (Yields.any _).bind fun _ _ => ?_
  refine (Scan.number_yields 2).bind fun second someSecond => ?_
  refine fraction_yields.bind fun nano fraction => ?_
  exact (Yields.any _).bind fun _ _ => Yields.pure ⟨someHour, someMinute, someSecond, fraction⟩

theorem parse_ends (t : Text) : Ends Stamp.Sound IsParse (parse t) := by
  have scanned : Gives Stamp.Sound (scan t) := by
    unfold scan
    split
    next => trivial
    next =>
      refine (shape_yields t).bind fun found natural => ?_
      simp only
      repeat' split
      all_goals first
        | trivial
        | exact Stamp.check_gives ⟨natural.hour, natural.minute, natural.second, natural.nano⟩
  exact scanned.mapError_ends fun _ => rfl

end Rfc3339

namespace Lenient

theorem fraction_yields : Yields IsFraction fraction := by
  refine (Yields.any _).bind fun point _ => ?_
  split
  next => exact Scan.nanosOfDigits_yields 0 (Nat.le_refl 9)
  next => exact Yields.pure isFraction_zero

theorem shortNumber_yields : Yields (0 ≤ ·) shortNumber :=
  (Yields.any _).bind fun _ _ => Yields.pure (Int.natCast_nonneg _)

theorem reading_yields : Yields Stamp.Natural reading := by
  iterate 6 refine (Yields.any _).bind fun _ _ => ?_
  refine shortNumber_yields.bind fun hour someHour => (Yields.any _).bind fun _ _ => ?_
  refine shortNumber_yields.bind fun minute someMinute => (Yields.any _).bind fun _ _ => ?_
  refine shortNumber_yields.bind fun second someSecond => ?_
  exact fraction_yields.bind fun nano fraction =>
    Yields.pure ⟨someHour, someMinute, someSecond, fraction⟩

theorem parse_ends (t : Text) : Ends Stamp.Sound IsParse (parse t) := by
  have scanned : Gives Stamp.Sound (scan t) := by
    have read := reading_yields t
    unfold scan
    split
    next => trivial
    next stamp rest found =>
      rw [found] at read
      simp only
      repeat' split
      all_goals first
        | trivial
        | exact Stamp.check_gives ⟨read.hour, read.minute, read.second, read.nano⟩
  exact scanned.mapError_ends fun _ => rfl

end Lenient

namespace Rfc2822

theorem time_gives (t : Text) :
    Gives (fun clock : Int × Int × Int => 0 ≤ clock.1 ∧ 0 ≤ clock.2.1 ∧ 0 ≤ clock.2.2)
      (time t) := by
  unfold time
  simp only
  repeat' split
  all_goals first
    | trivial
    | exact ⟨Int.natCast_nonneg _, Int.natCast_nonneg _, Int.natCast_nonneg _⟩

theorem fields_gives (parts : List Text) : Gives Stamp.Natural (fields parts) := by
  unfold fields
  split
  next =>
    split
    next => trivial
    next =>
      iterate 3 refine (gives_any _).bind fun _ _ => ?_
      refine (time_gives _).bind fun clock ⟨hour, minute, second⟩ => ?_
      refine (gives_any _).bind fun _ _ => ?_
      exact ⟨hour, minute, second, isFraction_zero⟩
  next => trivial

theorem parse_ends (t : Text) : Ends Stamp.Sound IsParse (parse t) := by
  have scanned : Gives Stamp.Sound (scan t) := by
    unfold scan
    split
    next => trivial
    next =>
      iterate 2 refine (gives_any _).bind fun _ _ => ?_
      refine (fields_gives _).bind fun stated natural => ?_
      refine (Stamp.check_gives natural).bind fun stamp sound => ?_
      -- The weekday decides whether the stamp is given, and not which.
      split
      next => exact sound
      next =>
        split
        next => exact sound
        next => trivial
  exact scanned.mapError_ends fun _ => rfl

end Rfc2822

end ZonedTime
