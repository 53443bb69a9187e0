import Mathlib.Data.Set.Function
import ZonedTime.Proofs.Reading.SecondLine

set_option autoImplicit false

namespace ZonedTime.Reading

/-- A reading that lies on the line of nanoseconds, which has no place for leap seconds. -/
def OnLine (reading : Reading) : Prop := reading.Proper ∧ reading.time.isLeapSecond = false

instance (reading : Reading) : Decidable reading.OnLine := by
  unfold OnLine
  infer_instance

theorem onLine_iff (reading : Reading) :
    reading.OnLine ↔ 0 ≤ reading.time.nano ∧ reading.time.nano < 1000000000 := by
  simp only [OnLine, Proper, Time.Proper, IsProperNano, Time.isLeapSecond,
    decide_eq_false_iff_not]
  omega

theorem first_epochNano : first.epochNano = -62135596800000000000 := by decide

theorem last_epochNano : last.epochNano = 253402300799999999999 := by decide

def Covered (nano : Int) : Prop := first.epochNano ≤ nano ∧ nano ≤ last.epochNano

theorem epochNano_covered {reading : Reading} (onLine : reading.OnLine) :
    Covered reading.epochNano := by
  have bounds := reading.epochSecond_bounds
  rw [onLine_iff] at onLine
  rw [first_epochSecond, last_epochSecond] at bounds
  rw [Covered, first_epochNano, last_epochNano]
  unfold epochNano
  omega

theorem eq_of_epochNano_eq {a b : Reading} (aOnLine : a.OnLine) (bOnLine : b.OnLine)
    (same : a.epochNano = b.epochNano) : a = b := by
  rw [onLine_iff] at aOnLine bOnLine
  unfold epochNano at same
  exact eq_of_epochSecond_eq (by omega) (by omega)

theorem lt_iff_epochNano_lt {a b : Reading} (aOnLine : a.OnLine) (bOnLine : b.OnLine) :
    a.lt b ↔ a.epochNano < b.epochNano := by
  rw [onLine_iff] at aOnLine bOnLine
  rw [lt_iff]
  unfold epochNano
  omega

theorem onLine?_eq_some {second nano : Int} {reading : Reading} :
    onLine? second nano = some reading ↔
      reading.OnLine ∧ reading.epochNano = second * 1000000000 + nano := by
  rw [onLine?, ofEpoch?_eq_some, onLine_iff, epochNano]
  omega

theorem onLine?_eq_none {second nano : Int} :
    onLine? second nano = none ↔
      ¬ Covered (second * 1000000000 + nano) := by
  rw [onLine?, ofEpoch?_eq_none, Covered, first_epochSecond, last_epochSecond,
    first_epochNano, last_epochNano]
  omega

theorem addNanos?_onLine {reading : Reading} (onLine : reading.OnLine) (n : Int) :
    reading.addNanos? n = onLine? reading.epochSecond (reading.time.nano + n) := by
  rw [onLine_iff] at onLine
  simp only [addNanos?, if_neg (Int.not_le.mpr onLine.2)]

theorem epochNano_bijOn :
    Set.BijOn epochNano {reading | reading.OnLine} {nano | Covered nano} := by
  refine ⟨?_, ?_, ?_⟩
  next =>
    intro reading onLine
    exact epochNano_covered onLine
  next =>
    intro a aOnLine b bOnLine same
    exact eq_of_epochNano_eq aOnLine bOnLine same
  next =>
    intro nano covered
    -- Counted from second 0, the reading is looked for at the nanosecond itself.
    cases found : onLine? 0 nano with
    | none =>
      rw [onLine?_eq_none, Int.zero_mul, Int.zero_add] at found
      exact absurd covered found
    | some reading =>
      rw [onLine?_eq_some, Int.zero_mul, Int.zero_add] at found
      exact ⟨reading, found⟩

def LiesAt (result : Option Reading) (nano : Int) : Prop :=
  match result with
  | some sum => sum.OnLine ∧ sum.epochNano = nano
  | none => ¬ Covered nano

theorem onLine?_liesAt (second nano : Int) :
    LiesAt (onLine? second nano) (second * 1000000000 + nano) := by
  cases found : onLine? second nano with
  | none => exact onLine?_eq_none.mp found
  | some sum => exact onLine?_eq_some.mp found

theorem addNanos?_liesAt {reading : Reading} (onLine : reading.OnLine) (n : Int) :
    LiesAt (reading.addNanos? n) (reading.epochNano + n) := by
  have total : reading.epochSecond * 1000000000 + (reading.time.nano + n) =
      reading.epochNano + n := by
    unfold epochNano
    omega
  rw [addNanos?_onLine onLine, ← total]
  exact onLine?_liesAt _ _

theorem LiesAt.unique {result other : Option Reading} {nano : Int} (one : LiesAt result nano)
    (two : LiesAt other nano) : result = other := by
  cases result with
  | none =>
    cases other with
    | none => rfl
    | some sum => exact absurd (two.2 ▸ epochNano_covered two.1) one
  | some sum =>
    cases other with
    | none => exact absurd (one.2 ▸ epochNano_covered one.1) two
    | some sum' => exact congrArg some (eq_of_epochNano_eq one.1 two.1 (one.2.trans two.2.symm))

theorem orElse_eq_ok {error : Error} {result : Option Reading} {sum : Reading} :
    orElse error result = .ok sum ↔ result = some sum := by
  cases result <;> simp [orElse]

theorem orElse_eq_error {error : Error} {result : Option Reading} :
    orElse error result = .error error ↔ result = none := by
  cases result <;> simp [orElse]

theorem since_onLine {a b : Reading} (aOnLine : a.OnLine) (bOnLine : b.OnLine) :
    a.since b = ⟨a.epochNano - b.epochNano⟩ := by
  rw [onLine_iff] at aOnLine bOnLine
  have clock : clockSecondsSince a.time b.time = a.time.secondOfDay - b.time.secondOfDay := by
    -- Leap seconds are corrected for by a second, and there are none.
    unfold clockSecondsSince
    simp only
    rw [if_neg (by omega), if_neg (by omega)]
  simp only [since, clock, epochNano, epochSecond_eq, Duration.mk.injEq]
  omega

/-- Readings without leap seconds and durations add, subtract and compare as integers do, up to
the ends of the calendar, where the checked forms give none and the others an error. -/
theorem arithmetic_on_line :
    Set.BijOn epochNano {reading | reading.OnLine}
        {nano | first.epochNano ≤ nano ∧ nano ≤ last.epochNano}
      ∧ ∀ a : Reading, a.OnLine →
        (∀ b : Reading, b.OnLine →
          (a.lt b ↔ a.epochNano < b.epochNano) ∧ a.since b = ⟨a.epochNano - b.epochNano⟩)
        ∧ ∀ d : Duration,
          LiesAt (a.add? d) (a.epochNano + d.nanos)
          ∧ LiesAt (a.sub? d) (a.epochNano - d.nanos)
          ∧ (a.add d = .error .result ↔ a.add? d = none)
          ∧ (a.sub d = .error .result ↔ a.sub? d = none)
          ∧ (∀ sum, a.add d = .ok sum ↔ a.add? d = some sum)
          ∧ (∀ rest, a.sub d = .ok rest ↔ a.sub? d = some rest)
          ∧ ∀ sum, a.add d = .ok sum → sum.sub d = .ok a ∧ sum.since a = d := by
  refine ⟨epochNano_bijOn, fun a onLine => ⟨fun b bOnLine => ?_, fun d => ?_⟩⟩
  next => exact ⟨lt_iff_epochNano_lt onLine bOnLine, since_onLine onLine bOnLine⟩
  next =>
    refine ⟨addNanos?_liesAt onLine _, addNanos?_liesAt onLine _, orElse_eq_error,
      orElse_eq_error, fun _ => orElse_eq_ok, fun _ => orElse_eq_ok, ?_⟩
    intro sum added
    have there := addNanos?_liesAt onLine d.nanos
    change orElse .result (a.addNanos? d.nanos) = .ok sum at added
    rw [orElse_eq_ok.mp added] at there
    obtain ⟨sumOnLine, place⟩ := there
    constructor
    next =>
      have back := addNanos?_liesAt sumOnLine (-d.nanos)
      have home : LiesAt (some a) (sum.epochNano + -d.nanos) := ⟨onLine, by omega⟩
      exact orElse_eq_ok.mpr (back.unique home)
    next =>
      rw [since_onLine sumOnLine onLine, place]
      exact congrArg Duration.mk (by omega)

def eveBefore : Reading := ⟨⟨1969, 12, 31, by decide⟩, ⟨23, 59, 58, 750000000, by decide⟩⟩

def morningAfter : Reading := ⟨⟨1970, 1, 1, by decide⟩, ⟨0, 0, 1, 0, by decide⟩⟩

theorem arithmetic_around_epoch :
    eveBefore.OnLine ∧ morningAfter.OnLine ∧ eveBefore.add ⟨2250000000⟩ = .ok morningAfter
      ∧ eveBefore.lt morningAfter
      ∧ morningAfter.sub ⟨2250000000⟩ = .ok eveBefore
      ∧ morningAfter.since eveBefore = ⟨2250000000⟩ := by
  have eveOnLine : eveBefore.OnLine := by decide
  have morningOnLine : morningAfter.OnLine := by decide
  have added : eveBefore.add ⟨2250000000⟩ = .ok morningAfter := by decide
  have onLine := arithmetic_on_line.2 eveBefore eveOnLine
  have order := (onLine.1 morningAfter morningOnLine).1
  have back := (onLine.2 ⟨2250000000⟩).2.2.2.2.2.2 morningAfter added
  exact ⟨eveOnLine, morningOnLine, added, order.mpr (by decide), back⟩

end ZonedTime.Reading
