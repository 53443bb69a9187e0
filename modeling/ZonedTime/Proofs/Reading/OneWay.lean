import Mathlib.Algebra.Order.BigOperators.Group.List
import ZonedTime.Proofs.Reading.LeapSecond

set_option autoImplicit false

namespace ZonedTime

def Duration.sum? (durations : List Duration) : Option Duration :=
  ofNanos? (durations.map nanos).sum

namespace Reading

def addEach? (reading : Reading) (durations : List Duration) : Option Reading :=
  durations.foldlM add? reading

def StaysInLeap (reading : Reading) (n : Int) : Prop :=
  1000000000 ≤ reading.time.nano ∧ 1000000000 ≤ reading.time.nano + n
    ∧ reading.time.nano + n < 2000000000

/-- Where on the line a sum lies. Ahead of a leap second the line is a second shorter. -/
def sumNano (reading : Reading) (n : Int) : Int :=
  if 1000000000 ≤ reading.time.nano ∧ 2000000000 ≤ reading.time.nano + n then
    reading.epochNano + n - 1000000000
  else reading.epochNano + n

def moveNano (reading : Reading) (n : Int) : Reading :=
  ⟨reading.date, { reading.time with nano := reading.time.nano + n }⟩

theorem moveNano_epochNano (reading : Reading) (n : Int) :
    (reading.moveNano n).epochNano = reading.epochNano + n := by
  change reading.epochSecond * 1000000000 + (reading.time.nano + n) = _
  unfold epochNano
  omega

theorem addNanos?_within_leap {reading : Reading} {n : Int} (leap : 1000000000 ≤ reading.time.nano)
    (back : -reading.time.nano ≤ n) (ahead : n < 2000000000 - reading.time.nano) :
    reading.addNanos? n = some (reading.moveNano n) := by
  simp only [addNanos?, if_pos leap]
  rw [if_neg (by omega), if_neg (by omega)]
  rfl

theorem addNanos?_leaves {reading : Reading} (proper : reading.Proper) {n : Int}
    (leaves : ¬ reading.StaysInLeap n) : LiesAt (reading.addNanos? n) (reading.sumNano n) := by
  have nano : reading.epochNano = reading.epochSecond * 1000000000 + reading.time.nano := rfl
  have first := proper.1
  unfold StaysInLeap at leaves
  unfold sumNano
  by_cases leap : 1000000000 ≤ reading.time.nano
  next =>
    by_cases ahead : 2000000000 - reading.time.nano ≤ n
    next =>
      have place := onLine?_liesAt (reading.epochSecond + 1) (n - (2000000000 - reading.time.nano))
      simp only [addNanos?, if_pos leap, if_pos ahead]
      rw [if_pos (by omega)]
      convert place using 1
      omega
    next =>
      rw [if_neg (by omega)]
      by_cases back : n < -reading.time.nano
      next =>
        have place := onLine?_liesAt reading.epochSecond (n + reading.time.nano)
        simp only [addNanos?, if_pos leap, if_neg ahead, if_pos back]
        convert place using 1
        omega
      next =>
        -- The sum has come down to second 59 itself.
        rw [addNanos?_within_leap leap (by omega) (by omega)]
        have onLine : (reading.moveNano n).OnLine := by
          rw [onLine_iff]
          change 0 ≤ reading.time.nano + n ∧ reading.time.nano + n < 1000000000
          omega
        exact ⟨onLine, reading.moveNano_epochNano n⟩
  next =>
    rw [if_neg (by omega)]
    exact addNanos?_liesAt ((onLine_iff reading).mpr ⟨first, by omega⟩) n

section

variable {reading : Reading} {n m : Int}

/-- Once left, a leap second is not met again in the same direction. -/
theorem sumNano_add (proper : reading.Proper) (oneWay : (0 ≤ n ∧ 0 ≤ m) ∨ (n ≤ 0 ∧ m ≤ 0))
    (leaves : ¬ reading.StaysInLeap n) :
    ¬ reading.StaysInLeap (n + m) ∧ reading.sumNano (n + m) = reading.sumNano n + m := by
  have last := proper.2.1
  simp only [StaysInLeap, sumNano] at leaves ⊢
  constructor
  next => omega
  next => split <;> split <;> omega

/-- What has gone beyond an end of the calendar stays there. -/
theorem not_covered_add (proper : reading.Proper) (oneWay : (0 ≤ n ∧ 0 ≤ m) ∨ (n ≤ 0 ∧ m ≤ 0))
    (leaves : ¬ reading.StaysInLeap n) (beyond : ¬ Covered (reading.sumNano n)) :
    ¬ Covered (reading.sumNano n + m) := by
  have bounds := reading.epochSecond_bounds
  have nano : reading.epochNano = reading.epochSecond * 1000000000 + reading.time.nano := rfl
  have first := proper.1
  have last := proper.2.1
  rw [first_epochSecond, last_epochSecond] at bounds
  simp only [Covered, first_epochNano, last_epochNano, sumNano, StaysInLeap] at leaves beyond ⊢
  split at beyond
  next past => rw [if_pos past]; omega
  next before => rw [if_neg before]; omega

theorem moveNano_proper (proper : reading.Proper) (stays : reading.StaysInLeap n) :
    (reading.moveNano n).Proper := by
  obtain ⟨leap, above, below⟩ := stays
  have second := proper.2.2 leap
  change IsProperNano reading.time.second (reading.time.nano + n)
  unfold IsProperNano
  omega

theorem moveNano_further (stays : reading.StaysInLeap n) (m : Int) :
    ((reading.moveNano n).StaysInLeap m ↔ reading.StaysInLeap (n + m))
      ∧ (reading.moveNano n).sumNano m = reading.sumNano (n + m)
      ∧ (reading.moveNano n).moveNano m = reading.moveNano (n + m) := by
  have nano : (reading.moveNano n).time.nano = reading.time.nano + n := rfl
  simp only [StaysInLeap, sumNano, moveNano_epochNano, nano] at stays ⊢
  constructor
  next => omega
  next =>
    constructor
    next => split <;> split <;> omega
    next => simp only [moveNano, Int.add_assoc]

theorem addNanos?_stays (stays : reading.StaysInLeap n) :
    reading.addNanos? n = some (reading.moveNano n) := by
  obtain ⟨leap, above, below⟩ := stays
  exact addNanos?_within_leap leap (by omega) (by omega)

theorem addNanos?_addNanos? (proper : reading.Proper)
    (oneWay : (0 ≤ n ∧ 0 ≤ m) ∨ (n ≤ 0 ∧ m ≤ 0)) :
    (reading.addNanos? n).bind (fun sum => sum.addNanos? m) = reading.addNanos? (n + m) := by
  by_cases stays : reading.StaysInLeap n
  next =>
    have moved := moveNano_proper proper stays
    have further := moveNano_further stays m
    rw [addNanos?_stays stays, Option.bind_some]
    by_cases still : (reading.moveNano n).StaysInLeap m
    next => rw [addNanos?_stays still, addNanos?_stays (further.1.mp still), further.2.2]
    next =>
      have place := addNanos?_leaves moved still
      have total := addNanos?_leaves proper (fun inLeap => still (further.1.mpr inLeap))
      rw [further.2.1] at place
      exact place.unique total
  next =>
    have place := addNanos?_leaves proper stays
    have further := sumNano_add proper oneWay stays
    have total := addNanos?_leaves proper further.1
    rw [further.2] at total
    cases added : reading.addNanos? n with
    | none =>
      rw [added] at place
      have beyond : LiesAt none (reading.sumNano n + m) :=
        not_covered_add proper oneWay stays place
      exact beyond.unique total
    | some sum =>
      rw [added] at place
      have next := addNanos?_liesAt place.1 m
      rw [place.2] at next
      exact next.unique total

theorem addNanos?_zero (proper : reading.Proper) : reading.addNanos? 0 = some reading := by
  by_cases stays : reading.StaysInLeap 0
  next => simp only [addNanos?_stays stays, moveNano, Int.add_zero]
  next =>
    have leap : ¬ 1000000000 ≤ reading.time.nano := by
      have last := proper.2.1
      unfold StaysInLeap at stays
      omega
    have onLine : reading.OnLine := (onLine_iff reading).mpr ⟨proper.1, by omega⟩
    have place := addNanos?_liesAt onLine 0
    have here : LiesAt (some reading) (reading.epochNano + 0) := ⟨onLine, by omega⟩
    exact place.unique here

theorem addNanos?_proper {sum : Reading} (proper : reading.Proper)
    (added : reading.addNanos? n = some sum) : sum.Proper := by
  by_cases stays : reading.StaysInLeap n
  next =>
    rw [addNanos?_stays stays, Option.some.injEq] at added
    rw [← added]
    exact moveNano_proper proper stays
  next =>
    have place := addNanos?_leaves proper stays
    rw [added] at place
    exact place.1.1

end

def OneWay (durations : List Duration) : Prop :=
  (∀ duration ∈ durations, 0 ≤ duration.nanos) ∨ ∀ duration ∈ durations, duration.nanos ≤ 0

theorem OneWay.cons {first : Duration} {rest : List Duration} (oneWay : OneWay (first :: rest)) :
    OneWay rest ∧ ((0 ≤ first.nanos ∧ 0 ≤ (rest.map Duration.nanos).sum)
      ∨ (first.nanos ≤ 0 ∧ (rest.map Duration.nanos).sum ≤ 0)) := by
  cases oneWay with
  | inl ahead =>
    have head := List.forall_mem_cons.mp ahead
    have sum : 0 ≤ (rest.map Duration.nanos).sum := List.sum_nonneg (by simpa using head.2)
    exact ⟨.inl head.2, .inl ⟨head.1, sum⟩⟩
  | inr back =>
    have head := List.forall_mem_cons.mp back
    have sum : (rest.map Duration.nanos).sum ≤ 0 := by
      simpa using List.sum_le_card_nsmul (rest.map Duration.nanos) 0 (by simpa using head.2)
    exact ⟨.inr head.2, .inr ⟨head.1, sum⟩⟩

theorem addEach?_eq_addNanos? (durations : List Duration) {reading : Reading}
    (proper : reading.Proper) (oneWay : OneWay durations) :
    reading.addEach? durations = reading.addNanos? (durations.map Duration.nanos).sum := by
  induction durations generalizing reading with
  | nil => exact (addNanos?_zero proper).symm
  | cons first rest ih =>
    have tail := oneWay.cons
    rw [List.map_cons, List.sum_cons, ← addNanos?_addNanos? proper tail.2]
    change (reading.addNanos? first.nanos).bind (fun sum => sum.addEach? rest) = _
    cases added : reading.addNanos? first.nanos with
    | none => rfl
    | some sum => exact ih (addNanos?_proper proper added) tail.1

/-- Durations that all point one way are added one by one as their sum is added at once, whether
they stay within a leap second, leave it or start elsewhere; none at any step is none in all. -/
theorem addEach?_eq_add? {reading : Reading} {durations : List Duration} {total : Duration}
    (proper : reading.Proper) (oneWay : OneWay durations)
    (sum : Duration.sum? durations = some total) :
    reading.addEach? durations = reading.add? total := by
  have same : total.nanos = (durations.map Duration.nanos).sum := by
    unfold Duration.sum? Duration.ofNanos? at sum
    split at sum
    next => cases sum; rfl
    next => cases sum
  rw [addEach?_eq_addNanos? durations proper oneWay, add?, same]

def leapMorning : Reading :=
  ⟨⟨2009, 1, 1, by decide⟩, ⟨5, 29, 59, 1250000000, by decide⟩⟩

def hourAfter : Reading := ⟨leapMorning.date, ⟨6, 30, 0, 0, by decide⟩⟩

def leapSteps : List Duration := [⟨500000000⟩, ⟨0⟩, ⟨250000000⟩, ⟨3600000000000⟩]

theorem addEach?_leapMorning :
    leapMorning.Proper ∧ OneWay leapSteps ∧ Duration.sum? leapSteps = some ⟨3600750000000⟩
      ∧ leapMorning.addEach? leapSteps = leapMorning.add? ⟨3600750000000⟩
      ∧ leapMorning.addEach? leapSteps = some hourAfter := by
  have proper : leapMorning.Proper := by decide
  have oneWay : OneWay leapSteps := .inl (by decide)
  have sum : Duration.sum? leapSteps = some ⟨3600750000000⟩ := by decide
  have once := addEach?_eq_add? proper oneWay sum
  have added : leapMorning.add? ⟨3600750000000⟩ = some hourAfter := by decide
  exact ⟨proper, oneWay, sum, once, once.trans added⟩

end Reading

end ZonedTime
