import ZonedTime.Proofs.Reading.Arithmetic

set_option autoImplicit false

namespace ZonedTime.Reading

/-- From the line a sum stays on it. A leap second is left on either side for the line, where the
way ahead is a second shorter, or not left at all. -/
theorem addNanos?_cases {reading sum : Reading} {n : Int}
    (added : reading.addNanos? n = some sum) :
    (reading.time.nano < 1000000000 ∧ sum.OnLine ∧ sum.epochNano = reading.epochNano + n)
      ∨ (1000000000 ≤ reading.time.nano ∧ 2000000000 - reading.time.nano ≤ n
        ∧ sum.OnLine ∧ sum.epochNano = reading.epochNano + n - 1000000000)
      ∨ (1000000000 ≤ reading.time.nano ∧ n < -reading.time.nano
        ∧ sum.OnLine ∧ sum.epochNano = reading.epochNano + n)
      ∨ (1000000000 ≤ reading.time.nano ∧ -reading.time.nano ≤ n
        ∧ n < 2000000000 - reading.time.nano
        ∧ sum = ⟨reading.date, { reading.time with nano := reading.time.nano + n }⟩) := by
  unfold addNanos? at added
  simp only at added
  by_cases leap : 1000000000 ≤ reading.time.nano
  next =>
    rw [if_pos leap] at added
    by_cases ahead : 2000000000 - reading.time.nano ≤ n
    next =>
      rw [if_pos ahead, onLine?_eq_some] at added
      refine .inr (.inl ⟨leap, ahead, added.1, ?_⟩)
      rw [added.2, epochNano]
      omega
    next =>
      rw [if_neg ahead] at added
      by_cases back : n < -reading.time.nano
      next =>
        rw [if_pos back, onLine?_eq_some] at added
        refine .inr (.inr (.inl ⟨leap, back, added.1, ?_⟩))
        rw [added.2, epochNano]
        omega
      next =>
        rw [if_neg back, Option.some.injEq] at added
        exact .inr (.inr (.inr ⟨leap, by omega, by omega, added.symm⟩))
  next =>
    rw [if_neg leap, onLine?_eq_some] at added
    refine .inl ⟨by omega, added.1, ?_⟩
    rw [added.2, epochNano]
    omega

theorem addNanos?_within {reading sum : Reading} {n : Int}
    (added : reading.addNanos? n = some sum) :
    sum.OnLine ∨ (1000000000 ≤ reading.time.nano ∧ sum.epochSecond = reading.epochSecond
      ∧ 0 ≤ sum.time.nano ∧ sum.time.nano < 2000000000) := by
  rcases addNanos?_cases added with ⟨_, onLine, _⟩ | ⟨_, _, onLine, _⟩ | ⟨_, _, onLine, _⟩
    | ⟨leap, back, ahead, rfl⟩
  next => exact .inl onLine
  next => exact .inl onLine
  next => exact .inl onLine
  next => exact .inr ⟨leap, rfl, by simp only; omega, by simp only; omega⟩

/-- The times of day say nothing of the order of two readings on different dates: a leap second
on the way is left out, or one that is not on the way is counted. -/
def Misjudged (leap other : Reading) : Prop :=
  leap.time.isLeapSecond
    ∧ ((leap.date.lt other.date ∧ other.time.secondOfDay ≤ leap.time.secondOfDay)
      ∨ (other.date.lt leap.date ∧ leap.time.secondOfDay < other.time.secondOfDay))

instance (leap other : Reading) : Decidable (Misjudged leap other) := by
  unfold Misjudged
  infer_instance

theorem misjudged_iff (leap other : Reading) :
    Misjudged leap other ↔ 1000000000 ≤ leap.time.nano
      ∧ ((leap.date.dayNumber < other.date.dayNumber
          ∧ other.time.secondOfDay ≤ leap.time.secondOfDay)
        ∨ (other.date.dayNumber < leap.date.dayNumber
          ∧ leap.time.secondOfDay < other.time.secondOfDay)) := by
  unfold Misjudged
  rw [Time.isLeapSecond_iff, Date.lt_iff_dayNumber_lt, Date.lt_iff_dayNumber_lt]

theorem since_leapSecond {leap other : Reading} (past : 1000000000 ≤ leap.time.nano)
    (onLine : other.OnLine) :
    (other.since leap).nanos = other.epochNano - leap.epochNano
      + if leap.time.secondOfDay < other.time.secondOfDay then 1000000000 else 0 := by
  rw [onLine_iff] at onLine
  simp only [since, clockSecondsSince, epochNano, epochSecond_eq]
  by_cases later : leap.time.secondOfDay < other.time.secondOfDay
  next =>
    rw [if_pos (by omega), if_pos later]
    omega
  next =>
    rw [if_neg (by omega), if_neg (by omega), if_neg later]
    omega

/-- A duration added is the time passed since, but for the misjudged leap seconds, which take a
second off it on a later date and add one on an earlier date. -/
theorem since_added {reading sum : Reading} {d : Duration} (proper : reading.Proper)
    (added : reading.add? d = some sum) :
    (sum.since reading = d ↔ ¬ Misjudged reading sum)
      ∧ (Misjudged reading sum → reading.date.lt sum.date →
        sum.since reading = ⟨d.nanos - 1000000000⟩)
      ∧ (Misjudged reading sum → sum.date.lt reading.date →
        sum.since reading = ⟨d.nanos + 1000000000⟩) := by
  have early := reading.time.secondOfDay_bounds
  have late := sum.time.secondOfDay_bounds
  have first : 0 ≤ reading.time.nano := proper.1
  have nanos {n : Int} : sum.since reading = ⟨n⟩ ↔ (sum.since reading).nanos = n := by
    cases sum.since reading
    simp
  rw [show d = ⟨d.nanos⟩ from rfl, nanos, nanos, nanos, misjudged_iff, Date.lt_iff_dayNumber_lt,
    Date.lt_iff_dayNumber_lt]
  rcases addNanos?_cases added with ⟨line, onLine, place⟩ | ⟨leap, ahead, onLine, place⟩
    | ⟨leap, back, onLine, place⟩ | ⟨leap, back, ahead, rfl⟩
  next =>
    have start : reading.OnLine := (onLine_iff reading).mpr ⟨first, line⟩
    rw [since_onLine onLine start]
    simp only
    omega
  next =>
    -- The sum is a later second, so at no later time of day it is on a later date.
    rw [since_leapSecond leap onLine]
    rw [onLine_iff] at onLine
    simp only [epochNano, epochSecond_eq] at place ⊢
    split <;> omega
  next =>
    rw [since_leapSecond leap onLine]
    rw [onLine_iff] at onLine
    simp only [epochNano, epochSecond_eq] at place ⊢
    split <;> omega
  next =>
    -- Within the leap second the time of day stands still.
    have still : (⟨reading.date, { reading.time with nano := reading.time.nano + d.nanos }⟩ :
        Reading).time.secondOfDay = reading.time.secondOfDay := rfl
    simp only [since, clockSecondsSince, still] at early late ⊢
    rw [if_neg (by omega), if_neg (by omega)]
    omega

def noonLeap : Reading :=
  ⟨⟨2015, 6, 30, by decide⟩, ⟨11, 59, 59, 1500000000, by decide⟩⟩

def nightBefore : Reading := ⟨⟨2015, 6, 29, by decide⟩, ⟨23, 0, 0, 0, by decide⟩⟩

theorem since_noonLeap :
    noonLeap.Proper ∧ noonLeap.add? ⟨-46800500000000⟩ = some nightBefore
      ∧ nightBefore.since noonLeap = ⟨-46800500000000 + 1000000000⟩ := by
  have proper : noonLeap.Proper := by decide
  have added : noonLeap.add? ⟨-46800500000000⟩ = some nightBefore := by decide
  have before : nightBefore.date.lt noonLeap.date := by decide
  exact ⟨proper, added, (since_added proper added).2.2 (by decide) before⟩

def endOfJune : Reading :=
  ⟨⟨2015, 6, 30, by decide⟩, ⟨23, 59, 59, 1500000000, Time.isClock_lastSecond⟩⟩

def startOfJuly : Reading := ⟨⟨2015, 7, 1, by decide⟩, .midnight⟩

theorem since_endOfJune_inexact :
    ¬ ∀ (reading sum : Reading) (d : Duration), reading.Proper →
      reading.add? d = some sum → sum.since reading = d := by
  intro exact
  have passed := exact endOfJune startOfJuly ⟨500000000⟩ (by decide) (by decide)
  have negative : startOfJuly.since endOfJune = ⟨-500000000⟩ := by decide
  rw [negative] at passed
  cases passed

end ZonedTime.Reading
