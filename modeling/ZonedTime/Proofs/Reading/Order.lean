import ZonedTime.Proofs.Reading.SecondLine

set_option autoImplicit false

namespace ZonedTime.Reading

variable {a b : Reading}

def leapNanos (leap next : Reading) : Int :=
  if leap.time.secondOfDay < next.time.secondOfDay ∧ 1000000000 ≤ leap.time.nano then 1000000000
  else 0

theorem clockSecondsSince_eq (a b : Reading) :
    clockSecondsSince b.time a.time * 1000000000 =
      (b.time.secondOfDay - a.time.secondOfDay) * 1000000000 + leapNanos a b - leapNanos b a := by
  simp only [clockSecondsSince, leapNanos]
  by_cases later : a.time.secondOfDay < b.time.secondOfDay
  next =>
    have positive : 0 < b.time.secondOfDay - a.time.secondOfDay := by omega
    have unturned : ¬ b.time.secondOfDay < a.time.secondOfDay := by omega
    have unnegative : ¬ b.time.secondOfDay - a.time.secondOfDay < 0 := by omega
    simp only [later, positive, unturned, unnegative, true_and, false_and, if_false]
    split <;> omega
  next =>
    have unpositive : ¬ 0 < b.time.secondOfDay - a.time.secondOfDay := by omega
    have turned : b.time.secondOfDay - a.time.secondOfDay < 0 ↔
        b.time.secondOfDay < a.time.secondOfDay := by omega
    simp only [later, unpositive, turned, false_and, if_false]
    split <;> omega

theorem since_eq (a b : Reading) :
    (b.since a).nanos = (b.epochSecond - a.epochSecond) * 1000000000
      + (b.time.nano - a.time.nano) + (leapNanos a b - leapNanos b a) := by
  have clock := clockSecondsSince_eq a b
  simp only [since, epochSecond_eq]
  omega

theorem since_swap (a b : Reading) : a.since b = (b.since a).neg := by
  have forward := since_eq a b
  have back := since_eq b a
  have nanos : (a.since b).nanos = -(b.since a).nanos := by omega
  exact congrArg Duration.mk nanos

/-- The next reading is in the second after the leap second, and no further in it, but its date is
another one. -/
def Swallows (leap next : Reading) : Prop :=
  leap.time.isLeapSecond ∧ next.epochSecond = leap.epochSecond + 1 ∧ leap.date.lt next.date
    ∧ next.time.nano ≤ leap.time.nano - 1000000000

instance (leap next : Reading) : Decidable (Swallows leap next) := by
  unfold Swallows
  infer_instance

theorem swallows_iff (leap next : Reading) :
    Swallows leap next ↔ 1000000000 ≤ leap.time.nano
      ∧ next.epochSecond = leap.epochSecond + 1
      ∧ next.time.secondOfDay ≤ leap.time.secondOfDay
      ∧ next.time.nano ≤ leap.time.nano - 1000000000 := by
  have early := leap.time.secondOfDay_bounds
  have late := next.time.secondOfDay_bounds
  simp only [Swallows, Time.isLeapSecond_iff, Date.lt_iff_dayNumber_lt, epochSecond_eq]
  omega

theorem not_swallows {leap next : Reading} (notLater : next.epochSecond ≤ leap.epochSecond) :
    ¬ Swallows leap next := by
  intro swallows
  have following := swallows.2.1
  omega

theorem leap_second (proper : a.Proper) (leap : 1000000000 ≤ a.time.nano) :
    a.time.secondOfDay % 60 = 59 := by
  have second := proper.2.2 leap
  unfold Time.secondOfDay
  omega

theorem leapNanos_cases (leap next : Reading) :
    (leap.time.secondOfDay < next.time.secondOfDay ∧ 1000000000 ≤ leap.time.nano
        ∧ leapNanos leap next = 1000000000)
      ∨ (¬ (leap.time.secondOfDay < next.time.secondOfDay ∧ 1000000000 ≤ leap.time.nano)
        ∧ leapNanos leap next = 0) := by
  unfold leapNanos
  split <;> simp_all

theorem since_later (aProper : a.Proper) (bProper : b.Proper)
    (later : a.epochSecond < b.epochSecond) :
    0 < (b.since a).nanos ↔ ¬ Swallows a b := by
  have last := aProper.2.1
  have first := bProper.1
  have aLeap := leap_second aProper
  have bLeap := leap_second bProper
  have forward := leapNanos_cases a b
  have back := leapNanos_cases b a
  rw [since_eq, swallows_iff]
  simp only [epochSecond_eq] at later ⊢
  omega

theorem since_swallowed (aProper : a.Proper) (swallows : Swallows a b) :
    (b.since a).nanos = b.time.nano - (a.time.nano - 1000000000) := by
  have last := aProper.2.1
  have passed := since_eq a b
  have forward := leapNanos_cases a b
  have back := leapNanos_cases b a
  rw [swallows_iff] at swallows
  omega

theorem since_within_second (same : a.epochSecond = b.epochSecond) :
    (b.since a).nanos = b.time.nano - a.time.nano := by
  have passed := since_eq a b
  have early := a.time.secondOfDay_bounds
  have late := b.time.secondOfDay_bounds
  have forward := leapNanos_cases a b
  have back := leapNanos_cases b a
  simp only [epochSecond_eq] at same passed
  omega

structure SignOfOrder (a b : Reading) : Prop where
  later : 0 < (b.since a).nanos ↔ a.lt b
  equal : (b.since a).nanos = 0 ↔ a = b
  earlier : (b.since a).nanos < 0 ↔ b.lt a

theorem SignOfOrder.swap (sign : SignOfOrder a b) : SignOfOrder b a := by
  have nanos : (a.since b).nanos = -(b.since a).nanos := congrArg Duration.nanos (since_swap a b)
  constructor
  next => rw [← sign.earlier, nanos]; omega
  next => rw [show b = a ↔ a = b from eq_comm, ← sign.equal, nanos]; omega
  next => rw [← sign.later, nanos]; omega

theorem signOfOrder_of_later (aProper : a.Proper) (bProper : b.Proper)
    (later : a.epochSecond < b.epochSecond) : SignOfOrder a b ↔ ¬ Swallows a b := by
  have positive := since_later aProper bProper later
  have before : a.lt b := (lt_iff a b).mpr (.inl later)
  constructor
  next =>
    intro sign
    exact positive.mp (sign.later.mpr before)
  next =>
    intro free
    have passed := positive.mpr free
    constructor
    next => simp only [passed, before]
    next =>
      constructor
      next => omega
      next => rintro rfl; omega
    next =>
      rw [lt_iff]
      omega

theorem signOfOrder_within_second (same : a.epochSecond = b.epochSecond) : SignOfOrder a b := by
  have passed := since_within_second same
  constructor
  next => rw [lt_iff]; omega
  next =>
    constructor
    next =>
      intro none
      exact eq_of_epochSecond_eq same (by omega)
    next => rintro rfl; omega
  next => rw [lt_iff]; omega

/-- The time between two readings is turned about with them, and its sign is that of their order but
where a leap second at midnight swallows the time after it. There the later reading comes out as no
later. -/
theorem since_order (aProper : a.Proper) (bProper : b.Proper) :
    a.since b = (b.since a).neg
      ∧ (SignOfOrder a b ↔ ¬ Swallows a b ∧ ¬ Swallows b a)
      ∧ (Swallows a b → a.lt b ∧ (b.since a).nanos ≤ 0
        ∧ (b.since a).nanos = b.time.nano - (a.time.nano - 1000000000)) := by
  constructor
  next => exact since_swap a b
  next =>
    constructor
    next =>
      rcases Int.lt_trichotomy a.epochSecond b.epochSecond with before | same | after
      next =>
        have other : ¬ Swallows b a := not_swallows (Int.le_of_lt before)
        simp only [signOfOrder_of_later aProper bProper before, other, not_false_eq_true, and_true]
      next =>
        have one : ¬ Swallows a b := not_swallows (Int.le_of_eq same.symm)
        have other : ¬ Swallows b a := not_swallows (Int.le_of_eq same)
        simp only [signOfOrder_within_second same, one, other, not_false_eq_true, and_true]
      next =>
        have other : ¬ Swallows a b := not_swallows (Int.le_of_lt after)
        have turned : SignOfOrder a b ↔ SignOfOrder b a := ⟨.swap, .swap⟩
        simp only [turned, signOfOrder_of_later bProper aProper after, other, not_false_eq_true,
          true_and]
    next =>
      intro swallows
      have passed := since_swallowed aProper swallows
      obtain ⟨-, following, -, behind⟩ := swallows
      have before : a.lt b := (lt_iff a b).mpr (.inl (by omega))
      exact ⟨before, by omega, passed⟩

def endOf1995 : Reading := ⟨⟨1995, 12, 31, by decide⟩, { last.time with nano := 1750000000 }⟩

def startOf1996 : Reading := ⟨⟨1996, 1, 1, by decide⟩, { first.time with nano := 250000000 }⟩

theorem since_order_endOf1995 :
    endOf1995.Proper ∧ startOf1996.Proper ∧ Swallows endOf1995 startOf1996
      ∧ endOf1995.lt startOf1996 ∧ startOf1996.since endOf1995 = ⟨-500000000⟩
      ∧ endOf1995.since startOf1996 = ⟨500000000⟩ := by
  have early : endOf1995.Proper := by decide
  have late : startOf1996.Proper := by decide
  have swallows : Swallows endOf1995 startOf1996 := by decide
  obtain ⟨turned, -, swallowed⟩ := since_order early late
  obtain ⟨before, -, passed⟩ := swallowed swallows
  have nanos : startOf1996.since endOf1995 = ⟨-500000000⟩ := congrArg Duration.mk passed
  rw [turned, nanos]
  exact ⟨early, late, swallows, before, rfl, rfl⟩

theorem signOfOrder_endOf1995 :
    ¬ ∀ a b : Reading, a.Proper → b.Proper →
      SignOfOrder a b ∧ a.since b = (b.since a).neg := by
  intro signs
  have sign := (signs endOf1995 startOf1996 (by decide) (by decide)).1
  have positive := sign.later.mpr (by decide)
  revert positive
  decide

end ZonedTime.Reading
