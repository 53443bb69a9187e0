import ZonedTime.Duration.Basic
import ZonedTime.Proofs.Error.Outcome

/-!
Rounding to a whole number of units, half to even. The nearest count of steps is found from the
floor and what is left over it; that it keeps the order, the sign and whole numbers of steps follows
from the distance of half a step alone.
-/

set_option autoImplicit false

namespace ZonedTime.Duration

/-- No count of steps comes nearer to `n`, and this one is even if another comes as near. -/
structure NearestEven (step n count : Int) : Prop where
  nearest : ∀ other : Int, (n - count * step).natAbs ≤ (n - other * step).natAbs
  even : ∀ other : Int, other ≠ count →
    (n - other * step).natAbs = (n - count * step).natAbs → 2 ∣ count

namespace NearestEven

variable {step n m count other : Int}

theorem iff_half (positive : 0 < step) :
    NearestEven step n count ↔ 2 * (n - count * step).natAbs ≤ step
      ∧ (2 * (n - count * step).natAbs = step → 2 ∣ count) := by
  constructor
  next =>
    -- The neighbours on both sides are enough to compare with.
    intro found
    have above := found.nearest (count + 1)
    have below := found.nearest (count - 1)
    have evenAbove := found.even (count + 1) (by omega)
    have evenBelow := found.even (count - 1) (by omega)
    rw [Int.add_mul, Int.one_mul] at above evenAbove
    rw [Int.sub_mul, Int.one_mul] at below evenBelow
    omega
  next =>
    intro half
    have apart (other : Int) (different : other ≠ count) :
        step ≤ (count * step - other * step).natAbs := by
      have some : (1 : Int) ≤ (count - other).natAbs := by omega
      have scaled := Int.mul_le_mul_of_nonneg_right some (Int.le_of_lt positive)
      rw [← Int.sub_mul, Int.natAbs_mul, Int.natCast_mul,
        Int.natAbs_of_nonneg (Int.le_of_lt positive)]
      rwa [Int.one_mul] at scaled
    constructor
    case nearest =>
      intro other
      by_cases same : other = count
      next => exact same ▸ Nat.le_refl _
      next =>
        have := apart other same
        omega
    case even =>
      intro other different tie
      have := apart other different
      exact half.2 (by omega)

theorem mono (positive : 0 < step) (ordered : n ≤ m) (found : NearestEven step n count)
    (later : NearestEven step m other) : count ≤ other := by
  rw [iff_half positive] at found later
  -- Counts in the wrong order would be neighbours, both half a step away and so both even.
  apply Int.not_lt.mp
  intro wrong
  have close : (count - other) * step ≤ 1 * step := by
    rw [Int.sub_mul]
    omega
  have neighbours : count = other + 1 := by
    have := Int.le_of_mul_le_mul_right close positive
    omega
  rw [neighbours, Int.add_mul, Int.one_mul] at found
  omega

theorem unique (positive : 0 < step) (found : NearestEven step n count)
    (again : NearestEven step n other) : count = other :=
  Int.le_antisymm (mono positive (Int.le_refl n) found again)
    (mono positive (Int.le_refl n) again found)

theorem neg (positive : 0 < step) (found : NearestEven step n count) :
    NearestEven step (-n) (-count) := by
  rw [iff_half positive] at found ⊢
  rw [Int.neg_mul]
  omega

theorem whole (positive : 0 < step) (count : Int) : NearestEven step (count * step) count := by
  rw [iff_half positive]
  omega

end NearestEven

section

variable {step n m : Int}

theorem exists_nearestEven (positive : 0 < step) (n : Int) :
    ∃ count, NearestEven step n count ∧ nearestMultiple n step = count * step := by
  refine ⟨_, ?_, rfl⟩
  have split := Int.ediv_mul_add_emod n step
  have low := Int.emod_nonneg n (Int.ne_of_gt positive)
  have high := Int.emod_lt_of_pos n positive
  simp only [NearestEven.iff_half positive, gt_iff_lt, Bool.or_eq_true, Bool.and_eq_true,
    decide_eq_true_eq, beq_iff_eq]
  by_cases up : step < n % step * 2 ∨ n % step * 2 = step ∧ n / step % 2 = 1
  next =>
    rw [if_pos up, Int.add_mul, Int.one_mul]
    omega
  next =>
    rw [if_neg up, Int.add_zero]
    omega

theorem nearestMultiple_of_nearestEven (positive : 0 < step) {count : Int}
    (found : NearestEven step n count) : nearestMultiple n step = count * step := by
  obtain ⟨other, again, same⟩ := exists_nearestEven positive n
  rw [same, again.unique positive found]

theorem nearestMultiple_iff (positive : 0 < step) (n : Int) (holds : Int -> Prop) :
    holds (nearestMultiple n step) ↔
      ∃ count, NearestEven step n count ∧ holds (count * step) := by
  constructor
  next =>
    intro there
    obtain ⟨count, found, same⟩ := exists_nearestEven positive n
    rw [same] at there
    exact ⟨count, found, there⟩
  next =>
    intro some
    obtain ⟨count, found, there⟩ := some
    rwa [nearestMultiple_of_nearestEven positive found]

theorem nearestMultiple_mono (positive : 0 < step) (ordered : n ≤ m) :
    nearestMultiple n step ≤ nearestMultiple m step := by
  obtain ⟨count, found, same⟩ := exists_nearestEven positive n
  obtain ⟨other, later, sameLater⟩ := exists_nearestEven positive m
  rw [same, sameLater]
  exact Int.mul_le_mul_of_nonneg_right (found.mono positive ordered later) (Int.le_of_lt positive)

theorem nearestMultiple_neg (positive : 0 < step) (n : Int) :
    nearestMultiple (-n) step = -nearestMultiple n step := by
  obtain ⟨count, found, same⟩ := exists_nearestEven positive n
  rw [same, nearestMultiple_of_nearestEven positive (found.neg positive), Int.neg_mul]

theorem nearestMultiple_nearestMultiple (positive : 0 < step) (n : Int) :
    nearestMultiple (nearestMultiple n step) step = nearestMultiple n step := by
  obtain ⟨count, -, same⟩ := exists_nearestEven positive n
  rw [same, nearestMultiple_of_nearestEven positive (.whole positive count)]

end

theorem Unit.nanos_pos (unit : Unit) : 0 < (unit.nanos : Int) := by
  cases unit <;> decide

theorem inRange_neg (n : Int) : InRange ⟨-n⟩ ↔ InRange ⟨n⟩ := by
  simp only [InRange]
  omega

theorem ofNanos_eq (n : Int) : ofNanos n = if InRange ⟨n⟩ then .ok ⟨n⟩ else .error .duration := by
  by_cases inRange : InRange ⟨n⟩ <;> simp only [ofNanos, ofNanos?, inRange, if_true, if_false]

theorem ofNanos_eq_ok {n : Int} {duration : Duration} :
    ofNanos n = .ok duration ↔ duration.nanos = n ∧ duration.InRange := by
  rw [ofNanos_eq]
  split
  next inRange =>
    constructor
    next =>
      intro same
      cases same
      exact ⟨rfl, inRange⟩
    next =>
      intro found
      cases found.1
      rfl
  next outside =>
    constructor
    next => exact nofun
    next =>
      intro found
      cases found.1
      exact absurd found.2 outside

theorem ofNanos_eq_error {n : Int} {e : Error} :
    ofNanos n = .error e ↔ e = .duration ∧ ¬ InRange ⟨n⟩ := by
  rw [ofNanos_eq]
  split <;> simp_all [eq_comm]

theorem ofNanos_neg (n : Int) : ofNanos (-n) = (ofNanos n).map neg := by
  simp only [ofNanos_eq, inRange_neg]
  split <;> rfl

section

variable {duration longer rounded roundedLonger : Duration} {unit : Unit}

theorem round_eq_ok : duration.round unit = .ok rounded ↔
    ∃ count, NearestEven unit.nanos duration.nanos count
      ∧ rounded.nanos = count * unit.nanos ∧ rounded.InRange := by
  rw [round, ofNanos_eq_ok]
  exact nearestMultiple_iff unit.nanos_pos duration.nanos fun multiple =>
    rounded.nanos = multiple ∧ rounded.InRange

theorem round_eq_error {e : Error} : duration.round unit = .error e ↔
    e = .duration ∧ ∃ count, NearestEven unit.nanos duration.nanos count
      ∧ ¬ InRange ⟨count * unit.nanos⟩ := by
  rw [round, ofNanos_eq_error]
  exact and_congr_right fun _ =>
    nearestMultiple_iff unit.nanos_pos duration.nanos fun multiple => ¬ InRange ⟨multiple⟩

theorem round_round (found : duration.round unit = .ok rounded) :
    rounded.round unit = .ok rounded := by
  rw [round, ofNanos_eq_ok] at found ⊢
  rw [found.1, nearestMultiple_nearestMultiple unit.nanos_pos]
  exact ⟨rfl, found.2⟩

theorem round_mono (ordered : duration.nanos ≤ longer.nanos)
    (found : duration.round unit = .ok rounded)
    (foundLonger : longer.round unit = .ok roundedLonger) :
    rounded.nanos ≤ roundedLonger.nanos := by
  rw [round, ofNanos_eq_ok] at found foundLonger
  rw [found.1, foundLonger.1]
  exact nearestMultiple_mono unit.nanos_pos ordered

theorem round_neg (duration : Duration) (unit : Unit) :
    duration.neg.round unit = (duration.round unit).map neg := by
  rw [round, round, neg, nearestMultiple_neg unit.nanos_pos, ofNanos_neg]

end

theorem roundTo_eq_round {name : Text} {unit : Unit}
    (accepted : Unit.rounding.lookup name = some unit) (duration : Duration) :
    duration.roundTo name = duration.round unit := by
  rw [roundTo, accepted]

/-- A duration is rounded to the nearest whole number of units, the even one of two, unless that is
out of range, which is an overflow. What is rounded stays as it is, a longer duration is not rounded
to a shorter one, and the sign makes no difference. -/
theorem roundTo_halfEven {name : Text} {unit : Unit}
    (accepted : Unit.rounding.lookup name = some unit) (duration : Duration) :
    (∀ rounded, duration.roundTo name = .ok rounded ↔
      ∃ count, NearestEven unit.nanos duration.nanos count
        ∧ rounded.nanos = count * unit.nanos ∧ rounded.InRange)
      ∧ (∀ e, duration.roundTo name = .error e ↔
        e = .duration ∧ ∃ count, NearestEven unit.nanos duration.nanos count
          ∧ ¬ InRange ⟨count * unit.nanos⟩)
      ∧ Error.duration.kind = .overflow
      ∧ (∀ rounded, duration.roundTo name = .ok rounded → rounded.roundTo name = .ok rounded)
      ∧ (∀ longer rounded roundedLonger : Duration, duration.nanos ≤ longer.nanos →
        duration.roundTo name = .ok rounded → longer.roundTo name = .ok roundedLonger →
        rounded.nanos ≤ roundedLonger.nanos)
      ∧ duration.neg.roundTo name = (duration.roundTo name).map neg := by
  simp only [roundTo_eq_round accepted]
  exact ⟨fun _ => round_eq_ok, fun _ => round_eq_error, rfl, fun _ => round_round,
    fun _ _ _ => round_mono, round_neg duration unit⟩

theorem roundTo_halfEven_halves :
    Unit.rounding.lookup (Text.ofString "second") = some .second
      ∧ Unit.rounding.lookup (Text.ofString "minute") = some .minute
      ∧ (Duration.mk (-2500000000)).roundTo (Text.ofString "second") = .ok ⟨-2000000000⟩
      ∧ (Duration.mk 2500000000).roundTo (Text.ofString "second") = .ok ⟨2000000000⟩
      ∧ max.roundTo (Text.ofString "minute") = .error .duration := by
  have second : Unit.rounding.lookup (Text.ofString "second") = some .second := by decide
  have minute : Unit.rounding.lookup (Text.ofString "minute") = some .minute := by decide
  obtain ⟨down, -, -, -, -, mirrored⟩ := roundTo_halfEven second ⟨-2500000000⟩
  obtain ⟨-, overflow, -⟩ := roundTo_halfEven minute max
  have below := (down ⟨-2000000000⟩).mpr
    ⟨-2, (NearestEven.iff_half (by decide)).mpr (by decide), by decide, by decide⟩
  have beyond := (overflow .duration).mpr
    ⟨rfl, 153722867280913, (NearestEven.iff_half (by decide)).mpr (by decide), by decide⟩
  rw [below] at mirrored
  exact ⟨second, minute, below, mirrored, beyond⟩

end ZonedTime.Duration
