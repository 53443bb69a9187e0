import ZonedTime.Proofs.Reading.OneWay

set_option autoImplicit false

namespace ZonedTime.Reading

variable {reading sum later : Reading} {n m : Int}

def leastAdded (reading : Reading) : Int := first.epochNano - reading.epochNano

/-- The greatest one, with a second more from a leap second, ahead of which the line is shorter. -/
def greatestAdded (reading : Reading) : Int :=
  last.epochNano - reading.epochNano + if reading.time.isLeapSecond then 1000000000 else 0

theorem added_place (proper : reading.Proper) (added : reading.addNanos? n = some sum) :
    (reading.StaysInLeap n ∧ sum = reading.moveNano n)
      ∨ (¬ reading.StaysInLeap n ∧ sum.OnLine ∧ sum.epochNano = reading.sumNano n) := by
  by_cases stays : reading.StaysInLeap n
  next =>
    rw [addNanos?_stays stays, Option.some.injEq] at added
    exact .inl ⟨stays, added.symm⟩
  next =>
    have place := addNanos?_leaves proper stays
    rw [added] at place
    exact .inr ⟨stays, place⟩

theorem sumNano_lt (proper : reading.Proper) (less : n < m) (leaves : ¬ reading.StaysInLeap n)
    (further : ¬ reading.StaysInLeap m) : reading.sumNano n < reading.sumNano m := by
  have first := proper.1
  simp only [StaysInLeap, sumNano] at leaves further ⊢
  split <;> split <;> omega

theorem lt_moveNano (onLine : sum.OnLine) (place : sum.epochNano = reading.sumNano n)
    (less : n < m) (leaves : ¬ reading.StaysInLeap n) (stays : reading.StaysInLeap m) :
    sum.lt (reading.moveNano m) := by
  have nano : (reading.moveNano m).time.nano = reading.time.nano + m := rfl
  have second : (reading.moveNano m).epochSecond = reading.epochSecond := rfl
  have here : reading.epochNano = reading.epochSecond * 1000000000 + reading.time.nano := rfl
  have there : sum.epochNano = sum.epochSecond * 1000000000 + sum.time.nano := rfl
  rw [onLine_iff] at onLine
  simp only [StaysInLeap] at leaves stays
  rw [sumNano, if_neg (by omega)] at place
  rw [lt_iff, nano, second]
  omega

theorem moveNano_lt (onLine : sum.OnLine) (place : sum.epochNano = reading.sumNano m)
    (less : n < m) (stays : reading.StaysInLeap n) (leaves : ¬ reading.StaysInLeap m) :
    (reading.moveNano n).lt sum := by
  have second : (reading.moveNano n).epochSecond = reading.epochSecond := rfl
  have here : reading.epochNano = reading.epochSecond * 1000000000 + reading.time.nano := rfl
  have there : sum.epochNano = sum.epochSecond * 1000000000 + sum.time.nano := rfl
  rw [onLine_iff] at onLine
  simp only [StaysInLeap] at leaves stays
  rw [sumNano, if_pos (by omega)] at place
  rw [lt_iff, second]
  omega

theorem addNanos?_lt (proper : reading.Proper) (less : n < m)
    (one : reading.addNanos? n = some sum) (other : reading.addNanos? m = some later) :
    sum.lt later := by
  rcases added_place proper one with ⟨stays, rfl⟩ | ⟨leaves, onLine, place⟩
  next =>
    rcases added_place proper other with ⟨still, rfl⟩ | ⟨left, onLine, place⟩
    next =>
      refine (lt_iff _ _).mpr (.inr ⟨rfl, ?_⟩)
      exact Int.add_lt_add_left less reading.time.nano
    next => exact moveNano_lt onLine place less stays left
  next =>
    rcases added_place proper other with ⟨stays, rfl⟩ | ⟨left, lineLater, placeLater⟩
    next => exact lt_moveNano onLine place less leaves stays
    next =>
      rw [lt_iff_epochNano_lt onLine lineLater, place, placeLater]
      exact sumNano_lt proper less leaves left

theorem LiesAt.isSome_iff {result : Option Reading} {nano : Int} (lies : LiesAt result nano) :
    result.isSome ↔ Covered nano := by
  cases result with
  | none => exact ⟨fun there => (by cases there), fun covered => absurd covered lies⟩
  | some sum => exact ⟨fun _ => lies.2 ▸ epochNano_covered lies.1, fun _ => rfl⟩

theorem addNanos?_isSome_iff (proper : reading.Proper) (n : Int) :
    (reading.addNanos? n).isSome ↔ reading.leastAdded ≤ n ∧ n ≤ reading.greatestAdded := by
  have bounds := reading.epochSecond_bounds
  have here : reading.epochNano = reading.epochSecond * 1000000000 + reading.time.nano := rfl
  have start := proper.1
  have finish := proper.2.1
  rw [first_epochSecond, last_epochSecond] at bounds
  simp only [leastAdded, greatestAdded, Time.isLeapSecond_iff, first_epochNano, last_epochNano]
  by_cases stays : reading.StaysInLeap n
  next =>
    rw [addNanos?_stays stays]
    obtain ⟨leap, above, below⟩ := stays
    simp only [Option.isSome_some, if_pos leap, true_iff]
    omega
  next =>
    rw [(addNanos?_leaves proper stays).isSome_iff, Covered, first_epochNano, last_epochNano,
      sumNano]
    unfold StaysInLeap at stays
    by_cases leap : 1000000000 ≤ reading.time.nano
    next =>
      rw [if_pos leap]
      split <;> omega
    next =>
      rw [if_neg leap, if_neg (by omega)]
      omega

/-- Durations are added in order, and just those of an interval around zero can be added, always to
a reading with nanoseconds above a second at second 59 only. -/
theorem add?_order (a : Reading) (proper : a.Proper) :
    (∀ (d₁ d₂ : Duration) (sum₁ sum₂ : Reading), d₁.nanos < d₂.nanos →
        a.add? d₁ = some sum₁ → a.add? d₂ = some sum₂ → sum₁.lt sum₂)
      ∧ (∀ d : Duration, (a.add? d).isSome ↔ a.leastAdded ≤ d.nanos ∧ d.nanos ≤ a.greatestAdded)
      ∧ (a.leastAdded ≤ 0 ∧ 0 ≤ a.greatestAdded)
      ∧ ∀ (d : Duration) (sum : Reading), a.add? d = some sum → sum.Proper := by
  refine ⟨fun d₁ d₂ sum₁ sum₂ => addNanos?_lt proper, fun d => addNanos?_isSome_iff proper d.nanos,
    ?_, fun d sum => addNanos?_proper proper⟩
  rw [← addNanos?_isSome_iff proper 0, addNanos?_zero proper]
  rfl

def lastLeap : Reading := ⟨last.date, { last.time with nano := 1500000000 }⟩

theorem add?_order_lastLeap :
    lastLeap.Proper ∧ lastLeap.add? ⟨-500000001⟩ = some last
      ∧ lastLeap.add? ⟨-500000000⟩ = some (lastLeap.moveNano (-500000000))
      ∧ last.lt (lastLeap.moveNano (-500000000))
      ∧ (∀ d : Duration, (lastLeap.add? d).isSome ↔
        -315537897600500000000 ≤ d.nanos ∧ d.nanos ≤ 499999999) := by
  have proper : lastLeap.Proper := by decide
  have down : lastLeap.add? ⟨-500000001⟩ = some last := by decide
  have still : lastLeap.add? ⟨-500000000⟩ = some (lastLeap.moveNano (-500000000)) := by decide
  obtain ⟨ordered, interval, -⟩ := add?_order lastLeap proper
  have least : lastLeap.leastAdded = -315537897600500000000 := by decide
  have greatest : lastLeap.greatestAdded = 499999999 := by decide
  rw [least, greatest] at interval
  exact ⟨proper, down, still, ordered _ _ _ _ (by decide) down still, interval⟩

end ZonedTime.Reading
