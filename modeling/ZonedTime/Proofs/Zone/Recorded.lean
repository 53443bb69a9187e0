import ZonedTime.Proofs.Zone.Search
import ZonedTime.Proofs.Zone.Showing
import ZonedTime.Zone.Rules

set_option autoImplicit false

namespace ZonedTime

namespace Rules

open Table (InOrder)

def windows (before : Int) : List Transition -> List Window
  | [] => []
  | (second, period) :: rest =>
    .around second before period.offset :: windows period.offset rest

abbrev Apart (before : Int) (transitions : List Transition) : Prop :=
  (windows before transitions).IsChain fun a b => a.last ≤ b.first

/-- Transitions a day or more from the ends of the calendar, whose windows do not overlap. -/
structure Spaced (first : Period) (transitions : List Transition) : Prop where
  withinDay : ∀ period ∈ first :: transitions.map Prod.snd,
    -86400 < period.offset ∧ period.offset < 86400
  inside : ∀ transition ∈ transitions,
    firstSecond + 86400 ≤ transition.1 ∧ transition.1 ≤ lastSecond - 86400
  apart : Apart first.offset transitions

def offsetIn (before : Int) : List Transition -> Int -> Int
  | [], _ => before
  | (second, period) :: rest, moment =>
    if moment < second then before else offsetIn period.offset rest moment

def wallOffsetsIn (before : Int) : List Transition -> Int -> Resolution Int
  | [], _ => .single before
  | (second, period) :: rest, wall =>
    if wall < second + min before period.offset then .single before
    else if wall < second + max before period.offset then
      if period.offset < before then .ambiguous before period.offset else .skipped
    else wallOffsetsIn period.offset rest wall

theorem times_in_order {before : Int} {transitions : List Transition}
    (apart : Apart before transitions) : InOrder transitions := by
  have chain : transitions.IsChain fun a b => a.1 ≤ b.1 := by
    induction transitions generalizing before with
    | nil => exact .nil
    | cons transition rest ih =>
      obtain ⟨second, period⟩ := transition
      cases rest with
      | nil => exact .singleton _
      | cons next later =>
        obtain ⟨step, tail⟩ := List.isChain_cons_cons.mp apart
        refine .cons_cons ?_ (ih tail)
        simp only [Window.around_first, Window.around_last] at step ⊢
        omega
  exact chain.pairwise

theorem byUtc_in_order {first : Period} {transitions : List Transition}
    (spaced : Spaced first transitions) : InOrder ((firstSecond, first) :: transitions) := by
  refine List.pairwise_cons.mpr ⟨?_, times_in_order spaced.apart⟩
  intro transition member
  have := (spaced.inside transition member).1
  simp only
  omega

theorem clampSecond_mono {a b : Int} (ordered : a ≤ b) : clampSecond a ≤ clampSecond b := by
  unfold clampSecond
  omega

theorem wallTable_times (before : Int) (transitions : List Transition) :
    (wallTable before transitions).map Prod.fst =
      (windows before transitions).map fun window => clampSecond window.last := by
  induction transitions generalizing before with
  | nil => rfl
  | cons transition rest ih => simp [wallTable, windows, ih]

theorem wallTable_in_order {before : Int} {transitions : List Transition}
    (apart : Apart before transitions) : InOrder (wallTable before transitions) := by
  have ordered : ((windows before transitions).map fun window => clampSecond window.last).IsChain
      (· ≤ ·) := by
    rw [List.isChain_map]
    exact apart.imp fun a b step => clampSecond_mono (Int.le_trans step b.ordered)
  rw [← wallTable_times] at ordered
  exact List.pairwise_map.mp ordered.pairwise

/-- As `Rules.offsetAtUtc` without a footer, with a scan for the search. -/
def scanUtc (entries : List Transition) (moment : Int) : Int :=
  match (entries.findIdx? fun entry => moment < entry.1).bind
      fun index => (entries[index - 1]?).map Prod.snd with
  | some period => period.offset
  | none =>
    match entries.getLast? with
    | some (_, period) => period.offset
    | none => 0

theorem scanUtc_eq {start : Int} {first : Period} {transitions : List Transition}
    (inOrder : InOrder ((start, first) :: transitions)) (moment : Int) :
    scanUtc ((start, first) :: transitions) moment =
      offsetIn first.offset transitions moment := by
  induction transitions generalizing start first with
  | nil =>
    by_cases before : moment < start <;> simp [scanUtc, offsetIn, before]
  | cons transition rest ih =>
    obtain ⟨second, period⟩ := transition
    obtain ⟨head, tail⟩ := List.pairwise_cons.mp inOrder
    have step : start ≤ second := head (second, period) List.mem_cons_self
    have scanned := ih tail
    simp only [scanUtc, offsetIn, List.findIdx?_cons] at scanned ⊢
    -- The index found in the rest is one too small here, and so is the one of the period before.
    by_cases before : moment < start
    next => simp [before, show moment < second by omega]
    next =>
      by_cases between : moment < second
      next => simp [before, between]
      next =>
        rw [if_neg between, ← scanned]
        cases found : rest.findIdx? fun entry => moment < entry.1 <;>
          simp [before, between]

theorem offsetAtUtc_eq {key : Option Text} {first : Period} {transitions : List Transition}
    (inOrder : InOrder ((firstSecond, first) :: transitions)) (moment : Int) :
    (ofTransitions key first transitions none).offsetAtUtc moment =
      offsetIn first.offset transitions moment := by
  rw [← scanUtc_eq inOrder]
  unfold offsetAtUtc recorded? ofTransitions finalPeriod periodBefore?
  rw [Table.firstAfter?_eq_findIdx? _ _ inOrder]
  simp only [List.findIdx?_toArray, List.getElem?_toArray, List.back?_toArray, scanUtc]
  cases (((firstSecond, first) :: transitions).findIdx? fun entry => moment < entry.1).bind
      fun index => (((firstSecond, first) :: transitions)[index - 1]?).map Prod.snd with
  | some period => rfl
  | none => cases ((firstSecond, first) :: transitions).getLast? <;> rfl

theorem windows_idle {before : Int} {transitions : List Transition}
    (withinDay : ∀ offset ∈ before :: (transitions.map Prod.snd).map Period.offset,
      -86400 < offset ∧ offset < 86400)
    (inside : ∀ transition ∈ transitions,
      firstSecond + 86400 ≤ transition.1 ∧ transition.1 ≤ lastSecond - 86400) :
    ∀ window ∈ windows before transitions, clampSecond window.last = window.last := by
  induction transitions generalizing before with
  | nil => simp [windows]
  | cons transition rest ih =>
    obtain ⟨second, period⟩ := transition
    simp only [List.map_cons, List.forall_mem_cons, windows, Window.around_last]
      at withinDay inside ⊢
    refine ⟨?_, ih (List.forall_mem_cons.mpr withinDay.2) inside.2⟩
    unfold clampSecond firstSecond lastSecond at *
    omega

def scanWall (before : Int) (entries : List (Int × Shift)) (wall : Int) : Resolution Int :=
  match entries.find? fun entry => wall < entry.1 with
  | some (finish, shift) => offsetsNear finish shift wall
  | none =>
    match entries.getLast? with
    | some (_, shift) => .single (shift.offset + shift.change)
    | none => .single before

theorem offsetsNear_eq {second before after wall : Int}
    (early : wall < second + max before after) :
    offsetsNear (second + max before after) ⟨before, after - before⟩ wall =
      if wall < second + min before after then .single before
      else if after < before then .ambiguous before after else .skipped := by
  have opening : second + max before after - ((after - before).natAbs : Int) =
      second + min before after := by omega
  unfold offsetsNear
  simp only [opening]
  rcases Int.lt_trichotomy before after with forward | rfl | back
  next =>
    have rises : 0 < after - before := by omega
    simp only [rises, if_true, Int.not_lt.mpr (Int.le_of_lt rises),
      Int.not_lt.mpr (Int.le_of_lt forward), if_false]
  next =>
    have single : wall < second + min before before := by omega
    rw [if_pos single, if_pos single]
  next =>
    have falls : after - before < 0 := by omega
    have sum : before + (after - before) = after := by omega
    simp only [falls, back, sum, if_true]

theorem scanWall_eq {before : Int} {transitions : List Transition}
    (idle : ∀ window ∈ windows before transitions, clampSecond window.last = window.last)
    (wall : Int) :
    scanWall before (wallTable before transitions) wall =
      wallOffsetsIn before transitions wall := by
  induction transitions generalizing before with
  | nil => rfl
  | cons transition rest ih =>
    obtain ⟨second, period⟩ := transition
    simp only [windows, List.forall_mem_cons, Window.around_last] at idle
    obtain ⟨still, idle⟩ := idle
    have scanned := ih idle
    simp only [scanWall, wallTable, wallOffsetsIn, still, List.find?_cons] at scanned ⊢
    by_cases early : wall < second + max before period.offset
    next =>
      simp only [early, decide_true, if_true]
      exact offsetsNear_eq early
    next =>
      have late : ¬ wall < second + min before period.offset := by omega
      rw [if_neg late, if_neg early, ← scanned]
      simp only [early, decide_false]
      cases (wallTable period.offset rest).find? fun entry => wall < entry.1 with
      | some entry => rfl
      | none =>
        rw [List.getLast?_cons]
        cases (wallTable period.offset rest).getLast? with
        | some entry => rfl
        | none => exact congrArg Resolution.single (by simp)

theorem offsetsAtWall_eq {key : Option Text} {first : Period} {transitions : List Transition}
    (inOrder : InOrder (wallTable first.offset transitions))
    (idle : ∀ window ∈ windows first.offset transitions, clampSecond window.last = window.last)
    (wall : Int) :
    (ofTransitions key first transitions none).offsetsAtWall wall =
      wallOffsetsIn first.offset transitions wall := by
  rw [← scanWall_eq idle]
  unfold offsetsAtWall ending? ofTransitions finalOffset finalPeriod
  rw [Table.firstAfter?_eq_findIdx? _ _ inOrder]
  rw [← Array.find?_eq_bind_findIdx?_getElem?, List.find?_toArray]
  simp only [List.back?_toArray, scanWall]
  cases (wallTable first.offset transitions).find? fun entry => wall < entry.1 with
  | some entry => rfl
  | none =>
    cases transitions with
    | nil => rfl
    | cons transition rest =>
      simp only [wallTable, List.getLast?_cons]

theorem rest_ahead {before : Int} {transition : Transition} {rest : List Transition}
    (apart : Apart before (transition :: rest)) {wall : Int}
    (early : wall < transition.1 + max before transition.2.offset) :
    ∀ window ∈ (windows transition.2.offset rest).head?, wall < window.first := by
  intro window member
  have step := apart.rel_head? member
  simp only [Window.around_last] at step
  omega

/-- Before the first window the wall shows the offset that holds up to there and no other. -/
theorem offsetIn_before_windows {before : Int} {transitions : List Transition}
    (apart : Apart before transitions) {wall : Int}
    (early : ∀ window ∈ (windows before transitions).head?, wall < window.first) (offset : Int) :
    offsetIn before transitions (wall - offset) = offset ↔ offset = before := by
  induction transitions generalizing before with
  | nil => exact eq_comm
  | cons transition rest ih =>
    have opens := early _ rfl
    simp only [Window.around_first] at opens
    have later := ih apart.of_cons (rest_ahead apart (by omega))
    simp only [offsetIn]
    split
    next => exact eq_comm
    next => omega

theorem offsetIn_after_window {before : Int} {transition : Transition} {rest : List Transition}
    (apart : Apart before (transition :: rest)) {wall : Int}
    (late : transition.1 + max before transition.2.offset ≤ wall) (offset : Int) :
    offsetIn before (transition :: rest) (wall - offset) = offset ↔
      offsetIn transition.2.offset rest (wall - offset) = offset := by
  simp only [offsetIn]
  split
  next previous =>
    -- Only an offset above both leads back to before the transition, and neither side shows it.
    have next : ∀ later ∈ rest, transition.1 ≤ later.1 :=
      (List.pairwise_cons.mp (times_in_order apart)).1
    have held : offsetIn transition.2.offset rest (wall - offset) = transition.2.offset := by
      cases rest with
      | nil => rfl
      | cons later rest =>
        have := next later List.mem_cons_self
        exact if_pos (by omega)
    omega
  next => rfl

theorem mem_wallOffsetsIn {before : Int} {transitions : List Transition}
    (apart : Apart before transitions) (wall offset : Int) :
    offset ∈ (wallOffsetsIn before transitions wall).toList ↔
      offsetIn before transitions (wall - offset) = offset := by
  induction transitions generalizing before with
  | nil => simp [wallOffsetsIn, offsetIn, Resolution.toList, eq_comm]
  | cons transition rest ih =>
    by_cases early : wall < transition.1 + max before transition.2.offset
    next =>
      -- The windows to come are still ahead, so after this transition one offset is left.
      have later := offsetIn_before_windows apart.of_cons (rest_ahead apart early) offset
      simp only [wallOffsetsIn, offsetIn, early, if_true]
      by_cases opened : wall < transition.1 + min before transition.2.offset
      next =>
        simp only [opened, if_true, Resolution.toList, List.mem_singleton]
        split <;> omega
      next =>
        by_cases back : transition.2.offset < before
        next =>
          simp only [opened, back, if_true, if_false, Resolution.toList, List.mem_cons,
            List.not_mem_nil, or_false]
          split <;> omega
        next =>
          simp only [opened, back, if_false, Resolution.toList, List.not_mem_nil, false_iff]
          split <;> omega
    next =>
      have closed : ¬ wall < transition.1 + min before transition.2.offset := by omega
      rw [offsetIn_after_window apart (Int.not_lt.mp early), ← ih apart.of_cons]
      simp only [wallOffsetsIn, closed, early, if_false]

theorem wallOffsetsIn_nodup (before : Int) (transitions : List Transition) (wall : Int) :
    (wallOffsetsIn before transitions wall).toList.Nodup := by
  induction transitions generalizing before with
  | nil => simp [wallOffsetsIn, Resolution.toList]
  | cons transition rest ih =>
    obtain ⟨second, period⟩ := transition
    simp only [wallOffsetsIn]
    split
    next => simp [Resolution.toList]
    next =>
      split
      next =>
        split
        next back => simp [Resolution.toList, Int.ne_of_gt back]
        next => simp [Resolution.toList]
      next => exact ih period.offset

/-- The search by the wall finds just the offsets by which the search by UTC shows the reading. -/
theorem offsetsAtWall_exact (key : Option Text) {first : Period} {transitions : List Transition}
    (spaced : Spaced first transitions) (wall : Int) :
    let rules := ofTransitions key first transitions none
    (∀ offset, offset ∈ (rules.offsetsAtWall wall).toList ↔
      rules.offsetAtUtc (wall - offset) = offset) ∧
    (rules.offsetsAtWall wall = .skipped ↔ (showing rules.offsetAtUtc wall).encard = 0) ∧
    ((∃ offset, rules.offsetsAtWall wall = .single offset) ↔
      (showing rules.offsetAtUtc wall).encard = 1) ∧
    ((∃ earlier later, rules.offsetsAtWall wall = .ambiguous earlier later) ↔
      (showing rules.offsetAtUtc wall).encard = 2) := by
  intro rules
  have idle : ∀ window ∈ windows first.offset transitions,
      clampSecond window.last = window.last := by
    refine windows_idle ?_ spaced.inside
    rw [← List.map_cons, List.forall_mem_map]
    exact spaced.withinDay
  have byWall : rules.offsetsAtWall wall = wallOffsetsIn first.offset transitions wall :=
    offsetsAtWall_eq (wallTable_in_order spaced.apart) idle wall
  have exact : ∀ offset, offset ∈ (rules.offsetsAtWall wall).toList ↔
      rules.offsetAtUtc (wall - offset) = offset := by
    intro offset
    rw [byWall, offsetAtUtc_eq (byUtc_in_order spaced)]
    exact mem_wallOffsetsIn spaced.apart wall offset
  have count : (showing rules.offsetAtUtc wall).encard =
      (rules.offsetsAtWall wall).toList.length := by
    refine encard_showing ?_ exact
    rw [byWall]
    exact wallOffsetsIn_nodup first.offset transitions wall
  refine ⟨exact, ?_⟩
  rw [count]
  cases rules.offsetsAtWall wall <;> simp [Resolution.toList]

def winter : Period := ⟨3600, ['C', 'E', 'T']⟩

def summerTime : List Transition :=
  [(1711846800, ⟨7200, ['C', 'E', 'S', 'T']⟩), (1729990800, winter)]

theorem summerTime_exact :
    Spaced winter summerTime ∧
    (showing (ofTransitions none winter summerTime none).offsetAtUtc 1711852200).encard = 0 ∧
    (showing (ofTransitions none winter summerTime none).offsetAtUtc 1729994400).encard = 2 := by
  have spaced : Spaced winter summerTime := by
    refine ⟨by decide, by decide, ?_⟩
    simp [Apart, windows, summerTime, winter]
  exact ⟨spaced, (offsetsAtWall_exact none spaced 1711852200).2.1.mp (by decide +kernel),
    (offsetsAtWall_exact none spaced 1729994400).2.2.2.mp ⟨7200, 3600, by decide +kernel⟩⟩

end Rules

end ZonedTime
