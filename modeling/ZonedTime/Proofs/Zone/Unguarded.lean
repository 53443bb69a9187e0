import ZonedTime.Proofs.Zone.ChangeDate
import ZonedTime.Proofs.Zone.Search
import ZonedTime.Zone.Rules

/-!
Lookups made of operations that stumble: a list is entered at an index whether or not there is an
entry, and a day of the calendar is asked for whether or not there is one. In rules that hold what
a lookup needs, all of them succeed with what the lookups of `Rules` give.
-/

set_option autoImplicit false

namespace ZonedTime

open Calendar (secondsPerDay epochDay lastDay)

inductive Slip where
  | size
  /-- Bytes that are no whole number of fields, or fewer or more than were asked for. -/
  | width
  | index
  | calendar
  deriving DecidableEq, Repr

namespace Unguarded

section

variable {α : Type}

/-- The entry at an index, which is counted from the end if it is negative. -/
def item (entries : List α) (index : Int) : Except Slip α :=
  let place := if index < 0 then entries.length + index else index
  if place < 0 then .error .index
  else match entries[place.toNat]? with
    | some entry => .ok entry
    | none => .error .index

theorem item_eq_ok {entries : List α} {index : Int} (first : 0 ≤ index)
    (last : index < entries.length) :
    item entries index = .ok (entries.get ⟨index.toNat, by omega⟩) := by
  have inside : index.toNat < entries.length := by omega
  have notFromEnd : ¬ index < 0 := by omega
  simp [item, notFromEnd, List.getElem?_eq_getElem inside]

theorem item_last {entries : List α} {last : α} (found : entries.getLast? = some last) :
    item entries (-1) = .ok last := by
  have filled : 0 < entries.length := by
    cases entries with
    | nil => cases found
    | cons first rest => simp
  have place : ((entries.length : Int) + -1).toNat = entries.length - 1 := by omega
  have inside : ¬ (entries.length : Int) + -1 < 0 := by omega
  rw [List.getLast?_eq_getElem?] at found
  simp [item, place, inside, found]

def search (entries : List (Int × α)) (x : Int) (low high : Nat) : Except Slip Nat :=
  if low < high then do
    let middle := (low + high) / 2
    let entry <- item entries middle
    if entry.1 ≤ x then search entries x (middle + 1) high
    else search entries x low middle
  else .ok low
termination_by high - low

def firstAfter? (entries : List (Int × α)) (x : Int) : Except Slip (Option Nat) := do
  let index <- search entries x 0 entries.length
  return if index = entries.length then none else some index

theorem item_toList (entries : Array α) {index : Nat} (inside : index < entries.size) :
    item entries.toList index = .ok entries[index] := by
  rw [item_eq_ok (Int.natCast_nonneg index) (by simpa using inside)]
  rfl

theorem search_eq (entries : Array (Int × α)) (x : Int) (low high : Nat)
    (inside : high ≤ entries.size) :
    search entries.toList x low high = .ok (Table.search entries x low high inside) := by
  -- The middle is below the upper end, which never leaves the table.
  fun_induction Table.search entries x low high inside with
  | case1 low high inside some_left middle below within early ih =>
    have entry : item entries.toList ((low + high) / 2 : Nat) = .ok entries[middle] :=
      item_toList entries within
    rw [search, if_pos some_left]
    simp only [entry, ok_bind, if_pos early, ih, middle]
  | case2 low high inside some_left middle below within late ih =>
    have entry : item entries.toList ((low + high) / 2 : Nat) = .ok entries[middle] :=
      item_toList entries within
    rw [search, if_pos some_left]
    simp only [entry, ok_bind, if_neg late, ih, middle]
  | case3 low high inside none_left => rw [search, if_neg none_left]

theorem firstAfter?_eq (entries : Array (Int × α)) (x : Int) :
    firstAfter? entries.toList x = .ok (Table.firstAfter? entries x) := by
  simp [firstAfter?, Table.firstAfter?, search_eq entries x 0 entries.size (Nat.le_refl _)]

end

def existing : Option Date -> Except Slip Date
  | some date => .ok date
  | none => .error .calendar

def yearOfEpoch (second : Int) : Except Slip Int := do
  let day := min (max (second / secondsPerDay + epochDay) 1) lastDay
  return (<- existing (Date.ofDayNumber? day)).year

def localSecond (change : Change) (year : Int) : Except Slip Int :=
  match change.day.date year with
  | .ok date => .ok (date.epochSecond + change.time)
  | .error _ => .error .calendar

def inDaylight (standard : Int) (daylight : Daylight) (second : Int) : Except Slip Bool := do
  let year <- yearOfEpoch (second + standard)
  let start := (<- localSecond daylight.start year) - standard
  let stop := (<- localSecond daylight.stop year) - daylight.offset
  return if start < stop then start ≤ second && second < stop
    else !(stop ≤ second && second < start)

def seasonal {β : Type} (inStandard : β) (inSeason : Daylight -> β) (rule : Yearly)
    (second : Int) : Except Slip β :=
  match rule.daylight with
  | none => .ok inStandard
  | some daylight => do
    if (<- inDaylight rule.standard daylight second) then return inSeason daylight
    else return inStandard

def offsetsByRule (rule : Yearly) (wall : Int) : Except Slip (Resolution Int) :=
  match rule.daylight with
  | none => .ok (.single rule.standard)
  | some daylight => do
    let year <- yearOfEpoch wall
    let start <- localSecond daylight.start year
    let stop <- localSecond daylight.stop year
    return if start < stop then Yearly.offsetsBetween rule.standard daylight.offset start stop wall
      else Yearly.offsetsBetween daylight.offset rule.standard stop start wall

def atUtc {β : Type} (ofPeriod : Period -> β) (ofRule : Yearly -> Int -> Except Slip β)
    (rules : Rules) (second : Int) : Except Slip β := do
  match <- firstAfter? rules.byUtc.toList second with
  | some index => return ofPeriod (<- item rules.byUtc.toList (max 0 ((index : Int) - 1))).2
  | none =>
    match rules.footer with
    | some rule => ofRule rule second
    | none => return ofPeriod (<- item rules.byUtc.toList (-1)).2

def offsetAtUtc : Rules -> Int -> Except Slip Int :=
  atUtc Period.offset fun rule => seasonal rule.standard Daylight.offset rule

def nameAtUtc : Rules -> Int -> Except Slip Text :=
  atUtc Period.name fun rule => seasonal rule.name Daylight.name rule

def offsetsAtWall (rules : Rules) (wall : Int) : Except Slip (Resolution Int) := do
  match <- firstAfter? rules.byWall.toList wall with
  | some index =>
    let (finish, shift) <- item rules.byWall.toList index
    return Rules.offsetsNear finish shift wall
  | none =>
    match rules.footer with
    | some rule => offsetsByRule rule wall
    | none =>
      if rules.byWall.isEmpty then return .single (<- item rules.byUtc.toList (-1)).2.offset
      else
        let (_, shift) <- item rules.byWall.toList (-1)
        return .single (shift.offset + shift.change)

end Unguarded

/-- Rules that have a last period where they end without a yearly rule, whose changes come in every
year. -/
structure Rules.Complete (rules : Rules) : Prop where
  table : rules.footer = none → 0 < rules.byUtc.size
  footer : ∀ rule ∈ rules.footer, rule.ChangesInRange

namespace Unguarded

theorem existing_eq {n : Int} (first : 1 ≤ n) (last : n ≤ lastDay) :
    ∃ date, existing (Date.ofDayNumber? n) = .ok date ∧ date.year = Calendar.yearOfDay n := by
  obtain ⟨date, found⟩ := Option.isSome_iff_exists.mp (Date.ofDayNumber?_isSome first last)
  exact ⟨date, congrArg existing found, Date.year_of_ofDayNumber? found⟩

theorem yearOfEpoch_eq (second : Int) :
    yearOfEpoch second = .ok (Calendar.yearOfEpoch second) := by
  -- The day is pulled into the calendar before it is asked for.
  have first : 1 ≤ min (max (second / secondsPerDay + epochDay) 1) lastDay :=
    le_min (le_max_right _ _) (by decide)
  obtain ⟨date, found, year⟩ := existing_eq first (min_le_right _ _)
  simp only [yearOfEpoch, found, ok_bind, pure_eq_ok, year]
  rfl

theorem localSecond_eq {change : Change} (inRange : change.day.InRange) {year : Int}
    (first : 1 ≤ year) (last : year ≤ 9999) :
    localSecond change year = .ok (change.localSecond year) := by
  obtain ⟨date, found, place⟩ := ChangeDay.exists_date inRange first last
  simp only [localSecond, found, Change.localSecond, Date.epochSecond, place]

section

variable {rule : Yearly}

theorem inDaylight_eq (inRange : rule.ChangesInRange) {daylight : Daylight}
    (given : rule.daylight = some daylight) (second : Int) :
    inDaylight rule.standard daylight second =
      .ok (Yearly.inDaylight rule.standard daylight second) := by
  obtain ⟨start, stop⟩ := inRange daylight given
  obtain ⟨first, last⟩ := Calendar.yearOfEpoch_range (second + rule.standard)
  simp only [inDaylight, yearOfEpoch_eq, localSecond_eq start first last,
    localSecond_eq stop first last, ok_bind, pure_eq_ok]
  rfl

theorem seasonal_eq {β : Type} (inRange : rule.ChangesInRange) (inStandard : β)
    (inSeason : Daylight -> β) (second : Int) :
    seasonal inStandard inSeason rule second =
      .ok (match rule.daylight with
        | none => inStandard
        | some daylight =>
          if Yearly.inDaylight rule.standard daylight second then inSeason daylight
          else inStandard) := by
  unfold seasonal
  cases given : rule.daylight with
  | none => rfl
  | some daylight =>
    simp only [inDaylight_eq inRange given, ok_bind]
    split <;> rfl

theorem offsetsByRule_eq (inRange : rule.ChangesInRange) (wall : Int) :
    offsetsByRule rule wall = .ok (rule.offsetsAtWall wall) := by
  cases given : rule.daylight with
  | none => simp [offsetsByRule, Yearly.offsetsAtWall, given]
  | some daylight =>
    obtain ⟨start, stop⟩ := inRange daylight given
    obtain ⟨first, last⟩ := Calendar.yearOfEpoch_range wall
    simp only [offsetsByRule, Yearly.offsetsAtWall, given, yearOfEpoch_eq,
      localSecond_eq start first last, localSecond_eq stop first last, ok_bind, pure_eq_ok]

end

theorem firstAfter?_inside {α : Type} {entries : Array (Int × α)} {x : Int} {index : Nat}
    (found : Table.firstAfter? entries x = some index) : index < entries.size := by
  have bound := Table.search_le entries x 0 entries.size (Nat.le_refl _) (Nat.zero_le _)
  simp only [Table.firstAfter?, Option.ite_none_left_eq_some, Option.some.injEq] at found
  obtain ⟨other, rfl⟩ := found
  omega

section

variable {rules : Rules}

theorem item_final (filled : 0 < rules.byUtc.size) :
    ∃ second, item rules.byUtc.toList (-1) = .ok (second, rules.finalPeriod) := by
  cases found : rules.byUtc.back? with
  | none => simp [Array.back?_eq_none_iff] at found; simp [found] at filled
  | some last =>
    have entry : rules.byUtc.toList.getLast? = some last := by simpa using found
    exact ⟨last.1, by simp [item_last entry, Rules.finalPeriod, found]⟩

theorem item_recorded {index : Nat} (inside : index < rules.byUtc.size) :
    ∃ second period, rules.periodBefore? index = some period
      ∧ item rules.byUtc.toList (max 0 ((index : Int) - 1)) = .ok (second, period) := by
  -- Before the first entry the first period is taken, as if it had always been.
  have place : max 0 ((index : Int) - 1) = (index - 1 : Nat) := by omega
  have before : index - 1 < rules.byUtc.size := by omega
  refine ⟨rules.byUtc[index - 1].1, rules.byUtc[index - 1].2, ?_, ?_⟩
  next => simp [Rules.periodBefore?, before]
  next => rw [place, item_toList rules.byUtc before]

theorem atUtc_eq {β : Type} (complete : rules.Complete) (ofPeriod : Period -> β)
    {ofRule : Yearly -> Int -> Except Slip β} {byRule : Yearly -> Int -> β}
    (succeeds : ∀ rule : Yearly, rule.ChangesInRange →
      ∀ second, ofRule rule second = .ok (byRule rule second)) (second : Int) :
    atUtc ofPeriod ofRule rules second =
      .ok (match rules.recorded? second with
        | some period => ofPeriod period
        | none =>
          match rules.footer with
          | some rule => byRule rule second
          | none => ofPeriod rules.finalPeriod) := by
  unfold atUtc Rules.recorded?
  rw [firstAfter?_eq, ok_bind]
  cases found : Table.firstAfter? rules.byUtc second with
  | some index =>
    obtain ⟨start, period, before, entry⟩ := item_recorded (firstAfter?_inside found)
    simp [before, entry]
  | none =>
    cases footer : rules.footer with
    | some rule => exact succeeds rule (complete.footer rule footer) second
    | none =>
      obtain ⟨start, entry⟩ := item_final (complete.table footer)
      simp [entry]

theorem offsetAtUtc_eq (complete : rules.Complete) (second : Int) :
    offsetAtUtc rules second = .ok (rules.offsetAtUtc second) :=
  atUtc_eq complete Period.offset (fun _ inRange => seasonal_eq inRange _ _) second

theorem nameAtUtc_eq (complete : rules.Complete) (second : Int) :
    nameAtUtc rules second = .ok (rules.nameAtUtc second) :=
  atUtc_eq complete Period.name (fun _ inRange => seasonal_eq inRange _ _) second

theorem offsetsAtWall_eq (complete : rules.Complete) (wall : Int) :
    offsetsAtWall rules wall = .ok (rules.offsetsAtWall wall) := by
  unfold offsetsAtWall Rules.offsetsAtWall Rules.ending?
  rw [firstAfter?_eq, ok_bind]
  cases found : Table.firstAfter? rules.byWall wall with
  | some index =>
    have inside := firstAfter?_inside found
    simp [item_toList rules.byWall inside, inside]
  | none =>
    cases footer : rules.footer with
    | some rule => exact offsetsByRule_eq (complete.footer rule footer) wall
    | none =>
      -- Without a shift the last period of the other table is asked, which there has to be.
      cases last : rules.byWall.back? with
      | none =>
        obtain ⟨start, entry⟩ := item_final (complete.table footer)
        have empty : rules.byWall = #[] := Array.back?_eq_none_iff.mp last
        simp [Rules.finalOffset, empty, entry]
      | some shift =>
        have entry : item rules.byWall.toList (-1) = .ok shift := item_last (by simpa using last)
        have filled : rules.byWall.isEmpty = false := by
          cases same : rules.byWall.isEmpty with
          | false => rfl
          | true =>
            rw [Array.isEmpty_iff.mp same] at last
            cases last
        simp [Rules.finalOffset, filled, entry, last]

end

end Unguarded

end ZonedTime
