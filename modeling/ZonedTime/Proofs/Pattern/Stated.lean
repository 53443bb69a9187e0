import ZonedTime.Proofs.Calendar.DayLine
import ZonedTime.Proofs.Pattern.Compiled
import ZonedTime.Proofs.Pattern.Refusal

set_option autoImplicit false

namespace ZonedTime

open Error (IsParse)

namespace Slot

def range : Slot -> Int × Int
  | year | isoYear => (1, 9999)
  | century | yearOfCentury | isoCentury | isoYearOfCentury => (0, 99)
  | month => (1, 12)
  | weekFromSunday | weekFromMonday => (0, 53)
  | isoWeek => (1, 53)
  | weekday => (0, 6)
  | yearDay => (1, 366)
  | day => (1, 31)
  | half => (0, 1)
  | hourOfHalf => (0, 11)
  | minute => (0, 59)
  | second => (0, 60)
  | nanosecond => (0, 999999999)
  | timestamp => (-99999999999999999999, 99999999999999999999)
  | offset => (-86399, 86399)

def Admits (slot : Slot) (value : Int) : Prop := slot.range.1 ≤ value ∧ value ≤ slot.range.2

instance (slot : Slot) (value : Int) : Decidable (slot.Admits value) := by
  unfold Admits
  infer_instance

theorem admits_nanosecond {value : Int} : nanosecond.Admits value ↔ IsFraction value := by
  simp only [Admits, range, IsFraction]
  omega

end Slot

namespace Pattern

def Admitted (stated : List (Slot × Int)) : Prop := ∀ found ∈ stated, found.1.Admits found.2

@[simp] theorem admitted_nil : Admitted [] := by
  intro found member
  cases member

@[simp] theorem admitted_cons {slot : Slot} {value : Int} {stated : List (Slot × Int)} :
    Admitted ((slot, value) :: stated) ↔ slot.Admits value ∧ Admitted stated :=
  List.forall_mem_cons

theorem inRange_gives {low high value : Int} {stated : List (Slot × Int)}
    (admitted : low ≤ value ∧ value ≤ high → Admitted stated) :
    Gives Admitted (inRange low high value stated) := by
  unfold inRange
  split
  next within => exact admitted within
  next => trivial

/-- The values that are not held against a range are in range as they are scanned. -/
def InWidth (value : Int) : Number -> Prop
  | .nanosecond => Slot.nanosecond.Admits value
  | .timestamp => Slot.timestamp.Admits value
  | _ => True

theorem numberFields_gives {number : Number} {value : Int} (width : InWidth value number) :
    Gives Admitted (numberFields value number) := by
  cases number with
  | nanosecond => exact admitted_cons.mpr ⟨width, admitted_nil⟩
  | timestamp => exact admitted_cons.mpr ⟨width, admitted_nil⟩
  | _ =>
    refine inRange_gives fun within => ?_
    simp only [admitted_cons, admitted_nil, Slot.Admits, Slot.range, and_true]
    omega

theorem nanoseconds_yields (least : Nat) {most : Nat} (nine : most ≤ 9) :
    Yields Slot.nanosecond.Admits (nanoseconds least most) :=
  (Scan.nanosOfDigits_yields least nine).imp fun _ => Slot.admits_nanosecond.mpr

theorem signedNumber_yields : Yields Slot.timestamp.Admits signedNumber := by
  have size (negative : Bool) : Yields Slot.timestamp.Admits (do
      let size : Int := Text.value (<- Scan.digits 1 20)
      return if negative then -size else size) := by
    refine (Scan.digits_yields 1 20).bind fun run ⟨digits, short⟩ => Yields.pure ?_
    have below := Text.value_lt digits
    have power : 10 ^ run.length ≤ 10 ^ 20 := Nat.pow_le_pow_right (by decide) short
    simp only [Slot.Admits, Slot.range]
    split <;> omega
  refine (Yields.any _).bind fun negative _ => ?_
  cases negative with
  | true => exact size true
  | false => exact (Yields.any _).bind fun _ _ => size false

theorem number_yields (kind : Number) (padding : Padding) :
    Yields Admitted (number kind padding) := by
  have value : Yields (InWidth · kind) (numberValue kind) := by
    cases kind with
    | nanosecond => exact nanoseconds_yields 1 (Nat.le_refl 9)
    | timestamp => exact signedNumber_yields
    | _ => exact Yields.any _
  have stated : Yields Admitted (do numberFields (<- numberValue kind) kind) :=
    value.bind fun _ width => Yields.lift (numberFields_gives width)
  unfold number
  split
  next => exact (Yields.any _).bind fun _ _ => stated
  next => exact stated

theorem name_yields (names : List Text) :
    Yields (fun index : Int => 0 ≤ index ∧ index < names.length) (name names) := by
  intro t
  change Gives _ (name names t)
  unfold name
  simp only
  split
  next index found =>
    have inList : index < names.length := (List.findIdx?_eq_some_iff_findIdx_eq.mp found).1
    split <;> exact ⟨Int.natCast_nonneg index, by simpa using inList⟩
  next => split <;> trivial

theorem half_yields : Yields Slot.half.Admits half := by
  intro t
  change Gives _ (half t)
  unfold half
  simp only
  split
  next => trivial
  next =>
    split
    next => exact (by decide : Slot.half.Admits 0)
    next =>
      split
      next => exact (by decide : Slot.half.Admits 1)
      next => trivial

theorem offset_yields : Yields Slot.offset.Admits offset := by
  refine (Yields.any _).bind fun sign _ => ?_
  refine (Scan.number_yields 2).bind fun hours someHours => (Yields.any _).bind fun _ _ => ?_
  refine (Scan.number_yields 2).bind fun minutes someMinutes => ?_
  by_cases wide : 59 < minutes ∨ 23 < hours
  next =>
    simp only [if_pos wide]
    exact fun _ => trivial
  next =>
    simp only [if_neg wide]
    refine Yields.pure ?_
    simp only [Slot.Admits, Slot.range]
    split <;> omega

theorem scanned_yields {α : Type} {good : α -> Prop} {scan : Scan α} (yields : Yields good scan) :
    Yields good (scanned scan) :=
  fun t => (yields t).mapError_gives

theorem rfc3339_yields : Yields Admitted rfc3339 := by
  intro t
  change Gives _ (rfc3339 t)
  unfold rfc3339
  split
  next => trivial
  next =>
    -- The stamp has been held against the calendar and the clock, which are within the ranges.
    refine (Rfc3339.parse_ends _).gives.bind fun stamp sound => ?_
    obtain ⟨firstYear, lastYear, firstMonth, lastMonth, firstDay, lastDay⟩ := sound.date
    obtain ⟨firstHour, lastHour, firstMinute, lastMinute, firstSecond, lastSecond⟩ := sound.clock
    obtain ⟨firstNano, lastNano, -⟩ := sound.nano
    obtain ⟨west, east⟩ := sound.withinDay
    have inMonth := sound.wall.date.day_le
    simp only [Stamp.Sound.wall] at inMonth
    change Admitted _
    simp only [admitted_cons, admitted_nil, Slot.Admits, Slot.range, and_true]
    omega

def fractionWidth : Item -> Nat
  | .form (.digits count _) => count
  | _ => 0

theorem compile?_fractionWidth {pattern : Text} {items : List Item}
    (compiled : compile? pattern = some items) : ∀ item ∈ items, fractionWidth item ≤ 9 :=
  compile?_forall (fun _ => Nat.zero_le 9) (fun _ => Nat.zero_le 9) (fun _ _ => Nat.zero_le 9)
    (by decide) compiled

theorem nothing_yields (skipped : Scan Unit) :
    Yields Admitted (do
      skipped
      return [] : Scan (List (Slot × Int))) :=
  (Yields.any skipped).bind fun _ _ => Yields.pure admitted_nil

theorem stated_yields {α : Type} {good : α -> Prop} {scan : Scan α} (yields : Yields good scan)
    {slot : Slot} {value : α -> Int} (admits : ∀ a, good a → slot.Admits (value a)) :
    Yields Admitted (do return [(slot, value (<- scan))] : Scan (List (Slot × Int))) :=
  yields.bind fun _ holds => Yields.pure (admitted_cons.mpr ⟨admits _ holds, admitted_nil⟩)

theorem form_yields {kind : Form} (short : fractionWidth (.form kind) ≤ 9) :
    Yields Admitted (form kind) := by
  have month : Yields Admitted
      (do return [(.month, (<- name Calendar.monthNames) + 1)] : Scan (List (Slot × Int))) :=
    stated_yields (name_yields Calendar.monthNames) (fun index inList => by
      have twelve : Calendar.monthNames.length = 12 := rfl
      simp only [Slot.Admits, Slot.range]
      omega)
  have weekday : Yields Admitted
      (do return [(.weekday, <- name Calendar.weekdayNames)] : Scan (List (Slot × Int))) :=
    stated_yields (name_yields Calendar.weekdayNames) (fun index inList => by
      have seven : Calendar.weekdayNames.length = 7 := rfl
      simp only [Slot.Admits, Slot.range]
      omega)
  cases kind with
  | shortMonth => exact scanned_yields month
  | longMonth => exact scanned_yields month
  | shortWeekday => exact scanned_yields weekday
  | longWeekday => exact scanned_yields weekday
  | lowerHalf => exact scanned_yields (stated_yields half_yields fun _ => id)
  | upperHalf => exact scanned_yields (stated_yields half_yields fun _ => id)
  | fraction =>
    refine scanned_yields ((Yields.any _).bind fun point _ => ?_)
    split
    next => exact stated_yields (nanoseconds_yields 1 (Nat.le_refl 9)) fun _ => id
    next => exact Yields.pure admitted_nil
  | digits count point =>
    have read := stated_yields (nanoseconds_yields count short) fun _ => id
    refine scanned_yields ?_
    unfold fixedDigits
    split
    next => exact (Yields.any _).bind fun _ _ => read
    next => exact read
  | zoneName => exact scanned_yields (nothing_yields _)
  | offset colon => exact scanned_yields (stated_yields offset_yields fun _ => id)
  | rfc3339 => exact rfc3339_yields

theorem item_yields {first : Item} (short : fractionWidth first ≤ 9) :
    Yields Admitted (item first) := by
  cases first with
  | literal text => exact scanned_yields (nothing_yields _)
  | blank text => exact scanned_yields (nothing_yields _)
  | number kind padding => exact scanned_yields (number_yields kind padding)
  | form kind => exact form_yields short

end Pattern

namespace Fields

def Admitted (fields : Fields) : Prop := ∀ slot, ∀ value ∈ fields.get slot, slot.Admits value

theorem empty_admitted : Admitted empty := by
  rintro slot value ⟨⟩

theorem set_gives {fields : Fields} (admitted : fields.Admitted) {slot : Slot} {value : Int}
    (admits : slot.Admits value) : Gives Admitted (fields.set slot value) := by
  unfold set
  split
  next =>
    intro other stated
    simp only [put]
    split
    next same =>
      rintro ⟨⟩
      exact same ▸ admits
    next => exact admitted other stated
  next =>
    -- A field stated again has to say the same.
    split
    next => exact admitted
    next => trivial

theorem setAll_gives {fields : Fields} (admitted : fields.Admitted)
    {stated : List (Slot × Int)} (each : Pattern.Admitted stated) :
    Gives Admitted (fields.setAll stated) := by
  induction stated generalizing fields with
  | nil => exact admitted
  | cons first rest ih =>
    obtain ⟨here, later⟩ := Pattern.admitted_cons.mp each
    exact (set_gives admitted here).bind fun after kept => ih kept later

end Fields

namespace Pattern

theorem gather_yields {items : List Item} (short : ∀ item ∈ items, fractionWidth item ≤ 9)
    {fields : Fields} (admitted : fields.Admitted) :
    Yields Fields.Admitted (gather fields items) := by
  induction items generalizing fields with
  | nil => exact Yields.pure admitted
  | cons first rest ih =>
    obtain ⟨here, later⟩ := List.forall_mem_cons.mp short
    refine (item_yields here).bind fun stated each => ?_
    refine Yields.bind (Yields.lift ?_) fun after kept => ih later kept
    exact (Fields.setAll_gives admitted each).mapError_gives

theorem parse_ends (t pattern : Text) : Ends Fields.Admitted IsParse (parse t pattern) := by
  have compiled : Gives (fun items => ∀ item ∈ items, fractionWidth item ≤ 9)
      (compile pattern) := by
    unfold compile
    split
    next items found => exact compile?_fractionWidth found
    next => trivial
  refine .of_gives (compiled.bind fun items short => ?_) (parse_parse t pattern)
  refine (gather_yields short Fields.empty_admitted t).bind fun found admitted => ?_
  simp only
  split
  next => exact admitted
  next => trivial

end Pattern

end ZonedTime
