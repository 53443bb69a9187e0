import ZonedTime.Proofs.Instant.Coherence
import ZonedTime.Proofs.Text.Scanning

/-!
Places made from yearly rules. The offsets of a rule that could be read lie within a day, so that
its place has an offset for every reading and neither direction raises an error.
-/

set_option autoImplicit false

namespace ZonedTime

def WithinDay (seconds : Int) : Prop := -86400 < seconds ∧ seconds < 86400

theorem withinDay_hour : WithinDay 3600 := by
  constructor <;> decide

namespace Yearly

/-- The offsets that a rule switches between. -/
def offsets (rule : Yearly) : List Int :=
  rule.standard :: rule.daylight.toList.map Daylight.offset

def WithinDay (rule : Yearly) : Prop := ∀ offset ∈ rule.offsets, ZonedTime.WithinDay offset

instance (rule : Yearly) : Decidable rule.WithinDay := by
  unfold WithinDay ZonedTime.WithinDay
  infer_instance

end Yearly

namespace RuleScan

theorem offset_yields : Yields WithinDay offset := by
  refine (Yields.any _).bind fun west _ => ?_
  split
  next => exact fun _ => trivial
  next small =>
    refine Yields.pure ?_
    constructor <;> omega

theorem daylightOffset_yields {standard : Int} (within : WithinDay standard) :
    Yields WithinDay (daylightOffset standard) := by
  refine (Yields.any _).bind fun comma _ => ?_
  split
  next =>
    split
    next => exact fun _ => trivial
    next small =>
      refine Yields.pure ?_
      obtain ⟨first, -⟩ := within
      constructor <;> omega
  next =>
    refine offset_yields.bind fun written holds => ?_
    exact (Yields.any _).bind fun _ _ => Yields.pure holds

theorem daylight_yields {standard : Int} (within : WithinDay standard) :
    Yields (fun found : Daylight => WithinDay found.offset) (daylight standard) := by
  refine (Yields.any _).bind fun name _ => ?_
  refine (daylightOffset_yields within).bind fun offset holds => ?_
  iterate 3 refine (Yields.any _).bind fun _ _ => ?_
  exact Yields.pure holds

theorem zone_yields : Yields Yearly.WithinDay zone := by
  refine (Yields.any _).bind fun name _ => ?_
  refine offset_yields.bind fun standard holds => ?_
  refine (Yields.any _).bind fun rest _ => ?_
  split
  next =>
    refine Yields.pure ?_
    simpa [Yearly.WithinDay, Yearly.offsets] using holds
  next =>
    refine (daylight_yields holds).bind fun found within => ?_
    refine (Yields.any _).bind fun _ _ => Yields.pure ?_
    simpa [Yearly.WithinDay, Yearly.offsets] using ⟨holds, within⟩

end RuleScan

theorem Yearly.parse_withinDay {source : Text} {rule : Yearly}
    (accepted : parse source = .ok rule) : rule.WithinDay := by
  have gives : Gives Yearly.WithinDay (parse source) := by
    unfold parse
    split
    next => trivial
    next => exact Ends.map (RuleScan.zone_yields source)
  exact gives.good_of_ok accepted

theorem Yearly.offsetsBetween_subset (outer inner first second wall : Int) :
    (offsetsBetween outer inner first second wall).toList ⊆ [outer, inner] := by
  intro offset member
  simp only [offsetsBetween] at member
  -- Each answer is made of the two offsets.
  repeat' split at member
  all_goals simp only [Resolution.toList, List.mem_cons, List.not_mem_nil, or_false] at member ⊢
  all_goals omega

theorem Yearly.offsetsAtWall_subset (rule : Yearly) (wall : Int) :
    (rule.offsetsAtWall wall).toList ⊆ rule.offsets := by
  intro offset member
  unfold offsetsAtWall at member
  unfold offsets
  cases whole : rule.daylight with
  | none => simpa [whole, Resolution.toList] using member
  | some daylight =>
    simp only [whole] at member
    split at member <;> simpa [or_comm] using offsetsBetween_subset _ _ _ _ _ member

theorem Rules.offsetAtUtc_ofYearly (rule : Yearly) (second : Int) :
    (ofYearly rule).offsetAtUtc second = rule.offsetAtUtc second := by
  simp [offsetAtUtc, recorded?, ofYearly, Table.firstAfter?, Table.search]

theorem Rules.offsetsAtWall_ofYearly (rule : Yearly) (wall : Int) :
    (ofYearly rule).offsetsAtWall wall = rule.offsetsAtWall wall := by
  simp [offsetsAtWall, ending?, ofYearly, Table.firstAfter?, Table.search]

theorem Offset.ofSeconds?_eq_some {seconds : Int} {offset : Offset} :
    ofSeconds? seconds = some offset ↔ offset.seconds = seconds := by
  unfold ofSeconds?
  constructor
  next =>
    intro made
    split at made
    next => cases made; rfl
    next => cases made
  next =>
    rintro rfl
    rw [dif_pos offset.withinDay]

theorem Resolution.mapM_gives {α β : Type} {f : α -> Except Error β} {resolution : Resolution α}
    (each : ∀ a ∈ resolution.toList, ∃ b, f a = .ok b) :
    ∃ images, resolution.mapM f = .ok images
      ∧ ∀ b, b ∈ images.toList ↔ ∃ a ∈ resolution.toList, f a = .ok b := by
  cases resolution with
  | skipped => exact ⟨skipped, rfl, by simp [toList]⟩
  | single value =>
    obtain ⟨image, found⟩ := each value (.head _)
    refine ⟨single image, by simp [mapM, found], fun b => ?_⟩
    simp [toList, found, eq_comm]
  | ambiguous earlier later =>
    obtain ⟨first, found⟩ := each earlier (.head _)
    obtain ⟨second, next⟩ := each later (.tail _ (.head _))
    refine ⟨ambiguous first second, by simp [mapM, found, next], fun b => ?_⟩
    simp [toList, found, next, eq_comm]

namespace Place

variable {source : Text} {place : Place}

theorem ofYearly_eq_ok (accepted : ofYearly source = .ok place) :
    ∃ rule : Yearly, Yearly.parse source = .ok rule ∧ place.rules = .ofYearly rule := by
  unfold ofYearly at accepted
  split at accepted
  next rule read =>
    cases accepted
    exact ⟨rule, read, rfl⟩
  next => cases accepted

theorem checkOffset_eq_ok (place : Place) {seconds : Int} {offset : Offset} :
    place.checkOffset seconds = .ok offset ↔ offset.seconds = seconds := by
  rw [← Offset.ofSeconds?_eq_some, checkOffset]
  cases Offset.ofSeconds? seconds <;> simp

theorem exists_checkOffset (place : Place) {seconds : Int} (within : WithinDay seconds) :
    ∃ offset, place.checkOffset seconds = .ok offset :=
  ⟨⟨seconds, within⟩, place.checkOffset_eq_ok.mpr rfl⟩

end Place

section

variable {rule : Yearly} {place : Place}

theorem Zone.offsetAtUtc_place (rules : place.rules = .ofYearly rule) (utc : Reading) :
    (Zone.place place).offsetAtUtc utc =
      place.checkOffset (rule.offsetAtUtc utc.epochSecond) := by
  change place.checkOffset (place.rules.offsetAtUtc utc.epochSecond) = _
  rw [rules, Rules.offsetAtUtc_ofYearly]

theorem Zone.offsetsAtWall_place (rules : place.rules = .ofYearly rule) (wall : Reading) :
    (Zone.place place).offsetsAtWall wall =
      (rule.offsetsAtWall wall.epochSecond).mapM place.checkOffset := by
  change (place.rules.offsetsAtWall wall.epochSecond).mapM place.checkOffset = _
  rw [rules, Rules.offsetsAtWall_ofYearly]

theorem Instant.ofUtc_eq_ok (rules : place.rules = .ofYearly rule) {utc : Reading}
    {instant : Instant} :
    ofUtc utc (.place place) = .ok instant ↔ instant.utc = utc ∧ instant.zone = .place place
      ∧ instant.Coherent ∧ instant.offset.seconds = rule.offsetAtUtc utc.epochSecond := by
  rw [ofUtc_iff, Zone.offsetAtUtc_place rules, place.checkOffset_eq_ok]

theorem Zone.instantsAt_gives (rules : place.rules = .ofYearly rule) (within : rule.WithinDay)
    (wall : Reading) :
    ∃ resolution, (Zone.place place).instantsAt wall = .ok resolution
      ∧ ∀ instant, instant ∈ resolution.toList ↔ instant.wall = wall
        ∧ instant.zone = .place place ∧ instant.Coherent
        ∧ instant.offset.seconds ∈ (rule.offsetsAtWall wall.epochSecond).toList := by
  have each : ∀ seconds ∈ (rule.offsetsAtWall wall.epochSecond).toList,
      ∃ offset, place.checkOffset seconds = .ok offset := fun seconds member =>
    place.exists_checkOffset (within _ (rule.offsetsAtWall_subset _ member))
  obtain ⟨offsets, checked, members⟩ := Resolution.mapM_gives each
  refine ⟨offsets.filterMap fun offset => Instant.ofWall? wall offset (.place place), ?_, ?_⟩
  next =>
    unfold instantsAt
    rw [offsetsAtWall_place rules, checked]
    rfl
  next =>
    intro instant
    rw [Resolution.toList_filterMap, List.mem_filterMap]
    simp only [members, Place.checkOffset_eq_ok]
    constructor
    next =>
      rintro ⟨offset, ⟨seconds, member, rfl⟩, made⟩
      have coherent := Instant.ofWall?_coherent made
      obtain ⟨utc, -, rfl⟩ := Option.map_eq_some_iff.mp made
      exact ⟨rfl, rfl, coherent, member⟩
    next =>
      rintro ⟨rfl, zone, coherent, member⟩
      refine ⟨instant.offset, ⟨_, member, rfl⟩, ?_⟩
      refine Option.map_eq_some_iff.mpr ⟨instant.utc, ?_, ?_⟩
      next => exact coherent.shift_back
      next => rw [← zone]

theorem Zone.exists_instantsAt (rules : place.rules = .ofYearly rule) (within : rule.WithinDay)
    {instant : Instant} (zone : instant.zone = .place place) (coherent : instant.Coherent)
    (shown : instant.offset.seconds ∈ (rule.offsetsAtWall instant.wall.epochSecond).toList) :
    ∃ found, (Zone.place place).instantsAt instant.wall = .ok found ∧ instant ∈ found.toList := by
  obtain ⟨found, asked, members⟩ := instantsAt_gives rules within instant.wall
  exact ⟨found, asked, (members instant).mpr ⟨rfl, zone, coherent, shown⟩⟩

end

end ZonedTime
