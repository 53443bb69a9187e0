import ZonedTime.Proofs.Zone.Place

set_option autoImplicit false

namespace ZonedTime

namespace Resolution

variable {α β : Type} {before : α -> α -> Prop} {after : β -> β -> Prop}

theorem pairwise_ambiguous {first second : α} :
    (ambiguous first second).toList.Pairwise before ↔ before first second := by
  simp [toList]

theorem pairwise_single (value : α) : (single value).toList.Pairwise before :=
  List.pairwise_singleton before value

theorem mapM_pairwise {f : α -> Except Error β} {resolution : Resolution α}
    {images : Resolution β} (mapped : resolution.mapM f = .ok images)
    (ordered : resolution.toList.Pairwise before)
    (kept : ∀ a b image other, before a b → f a = .ok image → f b = .ok other →
      after image other) :
    images.toList.Pairwise after := by
  cases resolution with
  | skipped =>
    cases mapped
    exact .nil
  | single value =>
    cases one : f value with
    | error error => simp [mapM, one] at mapped
    | ok image =>
      simp only [mapM, one] at mapped
      cases mapped
      exact pairwise_single image
  | ambiguous earlier later =>
    cases one : f earlier with
    | error error => simp [mapM, one] at mapped
    | ok image =>
      cases two : f later with
      | error error => simp [mapM, one, two] at mapped
      | ok other =>
        simp only [mapM, one, two] at mapped
        cases mapped
        exact pairwise_ambiguous.mpr (kept _ _ _ _ (pairwise_ambiguous.mp ordered) one two)

theorem filterMap_pairwise {f : α -> Option β} {resolution : Resolution α}
    (ordered : resolution.toList.Pairwise before)
    (kept : ∀ a b image other, before a b → f a = some image → f b = some other →
      after image other) :
    (resolution.filterMap f).toList.Pairwise after := by
  rw [toList_filterMap]
  exact ordered.filterMap f fun a b less image one other two => kept a b image other less one two

theorem filterMap_eq_ambiguous {f : α -> Option β} {resolution : Resolution α} {image other : β}
    (both : resolution.filterMap f = .ambiguous image other) :
    ∃ a b, resolution = .ambiguous a b ∧ f a = some image ∧ f b = some other := by
  cases resolution with
  | skipped => cases both
  | single value => cases one : f value <;> simp [filterMap, one] at both
  | ambiguous a b =>
    refine ⟨a, b, rfl, ?_⟩
    cases one : f a <;> cases two : f b <;> simp_all [filterMap]

end Resolution

open Resolution (pairwise_ambiguous pairwise_single)

theorem Yearly.offsetsBetween_descending (outer inner first second wall : Int) :
    (offsetsBetween outer inner first second wall).toList.Pairwise (· > ·) := by
  simp only [offsetsBetween]
  -- A clock moved back by nothing leaves no reading that could come twice.
  repeat' split
  all_goals
    first
    | exact .nil
    | exact pairwise_single _
    | exact pairwise_ambiguous.mpr (by omega)

theorem Yearly.offsetsAtWall_descending (rule : Yearly) (wall : Int) :
    (rule.offsetsAtWall wall).toList.Pairwise (· > ·) := by
  unfold offsetsAtWall
  cases rule.daylight with
  | none => exact pairwise_single _
  | some daylight =>
    simp only
    split
    next => exact offsetsBetween_descending ..
    next => exact offsetsBetween_descending ..

namespace Rules

theorem offsetsNear_descending (finish : Int) (shift : Shift) (wall : Int) :
    (offsetsNear finish shift wall).toList.Pairwise (· > ·) := by
  unfold offsetsNear
  split
  next => exact pairwise_single _
  next =>
    split
    next back => exact pairwise_ambiguous.mpr (by omega)
    next =>
      split
      next => exact .nil
      next => exact pairwise_single _

theorem offsetsAtWall_descending (rules : Rules) (wall : Int) :
    (rules.offsetsAtWall wall).toList.Pairwise (· > ·) := by
  unfold offsetsAtWall
  split
  next finish shift _ => exact offsetsNear_descending finish shift wall
  next =>
    split
    next rule _ => exact rule.offsetsAtWall_descending wall
    next => exact pairwise_single _

end Rules

theorem Instant.lt_of_offset {wall : Reading} {first second : Offset} {zone : Zone}
    {earlier later : Instant} (less : second.seconds < first.seconds)
    (one : ofWall? wall first zone = some earlier) (two : ofWall? wall second zone = some later) :
    earlier.lt later := by
  have coherent := ofWall?_coherent one
  have coherentLater := ofWall?_coherent two
  obtain ⟨utc, -, rfl⟩ := Option.map_eq_some_iff.mp one
  obtain ⟨utcLater, -, rfl⟩ := Option.map_eq_some_iff.mp two
  have place := coherent.1
  have placeLater := coherentLater.1
  refine (Reading.lt_iff _ _).mpr (.inl ?_)
  simp only at place placeLater ⊢
  omega

theorem Zone.instantsAt_eq_ok {zone : Zone} {wall : Reading} {instants : Resolution Instant}
    (asked : zone.instantsAt wall = .ok instants) :
    ∃ offsets, zone.offsetsAtWall wall = .ok offsets
      ∧ offsets.filterMap (fun offset => Instant.ofWall? wall offset zone) = instants := by
  unfold instantsAt at asked
  cases given : zone.offsetsAtWall wall with
  | error error =>
    rw [given] at asked
    cases asked
  | ok offsets =>
    rw [given, ok_bind] at asked
    exact ⟨offsets, rfl, Except.ok.inj asked⟩

theorem Reading.ne_of_lt {a b : Reading} (less : a.lt b) : a ≠ b := by
  rintro rfl
  have irreflexive := (lt_iff a a).mp less
  omega

namespace Place

variable {place : Place} {wall : Reading}

theorem offsetsAtWall_descending {offsets : Resolution Offset}
    (asked : place.offsetsAtWall wall = .ok offsets) :
    offsets.toList.Pairwise fun first second => second.seconds < first.seconds := by
  refine Resolution.mapM_pairwise asked (place.rules.offsetsAtWall_descending _) ?_
  intro a b first second greater one two
  rw [checkOffset_eq_ok] at one two
  omega

theorem instantsAt_ascending {instants : Resolution Instant}
    (asked : (Zone.place place).instantsAt wall = .ok instants) :
    instants.toList.Pairwise fun earlier later => earlier.lt later := by
  obtain ⟨offsets, given, rfl⟩ := Zone.instantsAt_eq_ok asked
  exact Resolution.filterMap_pairwise (offsetsAtWall_descending given)
    fun first second earlier later => Instant.lt_of_offset

/-- Of two offsets of a reading the greater one comes first, and of two instants the earlier one.
Both show the reading and are there to be chosen by name. -/
theorem fold_order (place : Place) (wall : Reading) :
    (∀ first second, place.offsetsAtWall wall = .ok (.ambiguous first second) →
        second.seconds < first.seconds)
      ∧ ∀ earlier later, (Zone.place place).instantsAt wall = .ok (.ambiguous earlier later) →
        earlier.lt later
        ∧ (earlier.wall = wall ∧ earlier.Coherent) ∧ (later.wall = wall ∧ later.Coherent)
        ∧ place.offsetsAtWall wall = .ok (.ambiguous earlier.offset later.offset)
        ∧ wall.inZone (.place place) (Text.ofString "earlier") = .ok earlier
        ∧ wall.inZone (.place place) (Text.ofString "later") = .ok later
        ∧ earlier.eq later = false := by
  constructor
  next =>
    intro first second asked
    have descending := offsetsAtWall_descending asked
    rwa [pairwise_ambiguous] at descending
  next =>
    intro earlier later asked
    have less := pairwise_ambiguous.mp (instantsAt_ascending asked)
    have chosen (setting : Text) : wall.inZone (.place place) setting =
        Reading.choose setting (.ambiguous earlier later) := by
      rw [Reading.inZone, asked, ok_bind]
    obtain ⟨offsets, given, both⟩ := Zone.instantsAt_eq_ok asked
    obtain ⟨first, second, rfl, one, two⟩ := Resolution.filterMap_eq_ambiguous both
    have coherent := Instant.ofWall?_coherent one
    have coherentLater := Instant.ofWall?_coherent two
    obtain ⟨utc, -, rfl⟩ := Option.map_eq_some_iff.mp one
    obtain ⟨utcLater, -, rfl⟩ := Option.map_eq_some_iff.mp two
    refine ⟨less, ⟨rfl, coherent⟩, ⟨rfl, coherentLater⟩, given, ?_, ?_, ?_⟩
    next => exact chosen _
    next => exact chosen _
    next => exact beq_false_of_ne (Reading.ne_of_lt less)

def behind : Place where
  rules := .ofYearly ⟨-10800, ['X', 'S', 'T'],
    some ⟨-14400, ['X', 'D', 'T'], ⟨.julian 60, 7200⟩, ⟨.julian 300, 7200⟩⟩⟩
  source := some (Text.ofString "XST3XDT4,J60,J300")

def repeated : Reading := ⟨⟨1998, 3, 1, by decide⟩, ⟨1, 42, 7, 1234, by decide⟩⟩

def repeatedEarlier : Instant where
  utc := ⟨repeated.date, ⟨4, 42, 7, 1234, by decide⟩⟩
  wall := repeated
  offset := ⟨-10800, by decide⟩
  zone := .place behind

def repeatedLater : Instant where
  utc := ⟨repeated.date, ⟨5, 42, 7, 1234, by decide⟩⟩
  wall := repeated
  offset := ⟨-14400, by decide⟩
  zone := .place behind

theorem fold_order_behind :
    Place.ofYearly (Text.ofString "XST3XDT4,J60,J300") = .ok behind
      ∧ (Zone.place behind).instantsAt repeated = .ok (.ambiguous repeatedEarlier repeatedLater)
      ∧ repeatedLater.offset.seconds < repeatedEarlier.offset.seconds
      ∧ repeatedEarlier.lt repeatedLater
      ∧ repeated.inZone (.place behind) (Text.ofString "earlier") = .ok repeatedEarlier
      ∧ repeated.inZone (.place behind) (Text.ofString "later") = .ok repeatedLater := by
  have accepted : Place.ofYearly (Text.ofString "XST3XDT4,J60,J300") = .ok behind := by rfl
  have asked : (Zone.place behind).instantsAt repeated =
      .ok (.ambiguous repeatedEarlier repeatedLater) := by
    rw [Zone.instantsAt, Zone.offsetsAtWall_place rfl]
    rfl
  obtain ⟨descending, ascending⟩ := fold_order behind repeated
  obtain ⟨less, -, -, offsets, earlier, later, -⟩ := ascending _ _ asked
  exact ⟨accepted, asked, descending _ _ offsets, less, earlier, later⟩

end Place

end ZonedTime
