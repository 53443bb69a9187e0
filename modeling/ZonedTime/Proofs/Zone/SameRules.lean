import Mathlib.Data.List.Basic
import ZonedTime.Pattern.Render
import ZonedTime.Proofs.Error.Outcome
import ZonedTime.Proofs.Reading.SecondLine
import ZonedTime.Proofs.Zone.Search
import ZonedTime.Proofs.Zone.TzifLayout
import ZonedTime.Value.Basic

set_option autoImplicit false

namespace ZonedTime

namespace Table

variable {α β : Type}

def mapEntries (f : α -> β) (entries : Array (Int × α)) : Array (Int × β) :=
  entries.map fun entry => (entry.1, f entry.2)

@[simp]
theorem size_mapEntries (f : α -> β) (entries : Array (Int × α)) :
    (mapEntries f entries).size = entries.size := by
  simp [mapEntries]

theorem search_mapEntries (f : α -> β) (entries : Array (Int × α)) (x : Int) (low high : Nat)
    (inside : high ≤ entries.size) (inside' : high ≤ (mapEntries f entries).size) :
    search (mapEntries f entries) x low high inside' = search entries x low high inside := by
  fun_induction search entries x low high inside with
  | case1 low high inside some_left middle below within early ih =>
    rw [search, dif_pos some_left]
    simp only [mapEntries, Array.getElem_map]
    rw [if_pos early]
    exact ih inside'
  | case2 low high inside some_left middle below within late ih =>
    rw [search, dif_pos some_left]
    simp only [mapEntries, Array.getElem_map]
    rw [if_neg late]
    exact ih (Nat.le_trans (Nat.le_of_lt below) inside')
  | case3 low high inside none_left => rw [search, dif_neg none_left]

theorem firstAfter?_mapEntries (f : α -> β) (entries : Array (Int × α)) (x : Int) :
    firstAfter? (mapEntries f entries) x = firstAfter? entries x := by
  simp only [firstAfter?, size_mapEntries,
    search_mapEntries f entries x 0 entries.size (Nat.le_refl _)]

end Table

def Period.unnamed (period : Period) : Period := ⟨period.offset, []⟩

namespace Rules

def unnamed (rules : Rules) : Rules :=
  { rules with byUtc := Table.mapEntries Period.unnamed rules.byUtc }

def column (rules : Rules) : List (Int × Int) :=
  rules.byUtc.toList.map fun entry => (entry.1, entry.2.offset)

theorem unnamed_byUtc_eq_iff (a b : Rules) :
    a.unnamed.byUtc = b.unnamed.byUtc ↔ a.column = b.column := by
  let withoutName (entry : Int × Int) : Transition := (entry.1, ⟨entry.2, []⟩)
  have table (rules : Rules) : rules.unnamed.byUtc.toList = rules.column.map withoutName := by
    simp [unnamed, column, Table.mapEntries, Period.unnamed, withoutName]
  have injective (x y : Int × Int) (same : withoutName x = withoutName y) : x = y := by
    simpa [withoutName, Prod.ext_iff] using same
  rw [← Array.toList_inj, table, table, List.map_inj_right injective]

theorem same_iff (a b : Rules) : a.same b = true ↔ a.unnamed = b.unnamed := by
  have parts : a.unnamed = b.unnamed ↔ a.key = b.key ∧ a.unnamed.byUtc = b.unnamed.byUtc
      ∧ a.byWall = b.byWall ∧ a.footer = b.footer := by
    simp [unnamed]
  rw [parts, unnamed_byUtc_eq_iff]
  simp [same, column, and_assoc]

@[simp]
theorem recorded?_unnamed (rules : Rules) (second : Int) :
    rules.unnamed.recorded? second = (rules.recorded? second).map Period.unnamed := by
  simp only [recorded?, unnamed, Table.firstAfter?_mapEntries]
  cases Table.firstAfter? rules.byUtc second with
  | none => rfl
  | some index => simp [periodBefore?, Table.mapEntries, Function.comp_def]

@[simp]
theorem finalPeriod_unnamed (rules : Rules) :
    rules.unnamed.finalPeriod = rules.finalPeriod.unnamed := by
  simp only [finalPeriod, unnamed, Table.mapEntries, Array.back?_map]
  cases rules.byUtc.back? with
  | none => rfl
  | some entry => rfl

theorem offsetAtUtc_unnamed (rules : Rules) (second : Int) :
    rules.unnamed.offsetAtUtc second = rules.offsetAtUtc second := by
  have footer : rules.unnamed.footer = rules.footer := rfl
  simp only [offsetAtUtc, recorded?_unnamed, finalPeriod_unnamed, footer]
  cases rules.recorded? second with
  | none => rfl
  | some period => rfl

theorem offsetsAtWall_unnamed (rules : Rules) (wall : Int) :
    rules.unnamed.offsetsAtWall wall = rules.offsetsAtWall wall := by
  have final : rules.unnamed.finalOffset = rules.finalOffset := by
    simp only [finalOffset, finalPeriod_unnamed]
    rfl
  have ending : rules.unnamed.ending? wall = rules.ending? wall := rfl
  have footer : rules.unnamed.footer = rules.footer := rfl
  simp only [offsetsAtWall, final, ending, footer]

theorem digest_unnamed (rules : Rules) : rules.unnamed.digest = rules.digest := by
  simp [digest, unnamed, Table.mapEntries, Period.unnamed, List.flatMap_map]

def nameOnRecord? (rules : Rules) (second : Int) : Option Text :=
  match rules.recorded? second, rules.footer with
  | some period, _ => some period.name
  | none, some _ => none
  | none, none => some rules.finalPeriod.name

def names (rules : Rules) : List Text := rules.byUtc.toList.map fun entry => entry.2.name

section

variable {a b : Rules}

theorem same_digest (same : a.same b = true) : a.digest = b.digest := by
  rw [← digest_unnamed a, (same_iff a b).mp same, digest_unnamed]

theorem same_offsetAtUtc (same : a.same b = true) (second : Int) :
    a.offsetAtUtc second = b.offsetAtUtc second := by
  rw [← offsetAtUtc_unnamed a, (same_iff a b).mp same, offsetAtUtc_unnamed]

theorem same_offsetsAtWall (same : a.same b = true) (wall : Int) :
    a.offsetsAtWall wall = b.offsetsAtWall wall := by
  rw [← offsetsAtWall_unnamed a, (same_iff a b).mp same, offsetsAtWall_unnamed]

theorem same_nameAtUtc (same : a.same b = true) (second : Int) :
    a.nameAtUtc second = b.nameAtUtc second ↔
      a.nameOnRecord? second = b.nameOnRecord? second := by
  rw [same_iff] at same
  have footer : a.footer = b.footer := by simpa [unnamed] using congrArg Rules.footer same
  have recorded : (a.recorded? second).map Period.unnamed =
      (b.recorded? second).map Period.unnamed := by
    rw [← recorded?_unnamed, same, recorded?_unnamed]
  simp only [nameAtUtc, nameOnRecord?, footer]
  cases inA : a.recorded? second with
  | some period =>
    cases inB : b.recorded? second with
    | some other => simp
    | none => simp [inA, inB] at recorded
  | none =>
    cases inB : b.recorded? second with
    | some other => simp [inA, inB] at recorded
    | none =>
      cases b.footer with
      | some rule => simp
      | none => simp

/-- With the names compared as well, nothing would be left to differ. -/
theorem eq_of_same (same : a.same b = true) (names : a.names = b.names) : a = b := by
  rw [same_iff] at same
  have table (rules : Rules) : rules.byUtc.toList =
      List.zipWith (fun entry name => (entry.1, ⟨entry.2, name⟩)) rules.column rules.names := by
    simp [column, Rules.names, List.zipWith_map, List.zipWith_self]
  have column : a.column = b.column :=
    (unnamed_byUtc_eq_iff a b).mp (congrArg Rules.byUtc same)
  have byUtc : a.byUtc = b.byUtc := by
    rw [← Array.toList_inj, table a, table b, column, names]
  cases a
  cases b
  simp_all [unnamed]

end

end Rules

namespace Instant

theorem compile_zoneName : Pattern.compile (Text.ofString "%Z") = .ok [.form .zoneName] := by
  decide +kernel

theorem format_zoneName (instant : Instant) :
    instant.format (Text.ofString "%Z") = instant.zone.abbreviation instant.utc := by
  unfold format subject
  cases instant.zone.abbreviation instant.utc with
  | error error => rfl
  | ok name =>
    simp [Pattern.format, compile_zoneName, Pattern.render, Pattern.itemText, Pattern.formText,
      Subject.needZone]

theorem Coherent.wall_unique {a b : Instant} (aCoherent : a.Coherent) (bCoherent : b.Coherent)
    (utc : a.utc = b.utc) (offset : a.offset = b.offset) : a.wall = b.wall := by
  obtain ⟨aPlace, aNano⟩ := aCoherent
  obtain ⟨bPlace, bNano⟩ := bCoherent
  apply Reading.eq_of_epochSecond_eq
  next => rw [aPlace, bPlace, utc, offset]
  next => rw [aNano, bNano, utc]

theorem same_format_iff {a b : Instant} (aCoherent : a.Coherent) (bCoherent : b.Coherent)
    (same : a.same b = true) :
    (∀ pattern, a.format pattern = b.format pattern) ↔
      a.zone.abbreviation a.utc = b.zone.abbreviation b.utc := by
  simp only [Instant.same, Bool.and_eq_true, beq_iff_eq] at same
  obtain ⟨⟨utc, offset⟩, -⟩ := same
  have wall := aCoherent.wall_unique bCoherent utc offset
  constructor
  next =>
    intro formats
    rw [← format_zoneName, ← format_zoneName, formats]
  next =>
    intro name pattern
    simp only [format, subject, name, wall, offset]

end Instant

/-- Equal rules have equal digests and answer alike to every second, but for the names on record:
rules that do not differ in these either are one and the same. Under them a moment at one offset is
the same instant, and it is written alike by every pattern if and only if it has the same name. -/
theorem same_answers {a b : Rules} (same : a.same b = true) :
    a.digest = b.digest
      ∧ (∀ second, a.offsetAtUtc second = b.offsetAtUtc second
        ∧ a.offsetsAtWall second = b.offsetsAtWall second
        ∧ (a.nameAtUtc second = b.nameAtUtc second ↔
          a.nameOnRecord? second = b.nameOnRecord? second))
      ∧ (a.names = b.names → a = b)
      ∧ ∀ (here there : Instant) (source other : Option Text), here.zone = .place ⟨a, source⟩ →
        there.zone = .place ⟨b, other⟩ → here.Coherent → there.Coherent →
        here.utc = there.utc → here.offset = there.offset →
          here.same there = true
          ∧ ((∀ pattern, here.format pattern = there.format pattern) ↔
            here.zone.abbreviation here.utc = there.zone.abbreviation there.utc) := by
  have answers (second : Int) := And.intro (Rules.same_offsetAtUtc same second)
    (And.intro (Rules.same_offsetsAtWall same second) (Rules.same_nameAtUtc same second))
  refine ⟨Rules.same_digest same, answers, Rules.eq_of_same same, ?_⟩
  intro here there source other hereZone thereZone hereCoherent thereCoherent utc offset
  have sameInstant : here.same there = true := by
    simp only [Instant.same, utc, offset, hereZone, thereZone, Zone.same, same, beq_self_eq_true,
      Bool.and_self]
  exact ⟨sameInstant, Instant.same_format_iff hereCoherent thereCoherent sameInstant⟩

def westernBy (name : Text) : Rules := .ofTransitions none ⟨0, name⟩ [] none

theorem westernBy_name (name : Text) (second : Int) :
    (westernBy name).nameAtUtc second = name := by
  have inOrder : Table.InOrder (westernBy name).byUtc.toList := List.pairwise_singleton _ _
  have recorded : (westernBy name).recorded? second =
      if second < Rules.firstSecond then some ⟨0, name⟩ else none := by
    rw [Rules.recorded?, Table.firstAfter?_eq_findIdx? _ _ inOrder]
    by_cases early : second < Rules.firstSecond <;>
      simp [westernBy, Rules.ofTransitions, Rules.periodBefore?, early]
  rw [Rules.nameAtUtc, recorded]
  by_cases early : second < Rules.firstSecond
  next => rw [if_pos early]
  next =>
    rw [if_neg early]
    rfl

def englishFile : Tzif.File := .lasting 0 [87, 69, 84] (by decide) (by decide) (by decide)

def germanFile : Tzif.File := .lasting 0 [87, 69, 90] (by decide) (by decide) (by decide)

theorem parse_englishFile :
    Tzif.parse none englishFile.bytes = .ok (westernBy ['W', 'E', 'T']) :=
  Tzif.parse_lasting none (by decide) (by decide) (by decide)

theorem parse_germanFile :
    Tzif.parse none germanFile.bytes = .ok (westernBy ['W', 'E', 'Z']) :=
  Tzif.parse_lasting none (by decide) (by decide) (by decide)

def winterMorning (name : Text) : Instant where
  utc := ⟨⟨2010, 1, 15, by decide⟩, ⟨8, 20, 0, 0, by decide⟩⟩
  wall := ⟨⟨2010, 1, 15, by decide⟩, ⟨8, 20, 0, 0, by decide⟩⟩
  offset := .zero
  zone := .place ⟨westernBy name, none⟩

theorem same_answers_winterMorning :
    (westernBy ['W', 'E', 'T']).same (westernBy ['W', 'E', 'Z']) = true
      ∧ (westernBy ['W', 'E', 'T']).digest = (westernBy ['W', 'E', 'Z']).digest
      ∧ (westernBy ['W', 'E', 'T']).nameOnRecord? 0 ≠
        (westernBy ['W', 'E', 'Z']).nameOnRecord? 0
      ∧ (winterMorning ['W', 'E', 'T']).same (winterMorning ['W', 'E', 'Z']) = true
      ∧ ¬ ∀ pattern, (winterMorning ['W', 'E', 'T']).format pattern =
        (winterMorning ['W', 'E', 'Z']).format pattern := by
  have same : (westernBy ['W', 'E', 'T']).same (westernBy ['W', 'E', 'Z']) = true := by decide
  obtain ⟨digest, answers, -, morning⟩ := same_answers same
  obtain ⟨sameMorning, formats⟩ := morning (winterMorning ['W', 'E', 'T'])
    (winterMorning ['W', 'E', 'Z']) none none rfl rfl (by decide) (by decide) rfl rfl
  have records : (westernBy ['W', 'E', 'T']).nameOnRecord? 0 ≠
      (westernBy ['W', 'E', 'Z']).nameOnRecord? 0 := by
    rw [Ne, ← (answers 0).2.2, westernBy_name, westernBy_name]
    decide
  apply And.intro same
  apply And.intro digest
  apply And.intro records
  apply And.intro sameMorning
  rw [formats]
  simp [winterMorning, Zone.abbreviation, westernBy_name]

/-- Two files that differ in a name alone have equal rules and other names. -/
theorem same_rules_named_apart :
    ¬ ∀ (key : Option Text) (first second : Bytes) (a b : Rules), Tzif.parse key first = .ok a →
      Tzif.parse key second = .ok b → a.same b = true →
        (∀ t, a.offsetAtUtc t = b.offsetAtUtc t ∧ a.offsetsAtWall t = b.offsetsAtWall t
          ∧ a.nameAtUtc t = b.nameAtUtc t) ∧ a.digest = b.digest := by
  intro alike
  have same : (westernBy ['W', 'E', 'T']).same (westernBy ['W', 'E', 'Z']) = true := by decide
  have answers := (alike none _ _ _ _ parse_englishFile parse_germanFile same).1
  have names := (answers 0).2.2
  rw [westernBy_name, westernBy_name] at names
  revert names
  decide

end ZonedTime
