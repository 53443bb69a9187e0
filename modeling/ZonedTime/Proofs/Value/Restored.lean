import ZonedTime.Proofs.Instant.Constant
import ZonedTime.Proofs.Value.Layout
import ZonedTime.Proofs.Zone.Place
import ZonedTime.Value.Basic

set_option autoImplicit false

namespace ZonedTime

open Instant (ReachableFrom Source)

section

variable (load : Text -> Except Error Rules)

def Zone.restored (zone : Zone) : Except Error Zone := do
  match <- (<- (Value.zone zone).pack).unpack load with
  | .zone again => return again
  | _ => throw .unsupported

def Packed.restored : Packed -> Except Error Value
  | instant bytes zone => do (instant bytes (<- zone.restored load)).unpack load
  | day bytes zone => do (day bytes (<- zone.restored load)).unpack load
  | packed => packed.unpack load

def Value.restored (value : Value) : Except Error Value := do
  (<- value.pack).restored load

end

/-- UTC, fixed offsets and what is read from a yearly rule: nothing is looked up to restore them. -/
inductive Zone.SelfContained : Zone -> Prop where
  | utc : SelfContained .utc
  | fixed (offset : Offset) : SelfContained (.fixed offset)
  | yearly {source : Text} {site : Place} (accepted : Place.ofYearly source = .ok site) :
      SelfContained (.place site)

theorem Place.pack_ofYearly {source : Text} {site : Place}
    (accepted : Place.ofYearly source = .ok site) :
    site.pack = .ok (.place none (some source)) := by
  unfold ofYearly at accepted
  split at accepted
  next =>
    cases accepted
    rfl
  next => cases accepted

theorem Rules.same_self (rules : Rules) : rules.same rules = true := by
  simp [same]

namespace Zone.SelfContained

variable {zone : Zone}

theorem exists_place (contained : zone.SelfContained) (choice : zone.constant? = none) :
    ∃ site, zone = .place site := by
  cases contained with
  | utc => cases choice
  | fixed offset => cases choice
  | yearly accepted => exact ⟨_, rfl⟩

theorem same_self (contained : zone.SelfContained) : zone.same zone = true := by
  cases contained with
  | utc => rfl
  | fixed offset => exact beq_self_eq_true offset
  | yearly accepted => exact Rules.same_self _

theorem restored_eq (contained : zone.SelfContained) (load : Text -> Except Error Rules) :
    zone.restored load = .ok zone := by
  cases contained with
  | utc => rfl
  | fixed offset =>
    have packed : (Value.zone (.fixed offset)).pack = .ok (.offset offset.seconds) := rfl
    rw [restored, packed, ok_bind, Packed.unpack, offset.ofSeconds_seconds]
    rfl
  | @yearly source site accepted =>
    have packed : (Value.zone (.place site)).pack = .ok (.place none (some source)) :=
      Place.pack_ofYearly accepted
    rw [restored, packed, ok_bind, Packed.unpack, Option.getD_some, accepted]
    rfl

end Zone.SelfContained

namespace Instant

variable {instant : Instant} {source : Source} {start : Offset}

theorem unpack_pack (inBand : instant.utc.InBand) (coherent : instant.Coherent)
    (asked : instant.zone.offsetAtUtc instant.utc = .ok instant.offset) :
    unpack instant.pack instant.zone = .ok instant := by
  rw [unpack, pack, Reading.packs.unpacked _ inBand, ok_bind]
  exact ofUtc_iff.mpr ⟨rfl, rfl, coherent, asked⟩

theorem ReachableFrom.asked (reached : ReachableFrom source start instant)
    (contained : instant.zone.SelfContained)
    (kept : ∀ site, instant.zone = .place site →
      site.offsetAtUtc instant.utc = .ok instant.offset) :
    instant.zone.offsetAtUtc instant.utc = .ok instant.offset := by
  cases known : instant.zone.constant? with
  | some constant =>
    have settled := reached.reachable.settled constant known
    rw [Zone.offsetAtUtc_constant known, settled]
  | none =>
    obtain ⟨site, zone⟩ := contained.exists_place known
    have place := kept site zone
    rwa [zone]

theorem restored_eq (inBand : instant.utc.InBand) (coherent : instant.Coherent)
    (contained : instant.zone.SelfContained)
    (asked : instant.zone.offsetAtUtc instant.utc = .ok instant.offset)
    (load : Text -> Except Error Rules) :
    Value.restored load (.instant instant) = .ok (.instant instant) := by
  have packed : (Value.instant instant).pack = .ok (.instant instant.pack instant.zone) := rfl
  rw [Value.restored, packed, ok_bind, Packed.restored, contained.restored_eq, ok_bind,
    Packed.unpack, unpack_pack inBand coherent asked]
  rfl

end Instant

theorem Day.restored_eq {day : Day} (contained : day.zone.SelfContained)
    (load : Text -> Except Error Rules) :
    Value.restored load (.day day) = .ok (.day day) := by
  have packed : (Value.day day).pack = .ok (.day day.pack day.zone) := rfl
  rw [Value.restored, packed, ok_bind, Packed.restored, contained.restored_eq, ok_bind,
    Packed.unpack, unpack, pack, Date.packs.unpacked _ trivial]
  rfl

/-- Dates, times, readings and durations fit in their bytes and come back as they were, leap seconds
at any second included. So do the days and the instants of a zone that is stored in full; an instant
under the rules of a place is to have the offset that these give for its moment. -/
theorem restored_as_stored :
    Packs (fun _ => True) Date.layout 4 Date.pack Date.unpack
      ∧ Packs Time.InBand Time.layout 7 Time.pack Time.unpack
      ∧ Packs Reading.InBand Reading.layout 11 Reading.pack Reading.unpack
      ∧ Packs Duration.InRange Duration.layout 12 Duration.pack Duration.unpack
      ∧ (∀ (load : Text -> Except Error Rules) (source : Source) (start : Offset)
        (instant : Instant), source.Valid → ReachableFrom source start instant →
        instant.zone.SelfContained →
        (∀ site, instant.zone = .place site →
          site.offsetAtUtc instant.utc = .ok instant.offset) →
        Value.restored load (.instant instant) = .ok (.instant instant)
          ∧ instant.same instant = true)
      ∧ ∀ (load : Text -> Except Error Rules) (day : Day), day.zone.SelfContained →
        Value.restored load (.day day) = .ok (.day day) ∧ day.zone.same day.zone = true := by
  refine ⟨Date.packs, Time.packs, Reading.packs, Duration.packs, ?_, ?_⟩
  next =>
    intro load source start instant valid reached contained kept
    have asked := reached.asked contained kept
    have inBand := reached.utc_inBand valid
    refine ⟨Instant.restored_eq inBand reached.coherent contained asked load, ?_⟩
    simp [Instant.same, contained.same_self]
  next =>
    intro load day contained
    exact ⟨Day.restored_eq contained load, contained.same_self⟩

def central : Place where
  rules := .ofYearly ⟨-21600, ['C', 'S', 'T'],
    some ⟨-18000, ['C', 'D', 'T'], ⟨.nth 3 2 0, 7200⟩, ⟨.nth 11 1 0, 7200⟩⟩⟩
  source := some (Text.ofString "CST6CDT,M3.2.0,M11.1.0")

def eveningLeap : Instant where
  utc := ⟨⟨1997, 6, 30, by decide⟩, ⟨23, 59, 59, 1999999999, Time.isClock_lastSecond⟩⟩
  wall := ⟨⟨1997, 6, 30, by decide⟩, ⟨18, 59, 59, 1999999999, by decide⟩⟩
  offset := ⟨-18000, by decide⟩
  zone := .place central

theorem restored_as_stored_eveningLeap :
    Place.ofYearly (Text.ofString "CST6CDT,M3.2.0,M11.1.0") = .ok central
      ∧ eveningLeap.utc.Proper
      ∧ ReachableFrom (.ofUtc eveningLeap.utc eveningLeap.zone) eveningLeap.offset eveningLeap
      ∧ central.offsetAtUtc eveningLeap.utc = .ok eveningLeap.offset
      ∧ (∀ load, Value.restored load (.instant eveningLeap) = .ok (.instant eveningLeap))
      ∧ (∀ load, Value.restored load (.day ⟨.last, .place central⟩) =
        .ok (.day ⟨.last, .place central⟩))
      ∧ Reading.unpack eveningLeap.utc.pack = .ok eveningLeap.utc
      ∧ Duration.unpack Duration.min.pack = .ok .min
      ∧ Duration.min.pack ≠ Duration.max.pack := by
  have accepted : Place.ofYearly (Text.ofString "CST6CDT,M3.2.0,M11.1.0") = .ok central := by
    decide +kernel
  have proper : eveningLeap.utc.Proper := by decide
  have made : Instant.ofUtc eveningLeap.utc (.place central) = .ok eveningLeap :=
    (Instant.ofUtc_eq_ok rfl).mpr ⟨rfl, rfl, by decide, by decide⟩
  have ran : (Source.ofUtc eveningLeap.utc eveningLeap.zone).run = .ok [eveningLeap] :=
    congrArg (Except.map ([·])) made
  have reached : ReachableFrom (.ofUtc eveningLeap.utc eveningLeap.zone) eveningLeap.offset
      eveningLeap := .made ran (.head _) rfl
  have asked := (Instant.ofUtc_iff.mp made).2.2.2
  obtain ⟨-, -, readings, durations, instants, days⟩ := restored_as_stored
  refine ⟨accepted, proper, reached, asked, fun load => ?_, fun load => ?_, ?_, ?_, ?_⟩
  next =>
    have valid : (Source.ofUtc eveningLeap.utc eveningLeap.zone).Valid := proper
    refine (instants load _ _ eveningLeap valid reached (.yearly accepted) ?_).1
    rintro site ⟨⟩
    exact asked
  next => exact (days load ⟨.last, .place central⟩ (.yearly accepted)).1
  next => exact readings.unpacked _ proper.inBand
  next => exact durations.unpacked _ (by decide)
  next => exact durations.distinct _ _ (by decide) (by decide) (by decide)

end ZonedTime
