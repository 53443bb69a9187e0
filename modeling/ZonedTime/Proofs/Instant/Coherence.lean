import ZonedTime.Instant.Day
import ZonedTime.Instant.Micro
import ZonedTime.Proofs.Pattern.Resolved
import ZonedTime.Proofs.Reading.Refusal
import ZonedTime.Proofs.Reading.SecondLine

set_option autoImplicit false

namespace ZonedTime

open Error (IsParse IsRefusal)
open Instant (Coherent)

namespace Zone

def Raises (zone : Zone) (error : Error) : Prop :=
  (∃ utc, zone.offsetAtUtc utc = .error error) ∨ ∃ wall, zone.offsetsAtWall wall = .error error

def Excuses (zone : Zone) (error : Error) : Prop := error.IsRefusal ∨ zone.Raises error

theorem offsetAtUtc_refuses (zone : Zone) (utc : Reading) :
    Refuses zone.Excuses (zone.offsetAtUtc utc) := by
  cases asked : zone.offsetAtUtc utc with
  | ok offset => trivial
  | error error => exact .inr (.inl ⟨utc, asked⟩)

theorem offsetsAtWall_refuses (zone : Zone) (wall : Reading) :
    Refuses zone.Excuses (zone.offsetsAtWall wall) := by
  cases asked : zone.offsetsAtWall wall with
  | ok offsets => trivial
  | error error => exact .inr (.inr ⟨wall, asked⟩)

end Zone

namespace Instant

variable {zone : Zone}

theorem coherent_of_shift {utc wall : Reading} {offset : Offset}
    (shifted : utc.shift? offset.seconds = some wall) : Coherent ⟨utc, wall, offset, zone⟩ :=
  Reading.shift?_eq_some.mp shifted

theorem ofWall?_coherent {wall : Reading} {offset : Offset} {instant : Instant}
    (made : ofWall? wall offset zone = some instant) : instant.Coherent := by
  obtain ⟨utc, shifted, rfl⟩ := Option.map_eq_some_iff.mp made
  have place := Reading.shift?_eq_some.mp shifted
  refine ⟨?_, place.2.symm⟩
  simp only
  omega

theorem Coherent.shift_back {instant : Instant} (coherent : instant.Coherent) :
    instant.wall.shift? (-instant.offset.seconds) = some instant.utc := by
  obtain ⟨place, nano⟩ := coherent
  exact Reading.shift?_eq_some.mpr ⟨by omega, nano.symm⟩

theorem ofUtc_iff {utc : Reading} {instant : Instant} :
    ofUtc utc zone = .ok instant ↔ instant.utc = utc ∧ instant.zone = zone ∧ instant.Coherent
      ∧ zone.offsetAtUtc utc = .ok instant.offset := by
  constructor
  next =>
    intro made
    cases asked : zone.offsetAtUtc utc with
    | error error =>
      rw [ofUtc, asked] at made
      cases made
    | ok offset =>
      rw [ofUtc, asked, ok_bind] at made
      split at made
      next wall shifted =>
        cases made
        exact ⟨rfl, rfl, coherent_of_shift shifted, rfl⟩
      next => cases made
  next =>
    rintro ⟨rfl, rfl, coherent, asked⟩
    rw [ofUtc, asked, ok_bind, Reading.shift?_eq_some.mpr coherent]
    rfl

theorem ofUtc_ends (utc : Reading) (zone : Zone) :
    Ends Coherent zone.Excuses (ofUtc utc zone) := by
  refine (zone.offsetAtUtc_refuses utc).bind fun offset _ => ?_
  cases shifted : utc.shift? offset.seconds with
  | some wall => exact coherent_of_shift shifted
  | none => exact .inl (.inl rfl)

theorem ofTimestamp_ends (seconds nanos : Int) (zone : Zone) :
    Ends Coherent zone.Excuses (ofTimestamp seconds nanos zone) := by
  unfold ofTimestamp
  split
  next => exact .inl (.inr (.inr rfl))
  next =>
    split
    next => exact .inl (.inr (.inr rfl))
    next =>
      split
      next utc _ => exact ofUtc_ends utc zone
      next => exact .inl (.inr (.inr rfl))

theorem unpack_pack_ends (instant : Instant) (zone : Zone) :
    Ends Coherent zone.Excuses (unpack instant.pack zone) :=
  ((Reading.unpack_pack_refuses instant.utc).widen fun _ => .inl).bind fun utc _ =>
    ofUtc_ends utc zone

theorem withUtc?_ends (instant : Instant) (utc : Reading) :
    Ends (fun moved => ∀ other ∈ moved, Coherent other) instant.zone.Excuses
      (instant.withUtc? utc) := by
  refine (instant.zone.offsetAtUtc_refuses utc).bind fun offset _ => ?_
  intro other made
  obtain ⟨wall, shifted, rfl⟩ := Option.map_eq_some_iff.mp made
  exact coherent_of_shift shifted

theorem addNanos?_ends (instant : Instant) (n : Int) :
    Ends (fun sum => ∀ other ∈ sum, Coherent other) instant.zone.Excuses
      (instant.addNanos? n) := by
  unfold addNanos?
  split
  next utc _ => exact instant.withUtc?_ends utc
  next =>
    intro other none
    cases none

theorem addNanos_ends (instant : Instant) (n : Int) :
    Ends Coherent instant.zone.Excuses (instant.addNanos n) := by
  refine (instant.addNanos?_ends n).bind fun sum coherent => ?_
  cases sum with
  | some other => exact coherent other rfl
  | none => exact .inl (.inl rfl)

theorem digitSpan_refuses (digits : Int) : Refuses IsRefusal (digitSpan digits) := by
  unfold digitSpan
  split
  next => exact .inr (.inr rfl)
  next => trivial

theorem truncate_ends {instant : Instant} (coherent : instant.Coherent) (digits : Int) :
    Ends Coherent instant.zone.Excuses (instant.truncate digits) := by
  refine ((digitSpan_refuses digits).widen fun _ => .inl).bind fun span _ => ?_
  -- With nothing to cut off the instant is given back as it is.
  simp only
  split
  next => exact coherent
  next => exact instant.addNanos_ends _

theorem round_ends {instant : Instant} (coherent : instant.Coherent) (digits : Int) :
    Ends Coherent instant.zone.Excuses (instant.round digits) := by
  refine ((digitSpan_refuses digits).widen fun _ => .inl).bind fun span _ => ?_
  simp only
  split
  next => exact coherent
  next =>
    split
    next => exact instant.addNanos_ends _
    next => exact instant.addNanos_ends _

end Instant

theorem Resolution.toList_filterMap {α β : Type} (f : α -> Option β) (resolution : Resolution α) :
    (resolution.filterMap f).toList = resolution.toList.filterMap f := by
  cases resolution with
  | skipped => rfl
  | single value => cases found : f value <;> simp [filterMap, toList, found]
  | ambiguous earlier later =>
    cases first : f earlier <;> cases second : f later <;>
      simp [filterMap, toList, first, second]

theorem Zone.instantsAt_made (zone : Zone) (wall : Reading) :
    Ends (fun resolution => ∀ instant ∈ resolution.toList,
      ∃ offset, Instant.ofWall? wall offset zone = some instant) zone.Excuses
      (zone.instantsAt wall) := by
  refine (zone.offsetsAtWall_refuses wall).bind fun offsets _ => ?_
  intro instant member
  rw [Resolution.toList_filterMap] at member
  obtain ⟨offset, -, made⟩ := List.mem_filterMap.mp member
  exact ⟨offset, made⟩

theorem Zone.instantsAt_ends (zone : Zone) (wall : Reading) :
    Ends (fun resolution => ∀ instant ∈ resolution.toList, Coherent instant) zone.Excuses
      (zone.instantsAt wall) := by
  refine (zone.instantsAt_made wall).imp fun resolution each instant member => ?_
  obtain ⟨offset, made⟩ := each instant member
  exact Instant.ofWall?_coherent made

namespace Reading

theorem inUtc_coherent (reading : Reading) : reading.inUtc.Coherent :=
  ⟨(Int.add_zero _).symm, rfl⟩

theorem atOffset_ends (reading : Reading) (offset : Offset) :
    Ends Coherent IsRefusal (reading.atOffset offset) := by
  unfold atOffset
  split
  next made => exact Instant.ofWall?_coherent made
  next => exact .inl rfl

theorem choose_ends {good : Instant -> Prop} (setting : Text) {resolution : Resolution Instant}
    (holds : ∀ instant ∈ resolution.toList, good instant) :
    Ends good IsRefusal (choose setting resolution) := by
  cases resolution with
  | skipped => exact .inr (.inr rfl)
  | single instant => exact holds instant (.head _)
  | ambiguous earlier later =>
    unfold choose
    split
    next same =>
      cases same
      repeat' split
      next => exact holds _ (.head _)
      next => exact holds _ (.tail _ (.head _))
      next => exact .inr (.inr rfl)
      next => exact .inr (.inr rfl)
    next other => exact absurd rfl (other earlier later)

theorem inZone_ends (reading : Reading) (zone : Zone) (setting : Text) :
    Ends Coherent zone.Excuses (reading.inZone zone setting) :=
  (zone.instantsAt_ends reading).bind fun _ coherent =>
    (choose_ends setting coherent).widen fun _ => .inl

end Reading

theorem MicroStamp.reading_refuses (stamp : MicroStamp) : Refuses IsRefusal stamp.reading := by
  unfold MicroStamp.reading
  by_cases wide : (!fitsField stamp.micro) = true
  next =>
    simp only [wide, if_true]
    exact .inl rfl
  next =>
    simp only [wide]
    refine Ends.bind (Reading.make_refuses _) fun reading _ => ?_
    split
    next => exact .inr (.inr rfl)
    next => trivial

theorem MicroStamp.toInstant_ends (stamp : MicroStamp) :
    Ends Coherent IsRefusal stamp.toInstant := by
  refine (MicroStamp.reading_refuses stamp).bind fun reading _ => ?_
  split
  next => exact .inr (.inr rfl)
  next offset _ =>
    split
    next => exact .inr (.inr rfl)
    next => exact (Offset.ofSeconds_refuses _).bind fun offset _ => reading.atOffset_ends offset

namespace Instant

def Sound (instant : Instant) : Prop := instant.Coherent ∧ instant.wall.Proper

theorem coherent_of_sound {result : Except Error Instant} (ends : Ends Sound IsParse result) :
    Ends Coherent IsRefusal result :=
  (ends.imp fun _ => And.left).widen fun _ => IsParse.isRefusal

theorem ofWall?_ends {wall : Reading} (proper : wall.Proper) (offset : Offset) (t : Text) :
    Ends Sound IsParse (match ofWall? wall offset (.fixed offset) with
      | some instant => .ok instant
      | none => .error (.issue .outOfRange (some t))) := by
  split
  next made => exact ⟨ofWall?_coherent made, ofWall?_proper proper made⟩
  next => exact rfl

end Instant

theorem Stamp.Sound.toInstant_ends {stamp : Stamp} (sound : stamp.Sound) (t : Text) :
    Ends Instant.Sound IsParse (stamp.toInstant t) := by
  rw [sound.toInstant_eq]
  exact Instant.ofWall?_ends sound.wall_proper _ t

namespace Instant

theorem parse_ends (t : Text) : Ends Sound IsParse (parse t) :=
  (Lenient.parse_ends t).bind fun _ sound => sound.toInstant_ends t

theorem parseRfc3339_ends (t : Text) : Ends Sound IsParse (parseRfc3339 t) :=
  (Rfc3339.parse_ends t).bind fun _ sound => sound.toInstant_ends t

theorem parseRfc2822_ends (t : Text) : Ends Sound IsParse (parseRfc2822 t) :=
  (Rfc2822.parse_ends t).bind fun _ sound => sound.toInstant_ends t

theorem parseBy_ends (t pattern : Text) : Ends Sound IsParse (parseBy t pattern) := by
  refine (Pattern.parse_ends t pattern).bind fun fields admitted => ?_
  split
  next => exact rfl
  next seconds stated =>
    refine (Fields.reading_ends admitted).bind fun wall proper => ?_
    refine (Fields.ofSeconds_admitted (admitted .offset _ stated)).bind fun offset _ => ?_
    exact ofWall?_ends proper offset t

end Instant

theorem Zone.parse_ends (zone : Zone) (t pattern : Text) :
    Ends Coherent zone.Excuses (zone.parse t pattern) := by
  refine ((Pattern.parse_ends t pattern).widen fun _ parse => .inl parse.isRefusal).bind
    fun fields admitted => ?_
  refine ((Fields.reading_ends admitted).widen fun _ parse => .inl parse.isRefusal).bind
    fun wall _ => ?_
  refine (zone.instantsAt_ends wall).bind fun candidates coherent => ?_
  split
  next =>
    split
    next found => exact coherent _ (List.mem_of_find?_eq_some found)
    next => exact .inl (.inr (.inl rfl))
  next => exact coherent _ (.head _)
  next => exact .inl (.inr (.inl rfl))
  next => exact .inl (.inr (.inl rfl))

namespace Day

theorem firstOf_mem {resolution : Resolution Instant} {instant : Instant}
    (first : firstOf resolution = some instant) : instant ∈ resolution.toList := by
  cases resolution with
  | skipped => cases first
  | single value =>
    cases first
    exact .head _
  | ambiguous earlier later =>
    cases first
    split
    next => exact .tail _ (.head _)
    next => exact .head _

theorem firstIn_ends {good : Instant -> Prop} {allowed : Error -> Prop} {zone : Zone}
    (readings : List Reading)
    (probed : ∀ probe ∈ readings, Ends (fun resolution => ∀ instant ∈ resolution.toList,
      good instant) allowed (zone.instantsAt probe)) :
    Ends (fun first => ∀ instant ∈ first, good instant) allowed (firstIn zone readings) := by
  induction readings with
  | nil =>
    intro instant none
    cases none
  | cons probe rest ih =>
    obtain ⟨here, later⟩ := List.forall_mem_cons.mp probed
    refine here.bind fun resolution holds => ?_
    split
    next found =>
      rintro instant ⟨⟩
      exact holds _ (firstOf_mem found)
    next => exact ih later

theorem start_ends (day : Day) :
    Ends Coherent (fun error => day.zone.Excuses error ∨ error = .noStart day.text)
      day.start := by
  have found := firstIn_ends (probes day.date) fun probe _ => day.zone.instantsAt_ends probe
  refine (found.widen fun _ => .inl).bind fun first coherent => ?_
  cases first with
  | some instant => exact coherent instant rfl
  | none => exact .inr rfl

end Day

end ZonedTime
