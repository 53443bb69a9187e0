import ZonedTime.Proofs.Instant.Reachable

set_option autoImplicit false

namespace ZonedTime

def Zone.constant? : Zone -> Option Offset
  | utc => some .zero
  | fixed offset => some offset
  | _ => none

def Instant.Settled (instant : Instant) : Prop :=
  ∀ offset ∈ instant.zone.constant?, instant.offset = offset

namespace Zone

variable {zone : Zone}

theorem offsetAtUtc_constant {constant : Offset} (known : zone.constant? = some constant)
    (utc : Reading) : zone.offsetAtUtc utc = .ok constant := by
  cases zone with
  | utc => cases known; rfl
  | fixed offset => cases known; rfl
  | place site => cases known
  | custom provider => cases known

theorem offsetsAtWall_constant {constant : Offset} (known : zone.constant? = some constant)
    (wall : Reading) : zone.offsetsAtWall wall = .ok (.single constant) := by
  cases zone with
  | utc => cases known; rfl
  | fixed offset => cases known; rfl
  | place site => cases known
  | custom provider => cases known

theorem offsetAtUtc_gives (zone : Zone) (utc : Reading) :
    Gives (fun offset => ∀ constant ∈ zone.constant?, offset = constant)
      (zone.offsetAtUtc utc) := by
  cases asked : zone.offsetAtUtc utc with
  | error error => trivial
  | ok offset =>
    intro constant known
    simpa [offsetAtUtc_constant known, eq_comm] using asked

theorem instantsAt_settled (zone : Zone) (wall : Reading) :
    Gives (fun resolution => ∀ instant ∈ resolution.toList, instant.Settled)
      (zone.instantsAt wall) := by
  have shown : Gives (fun offsets : Resolution Offset => ∀ offset ∈ offsets.toList,
      ∀ constant ∈ zone.constant?, offset = constant) (zone.offsetsAtWall wall) := by
    cases asked : zone.offsetsAtWall wall with
    | error error => trivial
    | ok offsets =>
      intro offset member constant known
      simp only [offsetsAtWall_constant known, Except.ok.injEq] at asked
      subst asked
      simpa [Resolution.toList] using member
  refine shown.bind fun offsets holds => ?_
  intro instant member
  rw [Resolution.toList_filterMap] at member
  obtain ⟨offset, listed, made⟩ := List.mem_filterMap.mp member
  obtain ⟨utc, -, rfl⟩ := Option.map_eq_some_iff.mp made
  exact holds offset listed

end Zone

namespace Instant

theorem settled_fixed (utc wall : Reading) (offset : Offset) :
    Settled ⟨utc, wall, offset, .fixed offset⟩ := by
  intro constant known
  simpa [Zone.constant?, eq_comm] using known

theorem ofUtc_settled (utc : Reading) (zone : Zone) : Gives Settled (ofUtc utc zone) := by
  refine (zone.offsetAtUtc_gives utc).bind fun offset holds => ?_
  split
  next => exact holds
  next => trivial

theorem ofTimestamp_settled (seconds nanos : Int) (zone : Zone) :
    Gives Settled (ofTimestamp seconds nanos zone) := by
  unfold ofTimestamp
  repeat' split
  all_goals first
    | trivial
    | exact ofUtc_settled _ zone

theorem ofWall?_settled (wall : Reading) (offset : Offset) (error : Error) :
    Gives Settled (match ofWall? wall offset (.fixed offset) with
      | some instant => .ok instant
      | none => .error error) := by
  split
  next made =>
    obtain ⟨utc, -, rfl⟩ := Option.map_eq_some_iff.mp made
    exact settled_fixed utc wall offset
  next => trivial

end Instant

open Instant (Settled)

theorem Stamp.toInstant_settled (stamp : Stamp) (t : Text) : Gives Settled (stamp.toInstant t) := by
  refine (gives_any _).bind fun wall _ => ?_
  refine (gives_any _).bind fun offset _ => ?_
  exact Instant.ofWall?_settled wall offset _

namespace Reading

theorem inUtc_settled (reading : Reading) : reading.inUtc.Settled := by
  rintro offset ⟨⟩
  rfl

theorem atOffset_settled (wall : Reading) (offset : Offset) :
    Gives Settled (wall.atOffset offset) :=
  Instant.ofWall?_settled wall offset .utcReading

theorem inZone_settled (wall : Reading) (zone : Zone) (setting : Text) :
    Gives Settled (wall.inZone zone setting) :=
  (zone.instantsAt_settled wall).bind fun _ holds => (choose_ends setting holds).gives

end Reading

theorem MicroStamp.toInstant_settled (stamp : MicroStamp) : Gives Settled stamp.toInstant := by
  refine (gives_any _).bind fun wall _ => ?_
  split
  next => trivial
  next =>
    split
    next => trivial
    next => exact (gives_any _).bind fun offset _ => wall.atOffset_settled offset

theorem Zone.parse_settled (zone : Zone) (t pattern : Text) :
    Gives Settled (zone.parse t pattern) := by
  refine (gives_any _).bind fun fields _ => ?_
  refine (gives_any _).bind fun wall _ => ?_
  refine (zone.instantsAt_settled wall).bind fun candidates holds => ?_
  split
  next =>
    split
    next found => exact holds _ (List.mem_of_find?_eq_some found)
    next => trivial
  next => exact holds _ (.head _)
  next => trivial
  next => trivial

theorem Day.start_settled (day : Day) : Gives Settled day.start := by
  refine (firstIn_ends (probes day.date) fun probe _ => day.zone.instantsAt_settled probe).bind
    fun first holds => ?_
  cases first with
  | some instant => exact holds instant rfl
  | none => trivial

namespace Instant

theorem parseBy_settled (t pattern : Text) : Gives Settled (parseBy t pattern) := by
  refine (gives_any _).bind fun fields _ => ?_
  split
  next => trivial
  next =>
    refine (gives_any _).bind fun wall _ => ?_
    refine (gives_any _).bind fun offset _ => ?_
    exact ofWall?_settled wall offset _

theorem Source.run_settled (source : Source) :
    Gives (fun instants => ∀ instant ∈ instants, Settled instant) source.run := by
  cases source with
  | ofUtc utc zone => exact all_of_one (ofUtc_settled utc zone)
  | ofTimestamp seconds nanos zone => exact all_of_one (ofTimestamp_settled seconds nanos zone)
  | ofMillis n zone => exact all_of_one (ofTimestamp_settled _ _ zone)
  | ofNanos n zone => exact all_of_one (ofTimestamp_settled _ _ zone)
  | ofMicro stamp => exact all_of_one stamp.toInstant_settled
  | inUtc wall => exact List.forall_mem_singleton.mpr wall.inUtc_settled
  | atOffset wall offset => exact all_of_one (wall.atOffset_settled offset)
  | atWall wall zone setting => exact all_of_one (wall.inZone_settled zone setting)
  | allAtWall wall zone => exact (zone.instantsAt_settled wall).map
  | parse t => exact all_of_one ((gives_any _).bind fun stamp _ => stamp.toInstant_settled t)
  | parseRfc3339 t =>
    exact all_of_one ((gives_any _).bind fun stamp _ => stamp.toInstant_settled t)
  | parseRfc2822 t =>
    exact all_of_one ((gives_any _).bind fun stamp _ => stamp.toInstant_settled t)
  | parseBy t pattern => exact all_of_one (parseBy_settled t pattern)
  | parseIn zone t pattern => exact all_of_one (zone.parse_settled t pattern)
  | dayStart day => exact all_of_one day.start_settled

variable {instant : Instant}

theorem addNanos?_settled (instant : Instant) (n : Int) :
    Gives (fun sum => ∀ other ∈ sum, Settled other) (instant.addNanos? n) := by
  unfold addNanos?
  split
  next utc _ =>
    refine (instant.zone.offsetAtUtc_gives utc).bind fun offset holds => ?_
    intro other made
    obtain ⟨wall, -, rfl⟩ := Option.map_eq_some_iff.mp made
    exact holds
  next =>
    intro other none
    cases none

theorem addNanos_settled (instant : Instant) (n : Int) : Gives Settled (instant.addNanos n) := by
  refine (instant.addNanos?_settled n).bind fun sum holds => ?_
  cases sum with
  | some other => exact holds other rfl
  | none => trivial

theorem Step.run_settled (settled : instant.Settled) (step : Step) :
    Gives (fun instants => ∀ other ∈ instants, Settled other) (step.run instant) := by
  -- Each step asks the zone anew, but for adjustments that have nothing to move.
  have adjusted {span? : Except Error Int} {next : Int -> Except Error Instant}
      (each : ∀ span, Gives Settled (next span)) : Gives Settled (span? >>= next) :=
    (gives_any span?).bind fun span _ => each span
  cases step with
  | inZone zone => exact all_of_one (ofUtc_settled instant.utc zone)
  | add? duration => exact all_of_maybe (instant.addNanos?_settled duration.nanos)
  | sub? duration => exact all_of_maybe (instant.addNanos?_settled (-duration.nanos))
  | add duration => exact all_of_one (instant.addNanos_settled duration.nanos)
  | sub duration => exact all_of_one (instant.addNanos_settled (-duration.nanos))
  | truncate digits =>
    refine all_of_one (adjusted fun span => ?_)
    simp only
    split
    next => exact settled
    next => exact instant.addNanos_settled _
  | round digits =>
    refine all_of_one (adjusted fun span => ?_)
    simp only
    repeat' split
    next => exact settled
    next => exact instant.addNanos_settled _
    next => exact instant.addNanos_settled _
  | repack zone =>
    exact all_of_one ((gives_any _).bind fun utc _ => ofUtc_settled utc zone)

theorem Reachable.settled (reachable : Reachable instant) : instant.Settled := by
  induction reachable with
  | made ran member => exact (Source.run_settled _).good_of_ok ran _ member
  | moved _ ran member ih => exact (Step.run_settled ih _).good_of_ok ran _ member

end Instant

end ZonedTime
