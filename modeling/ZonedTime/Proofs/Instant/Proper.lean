import ZonedTime.Proofs.Instant.Reachable
import ZonedTime.Proofs.Pattern.Stated
import ZonedTime.Proofs.Reading.LeapSecond
import ZonedTime.Proofs.Value.Packed

set_option autoImplicit false

namespace ZonedTime

namespace Reading

/-- The nanoseconds are in range, though perhaps those of a leap second at a wrong second. -/
def InBand (reading : Reading) : Prop :=
  0 ≤ reading.time.nano ∧ reading.time.nano < 2000000000

theorem Proper.inBand {reading : Reading} (proper : reading.Proper) : reading.InBand :=
  ⟨proper.1, proper.2.1⟩

theorem second_eq (reading : Reading) : reading.time.second = reading.epochSecond % 60 := by
  obtain ⟨-, -, -, -, first, last⟩ := reading.time.inDay
  rw [epochSecond_eq, Time.secondOfDay]
  omega

theorem proper_iff (reading : Reading) :
    reading.Proper ↔ reading.InBand
      ∧ (1000000000 ≤ reading.time.nano → reading.epochSecond % 60 = 59) := by
  rw [Proper, Time.Proper, IsProperNano, InBand, second_eq, and_assoc]

theorem addNanos?_inBand {reading sum : Reading} {n : Int}
    (added : reading.addNanos? n = some sum) : sum.InBand := by
  rcases addNanos?_within added with onLine | ⟨-, -, inBand⟩
  next => exact onLine.1.inBand
  next => exact inBand

theorem addNanos?_leap {reading sum : Reading} {n : Int}
    (added : reading.addNanos? n = some sum) (leap : sum.time.isLeapSecond) :
    reading.time.isLeapSecond ∧ sum.epochSecond = reading.epochSecond := by
  rcases addNanos?_within added with ⟨-, noLeap⟩ | ⟨already, same, -⟩
  next => simp [leap] at noLeap
  next => exact ⟨(Time.isLeapSecond_iff _).mpr already, same⟩

end Reading

def Offset.Whole (offset : Offset) : Prop := offset.seconds % 60 = 0

instance (offset : Offset) : Decidable offset.Whole := by
  unfold Offset.Whole
  infer_instance

namespace Instant

variable {instant : Instant}

theorem Coherent.wall_inBand (coherent : instant.Coherent) :
    instant.wall.InBand ↔ instant.utc.InBand := by
  rw [Reading.InBand, Reading.InBand, coherent.2]

theorem Coherent.wall_proper_iff (coherent : instant.Coherent) (proper : instant.utc.Proper) :
    instant.wall.Proper ↔ (instant.utc.time.isLeapSecond → instant.offset.Whole) := by
  obtain ⟨place, nano⟩ := coherent
  obtain ⟨inBand, second⟩ := instant.utc.proper_iff.mp proper
  rw [Reading.proper_iff, Reading.InBand, nano, place, Time.isLeapSecond_iff, Offset.Whole]
  unfold Reading.InBand at inBand
  omega

theorem ofUtc_utc (utc : Reading) (zone : Zone) :
    Gives (fun made => made.utc = utc) (ofUtc utc zone) := by
  refine (gives_any _).bind fun offset _ => ?_
  split
  next => exact rfl
  next => trivial

theorem ofTimestamp_proper (seconds nanos : Int) (zone : Zone) :
    Gives (fun made => made.utc.Proper) (ofTimestamp seconds nanos zone) := by
  unfold ofTimestamp
  split
  next => trivial
  next inRange =>
    split
    next => trivial
    next second =>
      split
      next utc found =>
        obtain ⟨place, nano⟩ := Reading.ofEpoch?_eq_some.mp found
        have proper : utc.Proper := by
          rw [Reading.proper_iff, Reading.InBand, place, nano]
          omega
        refine (ofUtc_utc utc zone).imp fun made same => ?_
        rw [same]
        exact proper
      next => trivial

def Moved (before after : Instant) : Prop :=
  after.utc = before.utc ∨ ∃ n, before.utc.addNanos? n = some after.utc

theorem Moved.leap {before after : Instant} (moved : Moved before after)
    (leap : after.utc.time.isLeapSecond) :
    before.utc.time.isLeapSecond ∧ after.utc.epochSecond = before.utc.epochSecond := by
  rcases moved with same | ⟨n, added⟩
  next =>
    rw [same] at leap ⊢
    exact ⟨leap, rfl⟩
  next => exact Reading.addNanos?_leap added leap

theorem Moved.inBand {before after : Instant} (moved : Moved before after)
    (inBand : before.utc.InBand) : after.utc.InBand := by
  rcases moved with same | ⟨n, added⟩
  next => rwa [same]
  next => exact Reading.addNanos?_inBand added

theorem addNanos?_lands (instant : Instant) (n : Int) :
    Gives (fun sum => ∀ other ∈ sum, instant.utc.addNanos? n = some other.utc)
      (instant.addNanos? n) := by
  unfold addNanos?
  split
  next utc added =>
    refine (gives_any _).bind fun offset _ => ?_
    intro other made
    obtain ⟨wall, -, rfl⟩ := Option.map_eq_some_iff.mp made
    exact added
  next =>
    rintro other ⟨⟩

theorem addNanos_lands (instant : Instant) (n : Int) :
    Gives (fun sum => instant.utc.addNanos? n = some sum.utc) (instant.addNanos n) := by
  refine (instant.addNanos?_lands n).bind fun sum lands => ?_
  cases sum with
  | some other => exact lands other rfl
  | none => trivial

theorem addNanos?_moves (instant : Instant) (n : Int) :
    Gives (fun sum => ∀ other ∈ sum, Moved instant other) (instant.addNanos? n) :=
  (instant.addNanos?_lands n).imp fun _ lands other made => .inr ⟨n, lands other made⟩

theorem addNanos_moves (instant : Instant) (n : Int) :
    Gives (Moved instant) (instant.addNanos n) :=
  (instant.addNanos_lands n).imp fun _ added => .inr ⟨n, added⟩

theorem truncate_moves (instant : Instant) (digits : Int) :
    Gives (Moved instant) (instant.truncate digits) := by
  refine (gives_any _).bind fun span _ => ?_
  simp only
  split
  next => exact .inl rfl
  next => exact instant.addNanos_moves _

theorem round_moves (instant : Instant) (digits : Int) :
    Gives (Moved instant) (instant.round digits) := by
  refine (gives_any _).bind fun span _ => ?_
  simp only
  split
  next => exact .inl rfl
  next =>
    split
    next => exact instant.addNanos_moves _
    next => exact instant.addNanos_moves _

theorem repack_moves (inBand : instant.utc.InBand) (zone : Zone) :
    Gives (Moved instant) (unpack instant.pack zone) := by
  obtain ⟨first, last⟩ := inBand
  have unpacked := Reading.unpack_pack first (by omega)
  rw [unpack, pack, unpacked]
  exact (ofUtc_utc instant.utc zone).imp fun other => .inl

theorem Step.run_moves (inBand : instant.utc.InBand) (step : Step) :
    Gives (fun instants => ∀ other ∈ instants, Moved instant other) (step.run instant) := by
  cases step with
  | inZone zone => exact all_of_one ((ofUtc_utc instant.utc zone).imp fun other => .inl)
  | add? duration => exact all_of_maybe (instant.addNanos?_moves duration.nanos)
  | sub? duration => exact all_of_maybe (instant.addNanos?_moves (-duration.nanos))
  | add duration => exact all_of_one (instant.addNanos_moves duration.nanos)
  | sub duration => exact all_of_one (instant.addNanos_moves (-duration.nanos))
  | truncate digits => exact all_of_one (instant.truncate_moves digits)
  | round digits => exact all_of_one (instant.round_moves digits)
  | repack zone => exact all_of_one (repack_moves inBand zone)

end Instant

theorem Zone.instantsAt_proper (zone : Zone) {wall : Reading} (proper : wall.Proper) :
    Gives (fun resolution => ∀ instant ∈ resolution.toList, instant.wall.Proper)
      (zone.instantsAt wall) := by
  refine (zone.instantsAt_made wall).gives.imp fun resolution each instant member => ?_
  obtain ⟨offset, made⟩ := each instant member
  exact Instant.ofWall?_proper proper made

namespace Reading

theorem atOffset_proper {wall : Reading} (proper : wall.Proper) (offset : Offset) :
    Gives (fun instant => instant.wall.Proper) (wall.atOffset offset) := by
  unfold atOffset
  split
  next made => exact Instant.ofWall?_proper proper made
  next => trivial

theorem inZone_proper {wall : Reading} (proper : wall.Proper) (zone : Zone) (setting : Text) :
    Gives (fun instant => instant.wall.Proper) (wall.inZone zone setting) :=
  (zone.instantsAt_proper proper).bind fun _ holds =>
    (choose_ends setting holds).widen fun _ _ => trivial

end Reading

theorem MicroStamp.toInstant_proper (stamp : MicroStamp) :
    Gives (fun instant => instant.wall.Proper) stamp.toInstant := by
  have read : Gives Reading.Proper stamp.reading := by
    unfold MicroStamp.reading
    by_cases wide : (!fitsField stamp.micro) = true
    next =>
      simp only [wide, if_true]
      trivial
    next =>
      simp only [wide]
      refine (gives_any _).bind fun whole _ => ?_
      split
      next => trivial
      next =>
        have fraction : IsFraction (stamp.micro * 1000) := by
          constructor <;> omega
        exact fraction.proper whole.time.second
  refine read.bind fun wall proper => ?_
  split
  next => trivial
  next offset _ =>
    split
    next => trivial
    next => exact (gives_any _).bind fun offset _ => wall.atOffset_proper proper offset

theorem Day.start_proper (day : Day) : Gives (fun instant => instant.wall.Proper) day.start := by
  have probed (probe : Reading) (member : probe ∈ probes day.date) :
      Gives (fun resolution => ∀ instant ∈ resolution.toList, instant.wall.Proper)
        (day.zone.instantsAt probe) := by
    obtain ⟨k, -, rfl⟩ := List.mem_map.mp member
    exact day.zone.instantsAt_proper (isFraction_zero.proper _)
  refine (firstIn_ends (probes day.date) probed).bind fun first holds => ?_
  cases first with
  | some instant => exact holds instant rfl
  | none => trivial

theorem Zone.parse_proper (zone : Zone) (t pattern : Text) :
    Gives (fun instant => instant.wall.Proper) (zone.parse t pattern) := by
  refine (Pattern.parse_ends t pattern).gives.bind fun fields admitted => ?_
  refine (Fields.reading_ends admitted).gives.bind fun wall proper => ?_
  refine (zone.instantsAt_proper proper).bind fun candidates holds => ?_
  split
  next =>
    split
    next found => exact holds _ (List.mem_of_find?_eq_some found)
    next => trivial
  next => exact holds _ (.head _)
  next => trivial
  next => trivial

namespace Instant

namespace Source

def Valid : Source -> Prop
  | ofUtc utc _ => utc.Proper
  | inUtc wall | atOffset wall _ | atWall wall _ _ | allAtWall wall _ => wall.Proper
  | _ => True

/-- The source gives the reading in UTC and leaves it to the offset to find the wall. -/
def ByUtc : Source -> Prop
  | ofUtc _ _ | ofTimestamp _ _ _ | ofMillis _ _ | ofNanos _ _ | inUtc _ => True
  | _ => False

theorem run_proper {source : Source} (valid : source.Valid) :
    Gives (fun instants => ∀ instant ∈ instants,
      (source.ByUtc → instant.utc.Proper) ∧ (¬ source.ByUtc → instant.wall.Proper))
      source.run := by
  have utc {result : Except Error Instant} (byUtc : source.ByUtc)
      (gives : Gives (fun instant => instant.utc.Proper) result) :
      Gives (fun instants => ∀ instant ∈ instants,
        (source.ByUtc → instant.utc.Proper) ∧ (¬ source.ByUtc → instant.wall.Proper))
        (result.map ([·])) :=
    all_of_one (gives.imp fun instant proper => ⟨fun _ => proper, (absurd byUtc ·)⟩)
  have wall {result : Except Error Instant} (byWall : ¬ source.ByUtc)
      (gives : Gives (fun instant => instant.wall.Proper) result) :
      Gives (fun instants => ∀ instant ∈ instants,
        (source.ByUtc → instant.utc.Proper) ∧ (¬ source.ByUtc → instant.wall.Proper))
        (result.map ([·])) :=
    all_of_one (gives.imp fun instant proper => ⟨(absurd · byWall), fun _ => proper⟩)
  cases source with
  | ofUtc reading zone =>
    refine utc trivial ((ofUtc_utc reading zone).imp fun instant same => ?_)
    rw [same]
    exact valid
  | ofTimestamp seconds nanos zone => exact utc trivial (ofTimestamp_proper seconds nanos zone)
  | ofMillis n zone => exact utc trivial (ofTimestamp_proper _ _ zone)
  | ofNanos n zone => exact utc trivial (ofTimestamp_proper _ _ zone)
  | ofMicro stamp => exact wall id stamp.toInstant_proper
  | inUtc reading => exact List.forall_mem_singleton.mpr ⟨fun _ => valid, fun _ => valid⟩
  | atOffset reading offset => exact wall id (reading.atOffset_proper valid offset)
  | atWall reading zone setting => exact wall id (reading.inZone_proper valid zone setting)
  | allAtWall reading zone =>
    refine Ends.map ((zone.instantsAt_proper valid).imp fun _ holds instant member => ?_)
    exact ⟨False.elim, fun _ => holds instant member⟩
  | parse t => exact wall id ((parse_ends t).gives.imp fun _ sound => sound.2)
  | parseRfc3339 t => exact wall id ((parseRfc3339_ends t).gives.imp fun _ sound => sound.2)
  | parseRfc2822 t => exact wall id ((parseRfc2822_ends t).gives.imp fun _ sound => sound.2)
  | parseBy t pattern => exact wall id ((parseBy_ends t pattern).gives.imp fun _ sound => sound.2)
  | parseIn zone t pattern => exact wall id (zone.parse_proper t pattern)
  | dayStart day => exact wall id day.start_proper

/-- No offset with seconds comes between what is given and UTC. -/
def InMinutes (source : Source) (offset : Offset) : Prop := source.ByUtc ∨ offset.Whole

end Source

inductive ReachableFrom (source : Source) (start : Offset) : Instant -> Prop where
  | made {instants : List Instant} {instant : Instant} (ran : source.run = .ok instants)
      (member : instant ∈ instants) (place : instant.offset = start) :
      ReachableFrom source start instant
  | moved {before : Instant} {step : Step} {instants : List Instant} {instant : Instant}
      (reached : ReachableFrom source start before) (ran : step.run before = .ok instants)
      (member : instant ∈ instants) : ReachableFrom source start instant

namespace ReachableFrom

variable {source : Source} {start : Offset} {instant : Instant}

theorem reachable (reached : ReachableFrom source start instant) : Reachable instant := by
  induction reached with
  | made ran member _ => exact .made ran member
  | moved _ ran member ih => exact .moved ih ran member

theorem coherent (reached : ReachableFrom source start instant) : instant.Coherent :=
  reached.reachable.coherent

theorem utc_inBand (valid : source.Valid) (reached : ReachableFrom source start instant) :
    instant.utc.InBand := by
  induction reached with
  | @made _ instant ran member _ =>
    have coherent : instant.Coherent := (Source.run_ends _).good_of_ok ran _ member
    obtain ⟨utc, wall⟩ := (Source.run_proper valid).good_of_ok ran _ member
    by_cases byUtc : source.ByUtc
    next => exact (utc byUtc).inBand
    next => exact coherent.wall_inBand.mp (wall byUtc).inBand
  | moved _ ran member ih => exact ((Step.run_moves ih _).good_of_ok ran _ member).inBand ih

/-- A leap second in UTC is still where the first instant had it. -/
theorem leap_second_iff (valid : source.Valid) (reached : ReachableFrom source start instant)
    (leap : instant.utc.time.isLeapSecond) :
    instant.utc.epochSecond % 60 = 59 ↔ source.InMinutes start := by
  induction reached with
  | @made _ instant ran member place =>
    obtain ⟨shown, nano⟩ : instant.Coherent := (Source.run_ends _).good_of_ok ran _ member
    obtain ⟨utc, wall⟩ := (Source.run_proper valid).good_of_ok ran _ member
    rw [Time.isLeapSecond_iff] at leap
    by_cases byUtc : source.ByUtc
    next =>
      have second := (instant.utc.proper_iff.mp (utc byUtc)).2 leap
      exact iff_of_true second (.inl byUtc)
    next =>
      -- It is the wall that shows second 59.
      have second := (instant.wall.proper_iff.mp (wall byUtc)).2 (nano ▸ leap)
      rw [Source.InMinutes, or_iff_right byUtc, Offset.Whole, ← place]
      omega
  | moved reached ran member ih =>
    have moved := (Step.run_moves (reached.utc_inBand valid) _).good_of_ok ran _ member
    obtain ⟨before, same⟩ := moved.leap leap
    rw [same]
    exact ih before

end ReachableFrom

/-- The nanoseconds stay in range in any case. Both clocks are proper but in leap seconds for
which an offset with seconds has come between the reading given, UTC and the wall. -/
theorem reachable_proper_iff {source : Source} (valid : source.Valid) {start : Offset}
    {instant : Instant} (reached : ReachableFrom source start instant) :
    (instant.utc.InBand ∧ instant.wall.InBand)
      ∧ (instant.utc.Proper ∧ instant.wall.Proper ↔
        (instant.utc.time.isLeapSecond → source.InMinutes start ∧ instant.offset.Whole)) := by
  have coherent := reached.coherent
  have inBand := reached.utc_inBand valid
  have second := reached.leap_second_iff valid
  refine ⟨⟨inBand, coherent.wall_inBand.mpr inBand⟩, ?_⟩
  constructor
  next =>
    rintro ⟨utc, wall⟩ leap
    have atEnd := (instant.utc.proper_iff.mp utc).2 ((Time.isLeapSecond_iff _).mp leap)
    exact ⟨(second leap).mp atEnd, (coherent.wall_proper_iff utc).mp wall leap⟩
  next =>
    intro minutes
    have utc : instant.utc.Proper := by
      refine instant.utc.proper_iff.mpr ⟨inBand, fun late => ?_⟩
      have leap := (Time.isLeapSecond_iff _).mpr late
      exact (second leap).mpr (minutes leap).1
    exact ⟨utc, (coherent.wall_proper_iff utc).mpr fun leap => (minutes leap).2⟩

def halfMinuteAhead : Instant where
  utc := ⟨⟨2016, 12, 31, Date.isDate_endOf2016⟩, ⟨23, 59, 59, 1500000000, Time.isClock_lastSecond⟩⟩
  wall := ⟨⟨2017, 1, 1, Date.isDate_startOf2017⟩, ⟨0, 0, 29, 1500000000, Time.isClock_halfMinute⟩⟩
  offset := ⟨30, by decide⟩
  zone := .fixed ⟨30, by decide⟩

theorem reachableFrom_halfMinuteAhead :
    (Source.inUtc halfMinuteAhead.utc).Valid
      ∧ ReachableFrom (.inUtc halfMinuteAhead.utc) .zero halfMinuteAhead := by
  have valid : halfMinuteAhead.utc.Proper := by decide
  have made : (Source.inUtc halfMinuteAhead.utc).run = .ok [halfMinuteAhead.utc.inUtc] := rfl
  have moved : (Step.inZone halfMinuteAhead.zone).run halfMinuteAhead.utc.inUtc =
      .ok [halfMinuteAhead] := rfl
  exact ⟨valid, .moved (.made made (.head _) rfl) moved (.head _)⟩

theorem reachable_halfMinuteAhead :
    (Source.inUtc halfMinuteAhead.utc).Valid
      ∧ ReachableFrom (.inUtc halfMinuteAhead.utc) .zero halfMinuteAhead
      ∧ halfMinuteAhead.wall.InBand
      ∧ ¬ (halfMinuteAhead.utc.Proper ∧ halfMinuteAhead.wall.Proper) := by
  obtain ⟨valid, reached⟩ := reachableFrom_halfMinuteAhead
  obtain ⟨⟨-, inBand⟩, iff⟩ := reachable_proper_iff valid reached
  refine ⟨valid, reached, inBand, fun proper => ?_⟩
  have whole := (iff.mp proper rfl).2
  exact absurd whole (by decide)

theorem reachable_improper :
    ¬ ∀ (source : Source) (start : Offset) (instant : Instant), source.Valid →
      ReachableFrom source start instant → instant.utc.Proper ∧ instant.wall.Proper := by
  intro always
  obtain ⟨valid, reached⟩ := reachableFrom_halfMinuteAhead
  have proper := (always _ _ halfMinuteAhead valid reached).2
  exact absurd proper (by decide)

end Instant

end ZonedTime
