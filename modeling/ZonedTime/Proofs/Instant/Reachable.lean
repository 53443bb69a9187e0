import ZonedTime.Proofs.Instant.Coherence

set_option autoImplicit false

namespace ZonedTime.Instant

open Error (IsRefusal)

theorem all_of_one {good : Instant -> Prop} {allowed : Error -> Prop}
    {result : Except Error Instant} (ends : Ends good allowed result) :
    Ends (fun instants => ∀ instant ∈ instants, good instant) allowed (result.map ([·])) := by
  refine Ends.map ?_
  simpa only [List.forall_mem_singleton] using ends

theorem all_of_maybe {good : Instant -> Prop} {allowed : Error -> Prop}
    {result : Except Error (Option Instant)}
    (ends : Ends (fun made => ∀ instant ∈ made, good instant) allowed result) :
    Ends (fun instants => ∀ instant ∈ instants, good instant) allowed
      (result.map Option.toList) := by
  refine Ends.map ?_
  simpa only [Option.mem_toList, Option.mem_def] using ends

inductive Source where
  | ofUtc (utc : Reading) (zone : Zone)
  | ofTimestamp (seconds nanos : Int) (zone : Zone)
  | ofMillis (n : Int) (zone : Zone)
  | ofNanos (n : Int) (zone : Zone)
  | ofMicro (stamp : MicroStamp)
  | inUtc (wall : Reading)
  | atOffset (wall : Reading) (offset : Offset)
  | atWall (wall : Reading) (zone : Zone) (setting : Text)
  | allAtWall (wall : Reading) (zone : Zone)
  | parse (t : Text)
  | parseRfc3339 (t : Text)
  | parseRfc2822 (t : Text)
  | parseBy (t pattern : Text)
  | parseIn (zone : Zone) (t pattern : Text)
  | dayStart (day : Day)

namespace Source

def run : Source -> Except Error (List Instant)
  | ofUtc utc zone => (Instant.ofUtc utc zone).map ([·])
  | ofTimestamp seconds nanos zone => (Instant.ofTimestamp seconds nanos zone).map ([·])
  | ofMillis n zone => (Instant.ofMillis n zone).map ([·])
  | ofNanos n zone => (Instant.ofNanos n zone).map ([·])
  | ofMicro stamp => stamp.toInstant.map ([·])
  | inUtc wall => .ok [wall.inUtc]
  | atOffset wall offset => (wall.atOffset offset).map ([·])
  | atWall wall zone setting => (wall.inZone zone setting).map ([·])
  | allAtWall wall zone => (zone.instantsAt wall).map Resolution.toList
  | parse t => (Instant.parse t).map ([·])
  | parseRfc3339 t => (Instant.parseRfc3339 t).map ([·])
  | parseRfc2822 t => (Instant.parseRfc2822 t).map ([·])
  | parseBy t pattern => (Instant.parseBy t pattern).map ([·])
  | parseIn zone t pattern => (zone.parse t pattern).map ([·])
  | dayStart day => day.start.map ([·])

def zone? : Source -> Option Zone
  | ofUtc _ zone | ofTimestamp _ _ zone | ofMillis _ zone | ofNanos _ zone => some zone
  | atWall _ zone _ | allAtWall _ zone | parseIn zone _ _ => some zone
  | dayStart day => some day.zone
  | _ => none

def Allows (source : Source) (error : Error) : Prop :=
  error.IsRefusal ∨ (∃ zone ∈ source.zone?, zone.Raises error)
    ∨ ∃ day, source = dayStart day ∧ error = .noStart day.text

theorem allows_of_excuses {source : Source} {zone : Zone} (asked : source.zone? = some zone)
    (error : Error) : zone.Excuses error -> source.Allows error
  | .inl refusal => .inl refusal
  | .inr raised => .inr (.inl ⟨zone, asked, raised⟩)

theorem run_ends (source : Source) :
    Ends (fun instants => ∀ instant ∈ instants, Coherent instant) source.Allows source.run := by
  cases source with
  | ofUtc utc zone => exact all_of_one ((ofUtc_ends utc zone).widen (allows_of_excuses rfl))
  | ofTimestamp seconds nanos zone =>
    exact all_of_one ((ofTimestamp_ends seconds nanos zone).widen (allows_of_excuses rfl))
  | ofMillis n zone =>
    exact all_of_one ((ofTimestamp_ends _ _ zone).widen (allows_of_excuses rfl))
  | ofNanos n zone =>
    exact all_of_one ((ofTimestamp_ends _ _ zone).widen (allows_of_excuses rfl))
  | ofMicro stamp => exact all_of_one (stamp.toInstant_ends.widen fun _ => .inl)
  | inUtc wall => exact List.forall_mem_singleton.mpr wall.inUtc_coherent
  | atOffset wall offset => exact all_of_one ((wall.atOffset_ends offset).widen fun _ => .inl)
  | atWall wall zone setting =>
    exact all_of_one ((wall.inZone_ends zone setting).widen (allows_of_excuses rfl))
  | allAtWall wall zone =>
    exact ((zone.instantsAt_ends wall).widen (allows_of_excuses rfl)).map
  | parse t => exact all_of_one ((coherent_of_sound (parse_ends t)).widen fun _ => .inl)
  | parseRfc3339 t =>
    exact all_of_one ((coherent_of_sound (parseRfc3339_ends t)).widen fun _ => .inl)
  | parseRfc2822 t =>
    exact all_of_one ((coherent_of_sound (parseRfc2822_ends t)).widen fun _ => .inl)
  | parseBy t pattern =>
    exact all_of_one ((coherent_of_sound (parseBy_ends t pattern)).widen fun _ => .inl)
  | parseIn zone t pattern =>
    exact all_of_one ((zone.parse_ends t pattern).widen (allows_of_excuses rfl))
  | dayStart day =>
    refine all_of_one (day.start_ends.widen fun error allowed => ?_)
    rcases allowed with excused | missing
    next => exact allows_of_excuses rfl error excused
    next => exact .inr (.inr ⟨day, rfl, missing⟩)

end Source

inductive Step where
  | inZone (zone : Zone)
  | add? (duration : Duration)
  | sub? (duration : Duration)
  | add (duration : Duration)
  | sub (duration : Duration)
  | truncate (digits : Int)
  | round (digits : Int)
  | repack (zone : Zone)

namespace Step

def run (instant : Instant) : Step -> Except Error (List Instant)
  | inZone zone => (instant.inZone zone).map ([·])
  | add? duration => (instant.add? duration).map Option.toList
  | sub? duration => (instant.sub? duration).map Option.toList
  | add duration => (instant.add duration).map ([·])
  | sub duration => (instant.sub duration).map ([·])
  | truncate digits => (instant.truncate digits).map ([·])
  | round digits => (instant.round digits).map ([·])
  | repack zone => (unpack instant.pack zone).map ([·])

def zone (instant : Instant) : Step -> Zone
  | inZone zone | repack zone => zone
  | _ => instant.zone

theorem run_ends {instant : Instant} (coherent : instant.Coherent) (step : Step) :
    Ends (fun instants => ∀ other ∈ instants, Coherent other) (step.zone instant).Excuses
      (step.run instant) := by
  cases step with
  | inZone zone => exact all_of_one (ofUtc_ends instant.utc zone)
  | add? duration => exact all_of_maybe (instant.addNanos?_ends duration.nanos)
  | sub? duration => exact all_of_maybe (instant.addNanos?_ends (-duration.nanos))
  | add duration => exact all_of_one (instant.addNanos_ends duration.nanos)
  | sub duration => exact all_of_one (instant.addNanos_ends (-duration.nanos))
  | truncate digits => exact all_of_one (truncate_ends coherent digits)
  | round digits => exact all_of_one (round_ends coherent digits)
  | repack zone => exact all_of_one (instant.unpack_pack_ends zone)

end Step

/-- An instant that some finite number of operations leads to. -/
inductive Reachable : Instant -> Prop where
  | made {source : Source} {instants : List Instant} {instant : Instant}
      (ran : source.run = .ok instants) (member : instant ∈ instants) : Reachable instant
  | moved {before : Instant} {step : Step} {instants : List Instant} {instant : Instant}
      (reachable : Reachable before) (ran : step.run before = .ok instants)
      (member : instant ∈ instants) : Reachable instant

theorem Reachable.coherent {instant : Instant} (reachable : Reachable instant) :
    instant.Coherent := by
  induction reachable with
  | made ran member => exact (Source.run_ends _).good_of_ok ran _ member
  | moved _ ran member ih => exact (Step.run_ends ih _).good_of_ok ran _ member

/-- Whatever is done, an instant shows its moment by its offset of less than a day, in the years 1
to 9999 on either clock. Operations that end in an error are refused or meet an error of the zone;
a day may also have no start. -/
theorem reachable_coherent :
    (∀ instant : Instant, Reachable instant →
      instant.Coherent
      ∧ (-86400 < instant.offset.seconds ∧ instant.offset.seconds < 86400)
      ∧ (1 ≤ instant.utc.date.year ∧ instant.utc.date.year ≤ 9999)
      ∧ (1 ≤ instant.wall.date.year ∧ instant.wall.date.year ≤ 9999))
    ∧ (∀ (source : Source) (error : Error), source.run = .error error →
      error.IsRefusal ∨ (∃ zone ∈ source.zone?, zone.Raises error)
        ∨ ∃ day, source = .dayStart day ∧ error = .noStart day.text)
    ∧ ∀ (instant : Instant) (step : Step) (error : Error), Reachable instant →
      step.run instant = .error error →
      error.IsRefusal ∨ (step.zone instant).Raises error := by
  refine ⟨fun instant reachable => ?_, fun source error failed => ?_,
    fun instant step error reachable failed => ?_⟩
  next =>
    obtain ⟨firstUtc, lastUtc, -⟩ := instant.utc.date.real
    obtain ⟨firstWall, lastWall, -⟩ := instant.wall.date.real
    exact ⟨reachable.coherent, instant.offset.withinDay, ⟨firstUtc, lastUtc⟩,
      ⟨firstWall, lastWall⟩⟩
  next => exact source.run_ends.allowed_of_error failed
  next => exact (step.run_ends reachable.coherent).allowed_of_error failed

def noon : Instant where
  utc := ⟨⟨2024, 2, 29, by decide⟩, ⟨11, 0, 0, 0, by decide⟩⟩
  wall := ⟨⟨2024, 2, 29, by decide⟩, ⟨12, 0, 0, 0, by decide⟩⟩
  offset := ⟨3600, by decide⟩
  zone := .fixed ⟨3600, by decide⟩

theorem reachable_noon :
    Reachable noon ∧ noon.Coherent
      ∧ (Source.ofTimestamp 253402300800 0 .utc).run = .error .timestamp
      ∧ (Error.timestamp.IsRefusal ∨ Zone.utc.Raises .timestamp)
      ∧ (Step.truncate (-1)).run noon = .error (.digits (-1))
      ∧ ((Error.digits (-1)).IsRefusal ∨ noon.zone.Raises (.digits (-1))) := by
  have made : (Source.atOffset noon.wall noon.offset).run = .ok [noon] := rfl
  have reachable : Reachable noon := .made made (.head _)
  obtain ⟨coherent, sources, steps⟩ := reachable_coherent
  have late : (Source.ofTimestamp 253402300800 0 .utc).run = .error .timestamp := rfl
  have negative : (Step.truncate (-1)).run noon = .error (.digits (-1)) := rfl
  refine ⟨reachable, (coherent noon reachable).1, late, ?_, negative,
    steps noon _ _ reachable negative⟩
  rcases sources _ _ late with refusal | ⟨zone, asked, raised⟩ | ⟨day, none, -⟩
  next => exact .inl refusal
  next =>
    cases asked
    exact .inr raised
  next => cases none

def firstInEast : Day := ⟨.first, .fixed ⟨86399, by decide⟩⟩

theorem firstInEast_noStart :
    (Source.dayStart firstInEast).run = .error (.noStart firstInEast.text)
      ∧ (∀ error, ¬ firstInEast.zone.Raises error)
      ∧ ¬ (Error.noStart firstInEast.text).IsRefusal := by
  refine ⟨?_, ?_, ?_⟩
  next => rfl
  next =>
    rintro error (⟨utc, raised⟩ | ⟨wall, raised⟩)
    next => cases raised
    next => cases raised
  next =>
    rintro (overflow | parse | value)
    next => cases overflow
    next => cases parse
    next => cases value

end ZonedTime.Instant
