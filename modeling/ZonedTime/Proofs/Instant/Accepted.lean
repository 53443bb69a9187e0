import ZonedTime.Proofs.Instant.Coherence

set_option autoImplicit false

namespace ZonedTime

open Error (IsParse)

def Date.InRange (date : Date) : Prop := IsDate date.year date.month date.day

def Time.InRange (time : Time) : Prop :=
  IsClock time.hour time.minute time.second ∧ IsProperNano time.second time.nano

def Reading.InRange (reading : Reading) : Prop := reading.date.InRange ∧ reading.time.InRange

structure Instant.InRange (instant : Instant) : Prop where
  wall : instant.wall.InRange
  offset : -86400 < instant.offset.seconds ∧ instant.offset.seconds < 86400
  utcDate : instant.utc.date.InRange
  utcClock : IsClock instant.utc.time.hour instant.utc.time.minute instant.utc.time.second
  coherent : instant.Coherent

theorem Reading.Proper.inRange {reading : Reading} (proper : reading.Proper) : reading.InRange :=
  ⟨reading.date.real, reading.time.inDay, proper⟩

theorem Instant.Sound.inRange {instant : Instant} (sound : instant.Sound) : instant.InRange where
  wall := sound.2.inRange
  offset := instant.offset.withinDay
  utcDate := instant.utc.date.real
  utcClock := instant.utc.time.inDay
  coherent := sound.1

theorem Date.parse_ends (t pattern : Text) : Ends InRange IsParse (parse t pattern) :=
  (Pattern.parse_ends t pattern).bind fun _ admitted =>
    (Fields.date_parse admitted).imp fun date _ => date.real

theorem Time.parse_ends (t pattern : Text) : Ends InRange IsParse (parse t pattern) :=
  (Pattern.parse_ends t pattern).bind fun _ admitted =>
    (Fields.time_ends admitted).imp fun time proper => ⟨time.inDay, proper⟩

theorem Reading.parse_ends (t pattern : Text) : Ends InRange IsParse (parse t pattern) :=
  (Pattern.parse_ends t pattern).bind fun _ admitted =>
    (Fields.reading_ends admitted).imp fun _ proper => proper.inRange

theorem accepted_inRange (t pattern : Text) :
    Ends Instant.InRange IsParse (Instant.parseRfc3339 t)
      ∧ Ends Instant.InRange IsParse (Instant.parse t)
      ∧ Ends Instant.InRange IsParse (Instant.parseRfc2822 t)
      ∧ Ends Instant.InRange IsParse (Instant.parseBy t pattern)
      ∧ Ends Reading.InRange IsParse (Reading.parse t pattern)
      ∧ Ends Date.InRange IsParse (Date.parse t pattern)
      ∧ Ends Time.InRange IsParse (Time.parse t pattern) := by
  have inRange {result : Except Error Instant} (ends : Ends Instant.Sound IsParse result) :
      Ends Instant.InRange IsParse result := ends.imp fun _ sound => sound.inRange
  exact ⟨inRange (Instant.parseRfc3339_ends t), inRange (Instant.parse_ends t),
    inRange (Instant.parseRfc2822_ends t), inRange (Instant.parseBy_ends t pattern),
    Reading.parse_ends t pattern, Date.parse_ends t pattern, Time.parse_ends t pattern⟩

end ZonedTime
