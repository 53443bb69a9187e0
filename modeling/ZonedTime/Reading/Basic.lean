import ZonedTime.Clock.Time
import ZonedTime.Duration.Basic

/-!
A reading is what a calendar and a clock on the wall show: a date and a time, in no zone.

`Reading.epochSecond` places it on the line of seconds. Durations are added on that line, except
that a leap second has a second second of its own: see `Reading.addNanos?`.
-/

set_option autoImplicit false

namespace ZonedTime

structure Reading where
  date : Date
  time : Time
  deriving DecidableEq

namespace Reading

def Proper (reading : Reading) : Prop := reading.time.Proper

instance (reading : Reading) : Decidable reading.Proper := by
  unfold Proper
  infer_instance

structure Fields where
  year : Int
  month : Int
  day : Int
  hour : Int
  minute : Int
  second : Int
  nano : Int
  deriving DecidableEq, Repr

def Fields.fit (fields : Fields) : Bool :=
  fitsField fields.year && fitsField fields.month && fitsField fields.day
    && fitsField fields.hour && fitsField fields.minute && fitsField fields.second

def ofFields (fields : Fields) : Except Error Reading := do
  let date <- Date.ofFields fields.year fields.month fields.day
  let time <- Time.ofFields fields.hour fields.minute fields.second fields.nano
  return ⟨date, time⟩

def make (fields : Fields) : Except Error Reading :=
  if fields.fit then ofFields fields else .error .fieldWidth

def make? (fields : Fields) : Except Error (Option Reading) :=
  if fields.fit then .ok (ofFields fields).toOption else .error .fieldWidth

def fields (reading : Reading) : Fields where
  year := reading.date.year
  month := reading.date.month
  day := reading.date.day
  hour := reading.time.hour
  minute := reading.time.minute
  second := reading.time.second
  nano := reading.time.nano

def ofClock (fields : Fields) : Except Error Reading := do
  let date <- Date.ofFields fields.year fields.month fields.day
  let time <- Time.ofClock fields.hour fields.minute fields.second fields.nano
  return ⟨date, time⟩

def first : Reading := ⟨.first, .midnight⟩

def last : Reading := ⟨.last, ⟨23, 59, 59, 999999999, by decide⟩⟩

def epochSecond (reading : Reading) : Int := reading.date.epochSecond + reading.time.secondOfDay

def ofEpoch? (second nano : Int) : Option Reading :=
  (Date.ofDayNumber? (second / 86400 + Calendar.epochDay)).map fun date =>
    ⟨date, .ofSecondOfDay second nano⟩

/-- Nanoseconds from 1970-01-01, on which the readings without leap seconds lie one by one. -/
def epochNano (reading : Reading) : Int := reading.epochSecond * 1000000000 + reading.time.nano

def shift? (reading : Reading) (seconds : Int) : Option Reading :=
  if seconds = 0 then some reading
  else ofEpoch? (reading.epochSecond + seconds) reading.time.nano

def onLine? (second nano : Int) : Option Reading :=
  ofEpoch? (second + nano / 1000000000) (nano % 1000000000)

-- From a leap second one leaves at its end into the next second, or at the start of second 59
-- into the time before; in between the time stays as it is.
def addNanos? (reading : Reading) (n : Int) : Option Reading :=
  let nano := reading.time.nano
  if 1000000000 ≤ nano then
    if 2000000000 - nano ≤ n then
      onLine? (reading.epochSecond + 1) (n - (2000000000 - nano))
    else if n < -nano then onLine? reading.epochSecond (n + nano)
    else some ⟨reading.date, { reading.time with nano := nano + n }⟩
  else onLine? reading.epochSecond (nano + n)

def add? (reading : Reading) (duration : Duration) : Option Reading :=
  reading.addNanos? duration.nanos

def sub? (reading : Reading) (duration : Duration) : Option Reading :=
  reading.addNanos? (-duration.nanos)

def orElse (error : Error) : Option Reading -> Except Error Reading
  | some reading => .ok reading
  | none => .error error

def add (reading : Reading) (duration : Duration) : Except Error Reading :=
  orElse .result (reading.add? duration)

def sub (reading : Reading) (duration : Duration) : Except Error Reading :=
  orElse .result (reading.sub? duration)

/-- Seconds of the day passed since the other time, with a leap second on the way. -/
def clockSecondsSince (time other : Time) : Int :=
  let seconds := time.secondOfDay - other.secondOfDay
  if 0 < seconds ∧ 1000000000 ≤ other.nano then seconds + 1
  else if seconds < 0 ∧ 1000000000 ≤ time.nano then seconds - 1
  else seconds

def since (reading other : Reading) : Duration where
  nanos :=
    ((reading.date.dayNumber - other.date.dayNumber) * 86400
        + clockSecondsSince reading.time other.time) * 1000000000
      + reading.time.nano - other.time.nano

def lt (a b : Reading) : Bool := a.date.lt b.date || (a.date == b.date && a.time.lt b.time)

def replace (reading : Reading)
    (year month day hour minute second nano : Option Int) : Except Error Reading :=
  let old := reading.fields
  make ⟨year.getD old.year, month.getD old.month, day.getD old.day, hour.getD old.hour,
    minute.getD old.minute, second.getD old.second, nano.getD old.nano⟩

end Reading

def Date.at (date : Date) (time : Time) : Reading := ⟨date, time⟩

def Time.on (time : Time) (date : Date) : Reading := ⟨date, time⟩

end ZonedTime
