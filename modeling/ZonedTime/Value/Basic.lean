import ZonedTime.Value.Packed

set_option autoImplicit false

namespace ZonedTime

inductive Value where
  | date (date : Date)
  | time (time : Time)
  | reading (reading : Reading)
  | duration (duration : Duration)
  | instant (instant : Instant)
  | day (day : Day)
  | zone (zone : Zone)
  | int (n : Int)
  | resolution (resolution : Resolution Int)

structure Digest where
  numbers : List Int
  key : Option Text
  deriving DecidableEq, Repr

def Date.digest (date : Date) : List Int := [date.year, date.month, date.day]

def Time.digest (time : Time) : List Int := [time.hour, time.minute, time.second, time.nano]

def Reading.digest (reading : Reading) : List Int := reading.date.digest ++ reading.time.digest

def Rules.digest (rules : Rules) : Digest :=
  ⟨rules.byUtc.toList.flatMap fun (second, period) => [second, period.offset], rules.key⟩

def Zone.digest : Zone -> Digest
  | .utc => ⟨[], none⟩
  | .fixed offset => ⟨[offset.seconds], none⟩
  | .place site => site.rules.digest
  | .custom provider => ⟨[], some provider.name⟩

namespace Value

def eq : Value -> Value -> Bool
  | date a, date b => a == b
  | time a, time b => a == b
  | reading a, reading b => a == b
  | duration a, duration b => a == b
  | instant a, instant b => a.eq b
  | day a, day b => a.eq b
  | zone a, zone b => a.same b
  | int a, int b => a == b
  | resolution a, resolution b => a == b
  | _, _ => false

def digest : Value -> Digest
  | date a => ⟨a.digest, none⟩
  | time a => ⟨a.digest, none⟩
  | reading a => ⟨a.digest, none⟩
  | duration a => ⟨[a.nanos], none⟩
  | instant a => ⟨a.utc.digest, none⟩
  | day a => ⟨a.date.digest, none⟩
  | zone a => a.digest
  | int n => ⟨[n], none⟩
  | resolution a => ⟨a.toList, none⟩

def lt : Value -> Value -> Except Error Bool
  | date a, date b => .ok (a.lt b)
  | time a, time b => .ok (a.lt b)
  | reading a, reading b => .ok (a.lt b)
  | duration a, duration b => .ok (a.nanos < b.nanos)
  | instant a, instant b => .ok (a.lt b)
  | day a, day b => .ok (a.lt b)
  | zone (.fixed a), zone (.fixed b) => .ok (a.seconds < b.seconds)
  | int a, int b => .ok (a < b)
  | _, _ => .error .unsupported

def le (a b : Value) : Except Error Bool := do
  return (<- lt a b) || eq a b

def add : Value -> Value -> Except Error Value
  | duration a, duration b => return duration (<- a.add b)
  | reading a, duration b => return reading (<- a.add b)
  | instant a, duration b => return instant (<- a.add b)
  | day a, int n => return day (<- a.addDays n)
  | int a, int b => .ok (int (a + b))
  | _, _ => .error .unsupported

def sub : Value -> Value -> Except Error Value
  | duration a, duration b => return duration (<- a.sub b)
  | reading a, duration b => return reading (<- a.sub b)
  | reading a, reading b => .ok (duration (a.since b))
  | instant a, duration b => return instant (<- a.sub b)
  | instant a, instant b => .ok (duration (a.since b))
  | day a, int n => return day (<- a.subDays n)
  | int a, int b => .ok (int (a - b))
  | _, _ => .error .unsupported

def mul : Value -> Value -> Except Error Value
  | duration a, int n => return duration (<- a.mul n)
  | int n, duration a => return duration (<- a.mul n)
  | int a, int b => .ok (int (a * b))
  | _, _ => .error .unsupported

end Value

inductive Packed where
  | date (bytes : Bytes)
  | time (bytes : Bytes)
  | reading (bytes : Bytes)
  | duration (bytes : Bytes)
  | instant (bytes : Bytes) (zone : Zone)
  | day (bytes : Bytes) (zone : Zone)
  | offset (seconds : Int)
  | utc
  | place (key source : Option Text)

/-- Rules are stored by their key or by the text they were read from. -/
def Place.pack (place : Place) : Except Error Packed :=
  match place.key, place.source with
  | some key, _ => .ok (.place (some key) none)
  | none, some source => .ok (.place none (some source))
  | none, none => .error .unsupported

def Value.pack : Value -> Except Error Packed
  | date a => .ok (.date a.pack)
  | time a => .ok (.time a.pack)
  | reading a => .ok (.reading a.pack)
  | duration a => .ok (.duration a.pack)
  | instant a => .ok (.instant a.pack a.zone)
  | day a => .ok (.day a.pack a.zone)
  | zone .utc => .ok .utc
  | zone (.fixed offset) => .ok (.offset offset.seconds)
  | zone (.place site) => site.pack
  | _ => .error .unsupported

def Packed.unpack (load : Text -> Except Error Rules) : Packed -> Except Error Value
  | date bytes => return .date (<- Date.unpack bytes)
  | time bytes => return .time (<- Time.unpack bytes)
  | reading bytes => return .reading (<- Reading.unpack bytes)
  | duration bytes => return .duration (<- Duration.unpack bytes)
  | instant bytes zone => return .instant (<- Instant.unpack bytes zone)
  | day bytes zone => return .day (<- Day.unpack bytes zone)
  | offset seconds => return .zone (.fixed (<- Offset.ofSeconds seconds))
  | utc => .ok (.zone .utc)
  | place (some key) _ => return .zone (.place ⟨<- load key, none⟩)
  | place none source => return .zone (.place (<- Place.ofYearly (source.getD [])))

end ZonedTime
