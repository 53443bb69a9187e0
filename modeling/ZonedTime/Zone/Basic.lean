import ZonedTime.Reading.Basic
import ZonedTime.Zone.Offset
import ZonedTime.Zone.Tzif

set_option autoImplicit false

namespace ZonedTime

structure Place where
  rules : Rules
  source : Option Text
  deriving DecidableEq

structure Provider where
  name : Text
  offsetAtUtc : Reading -> Offset
  offsetsAtWall : Reading -> Resolution Offset

inductive Zone where
  | utc
  | fixed (offset : Offset)
  | place (place : Place)
  | custom (provider : Provider)

namespace Place

def ofYearly (source : Text) : Except Error Place :=
  match Yearly.parse source with
  | .ok rule => .ok ⟨.ofYearly rule, some source⟩
  | .error fault => .error (.rule fault)

def ofTzif (key : Option Text) (bytes : Bytes) : Except Error Place := do
  return ⟨<- Tzif.parse key bytes, none⟩

def key (place : Place) : Option Text := place.rules.key

def text (place : Place) : Text :=
  match place.key, place.source with
  | some key, _ => key
  | none, some source => source
  | none, none => Text.ofString "<unnamed>"

def shown (place : Place) : Text :=
  match place.key, place.source with
  | some key, _ => Text.ofString "TimeZone(" ++ Text.Quoted.encode key ++ [')']
  | none, some source =>
    Text.ofString "TimeZone.from_posix(" ++ Text.Quoted.encode source ++ [')']
  | none, none => Text.ofString "TimeZone(<unnamed>)"

def checkOffset (place : Place) (seconds : Int) : Except Error Offset :=
  match Offset.ofSeconds? seconds with
  | some offset => .ok offset
  | none => .error (.zoneOffset seconds place.text)

def offsetAtUtc (place : Place) (utc : Reading) : Except Error Offset :=
  place.checkOffset (place.rules.offsetAtUtc utc.epochSecond)

def offsetsAtWall (place : Place) (wall : Reading) : Except Error (Resolution Offset) :=
  (place.rules.offsetsAtWall wall.epochSecond).mapM place.checkOffset

end Place

namespace Zone

def text : Zone -> Text
  | utc => Text.ofString "UTC"
  | fixed offset => offset.text
  | place site => site.text
  | custom provider => provider.name

def shown? : Zone -> Option Text
  | utc => some (Text.ofString "UTC")
  | fixed offset => some offset.shown
  | place site => some site.shown
  | custom _ => none

def key? : Zone -> Option Text
  | place site => site.key
  | _ => none

def offsetAtUtc (zone : Zone) (reading : Reading) : Except Error Offset :=
  match zone with
  | utc => .ok .zero
  | fixed offset => .ok offset
  | place site => site.offsetAtUtc reading
  | custom provider => .ok (provider.offsetAtUtc reading)

def offsetsAtWall (zone : Zone) (reading : Reading) : Except Error (Resolution Offset) :=
  match zone with
  | utc => .ok (.single .zero)
  | fixed offset => .ok (.single offset)
  | place site => site.offsetsAtWall reading
  | custom provider => .ok (provider.offsetsAtWall reading)

def abbreviation (zone : Zone) (reading : Reading) : Except Error Text :=
  match zone with
  | utc => .ok (Text.ofString "UTC")
  | place site =>
    let name := site.rules.nameAtUtc reading.epochSecond
    if name.isEmpty then (site.offsetAtUtc reading).map Offset.text else .ok name
  | _ => (zone.offsetAtUtc reading).map Offset.text

/-- Zones of one kind with equal offsets or rules; functions are never known to be equal. -/
def same : Zone -> Zone -> Bool
  | utc, utc => true
  | fixed a, fixed b => a == b
  | place a, place b => a.rules.same b.rules
  | _, _ => false

end Zone

end ZonedTime
