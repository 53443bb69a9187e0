import ZonedTime.Bytes.Basic
import ZonedTime.Instant.Day

set_option autoImplicit false

namespace ZonedTime

open Bytes (littleEndian ofLittleEndian)

def Bytes.field (bytes : Bytes) (start width : Nat) : Int :=
  ofLittleEndian ((bytes.drop start).take width)

namespace Date

def pack (date : Date) : Bytes :=
  littleEndian 2 date.year.toNat ++ littleEndian 1 date.month.toNat
    ++ littleEndian 1 date.day.toNat

def unpack (bytes : Bytes) : Except Error Date :=
  if bytes.length = 4 then
    ofFields (Bytes.field bytes 0 2) (Bytes.field bytes 2 1) (Bytes.field bytes 3 1)
  else .error .packedSize

end Date

namespace Time

def packClock (time : Time) : Bytes :=
  littleEndian 1 time.hour.toNat ++ littleEndian 1 time.minute.toNat
    ++ littleEndian 1 time.second.toNat

def pack (time : Time) : Bytes := time.packClock ++ littleEndian 4 time.nano.toNat

def unpack (bytes : Bytes) : Except Error Time :=
  if bytes.length = 7 then
    ofClock (Bytes.field bytes 0 1) (Bytes.field bytes 1 1) (Bytes.field bytes 2 1)
      (Bytes.field bytes 3 4)
  else .error .packedSize

end Time

namespace Duration

def pack (duration : Duration) : Bytes :=
  Bytes.signedLittleEndian 8 duration.secondsAndNanos.1
    ++ littleEndian 4 duration.secondsAndNanos.2.toNat

def unpack (bytes : Bytes) : Except Error Duration :=
  if bytes.length = 12 then
    .ok ⟨Bytes.ofSignedLittleEndian (bytes.take 8) * 1000000000 + Bytes.field bytes 8 4⟩
  else .error .packedSize

end Duration

namespace Reading

def pack (reading : Reading) : Bytes := reading.date.pack ++ reading.time.pack

def unpack (bytes : Bytes) : Except Error Reading :=
  if bytes.length = 11 then do
    let date <- Date.unpack (bytes.take 4)
    let time <- Time.unpack (bytes.drop 4)
    return ⟨date, time⟩
  else .error .packedSize

end Reading

def Instant.pack (instant : Instant) : Bytes := instant.utc.pack

def Instant.unpack (bytes : Bytes) (zone : Zone) : Except Error Instant := do
  Instant.ofUtc (<- Reading.unpack bytes) zone

def Day.pack (day : Day) : Bytes := day.date.pack

def Day.unpack (bytes : Bytes) (zone : Zone) : Except Error Day := do
  return ⟨<- Date.unpack bytes, zone⟩

end ZonedTime
