import ZonedTime.Proofs.Reading.SecondLine
import ZonedTime.Value.Packed

set_option autoImplicit false

namespace ZonedTime

namespace Bytes

theorem ofLittleEndian_littleEndian {width n : Nat} (small : n < 256 ^ width) :
    ofLittleEndian (littleEndian width n) = n := by
  induction width generalizing n with
  | zero =>
    rw [Nat.pow_zero] at small
    rw [littleEndian, ofLittleEndian]
    omega
  | succ width ih =>
    have byte : (UInt8.ofNat (n % 256)).toNat = n % 256 := by
      rw [UInt8.toNat_ofNat']
      omega
    rw [Nat.pow_succ] at small
    rw [littleEndian, ofLittleEndian, ih (by omega), byte]
    omega

theorem ofLittleEndian_toNat (width : Nat) {n : Int} (first : 0 ≤ n)
    (last : n.toNat < 256 ^ width) : (ofLittleEndian (littleEndian width n.toNat) : Int) = n := by
  rw [ofLittleEndian_littleEndian last, Int.toNat_of_nonneg first]

end Bytes

theorem Date.unpack_pack (date : Date) : unpack date.pack = .ok date := by
  obtain ⟨firstYear, lastYear, firstMonth, lastMonth, firstDay, -⟩ := date.real
  have lastDay := date.day_le
  have year : Bytes.field date.pack 0 2 = date.year :=
    Bytes.ofLittleEndian_toNat 2 (by omega) (by omega)
  have month : Bytes.field date.pack 2 1 = date.month :=
    Bytes.ofLittleEndian_toNat 1 (by omega) (by omega)
  have day : Bytes.field date.pack 3 1 = date.day :=
    Bytes.ofLittleEndian_toNat 1 (by omega) (by omega)
  rw [unpack, if_pos (show date.pack.length = 4 from rfl), year, month, day, ofFields_fields]

theorem Time.unpack_pack {time : Time} (first : 0 ≤ time.nano) (last : time.nano < 4294967296) :
    unpack time.pack = .ok time := by
  obtain ⟨_, _, _, _, _, _⟩ := time.inDay
  have hour : Bytes.field time.pack 0 1 = time.hour :=
    Bytes.ofLittleEndian_toNat 1 (by omega) (by omega)
  have minute : Bytes.field time.pack 1 1 = time.minute :=
    Bytes.ofLittleEndian_toNat 1 (by omega) (by omega)
  have second : Bytes.field time.pack 2 1 = time.second :=
    Bytes.ofLittleEndian_toNat 1 (by omega) (by omega)
  have nano : Bytes.field time.pack 3 4 = time.nano :=
    Bytes.ofLittleEndian_toNat 4 (by omega) (by omega)
  rw [unpack, if_pos (show time.pack.length = 7 from rfl), hour, minute, second, nano,
    ofClock_fields]

theorem Reading.unpack_pack {reading : Reading} (first : 0 ≤ reading.time.nano)
    (last : reading.time.nano < 4294967296) : unpack reading.pack = .ok reading := by
  have date := reading.date.unpack_pack
  have time := Time.unpack_pack first last
  -- The date takes the first four bytes, whatever they are.
  change (do
    let date <- Date.unpack reading.date.pack
    let time <- Time.unpack reading.time.pack
    return (⟨date, time⟩ : Reading)) = _
  rw [date, time]
  rfl

end ZonedTime
