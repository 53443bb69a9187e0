import ZonedTime.Duration.Basic
import ZonedTime.Proofs.Bytes.Written
import ZonedTime.Proofs.Instant.Proper

set_option autoImplicit false

namespace ZonedTime

namespace Bytes

inductive Field where
  | unsigned (width : Nat) (n : Int)
  | signed (width : Nat) (n : Int)

namespace Field

def width : Field -> Nat
  | unsigned width _ => width
  | signed width _ => width

def bytes : Field -> Bytes
  | unsigned width n => littleEndian width n.toNat
  | signed width n => signedLittleEndian width n

def Fits : Field -> Prop
  | unsigned width n => 0 ≤ n ∧ n < (256 ^ width : Nat)
  | signed width n => Bytes.Fits width n

theorem bytes_length (field : Field) : field.bytes.length = field.width := by
  cases field with
  | unsigned width n => exact littleEndian_length width _
  | signed width n => exact signedLittleEndian_length width n

end Field

end Bytes

/-- A layout of so many bytes has room for every value in range, and what is packed in it is
unpacked as it was. -/
structure Packs {α : Type} (InRange : α -> Prop) (layout : α -> List Bytes.Field) (size : Nat)
    (pack : α -> Bytes) (unpack : Bytes -> Except Error α) : Prop where
  written (a : α) : pack a = (layout a).flatMap Bytes.Field.bytes
  length (a : α) : (pack a).length = size
  fits (a : α) (inRange : InRange a) : ∀ field ∈ layout a, field.Fits
  unpacked (a : α) (inRange : InRange a) : unpack (pack a) = .ok a
  distinct (a b : α) (left : InRange a) (right : InRange b) (differ : a ≠ b) : pack a ≠ pack b

theorem Packs.of_unpacked {α : Type} {InRange : α -> Prop} {layout : α -> List Bytes.Field}
    {size : Nat} {pack : α -> Bytes} {unpack : Bytes -> Except Error α}
    (written : ∀ a, pack a = (layout a).flatMap Bytes.Field.bytes)
    (widths : ∀ a, ((layout a).map Bytes.Field.width).sum = size)
    (fits : ∀ a, InRange a → ∀ field ∈ layout a, field.Fits)
    (unpacked : ∀ a, InRange a → unpack (pack a) = .ok a) :
    Packs InRange layout size pack unpack where
  written := written
  length a := by
    rw [written, List.length_flatMap, ← widths a]
    simp only [Bytes.Field.bytes_length]
  fits := fits
  unpacked := unpacked
  distinct a b left right differ same := by
    have again := unpacked a left
    rw [same, unpacked b right, Except.ok.injEq] at again
    exact differ again.symm

namespace Date

def layout (date : Date) : List Bytes.Field :=
  [.unsigned 2 date.year, .unsigned 1 date.month, .unsigned 1 date.day]

theorem layout_fits (date : Date) : ∀ field ∈ date.layout, field.Fits := by
  obtain ⟨firstYear, lastYear, firstMonth, lastMonth, firstDay, -⟩ := date.real
  have lastDay := date.day_le
  simp only [layout, List.forall_mem_cons, List.not_mem_nil, false_implies, implies_true, and_true,
    Bytes.Field.Fits]
  omega

theorem packs : Packs (fun _ => True) layout 4 pack unpack :=
  .of_unpacked (fun _ => by simp [pack, layout, Bytes.Field.bytes]) (fun _ => rfl)
    (fun date _ => date.layout_fits) (fun date _ => date.unpack_pack)

end Date

namespace Time

def InBand (time : Time) : Prop := 0 ≤ time.nano ∧ time.nano < 2000000000

def layout (time : Time) : List Bytes.Field :=
  [.unsigned 1 time.hour, .unsigned 1 time.minute, .unsigned 1 time.second, .unsigned 4 time.nano]

theorem layout_fits {time : Time} (inBand : time.InBand) :
    ∀ field ∈ time.layout, field.Fits := by
  obtain ⟨first, last⟩ := inBand
  obtain ⟨_, _, _, _, _, _⟩ := time.inDay
  simp only [layout, List.forall_mem_cons, List.not_mem_nil, false_implies, implies_true, and_true,
    Bytes.Field.Fits]
  omega

theorem packs : Packs InBand layout 7 pack unpack := by
  refine .of_unpacked ?_ (fun _ => rfl) (fun _ => layout_fits) ?_
  next =>
    intro time
    simp [pack, packClock, layout, Bytes.Field.bytes]
  next =>
    rintro time ⟨first, last⟩
    exact unpack_pack first (by omega)

end Time

namespace Reading

def layout (reading : Reading) : List Bytes.Field := reading.date.layout ++ reading.time.layout

theorem packs : Packs InBand layout 11 pack unpack := by
  refine .of_unpacked ?_ (fun _ => rfl) ?_ ?_
  next =>
    intro reading
    rw [pack, layout, List.flatMap_append, ← Date.packs.written, ← Time.packs.written]
  next =>
    intro reading inBand field member
    rcases List.mem_append.mp member with date | time
    next => exact reading.date.layout_fits field date
    next => exact Time.layout_fits inBand field time
  next =>
    rintro reading ⟨first, last⟩
    exact unpack_pack first (by omega)

end Reading

namespace Duration

def layout (duration : Duration) : List Bytes.Field :=
  [.signed 8 duration.secondsAndNanos.1, .unsigned 4 duration.secondsAndNanos.2]

theorem layout_fits {duration : Duration} (inRange : duration.InRange) :
    ∀ field ∈ duration.layout, field.Fits := by
  obtain ⟨low, high⟩ := inRange
  simp only [layout, secondsAndNanos, bound, List.forall_mem_cons, List.not_mem_nil, false_implies,
    implies_true, and_true, Bytes.Field.Fits, Bytes.Fits] at low high ⊢
  omega

theorem unpack_pack {duration : Duration} (inRange : duration.InRange) :
    unpack duration.pack = .ok duration := by
  have fields := layout_fits inRange
  simp only [layout, List.forall_mem_cons, Bytes.Field.Fits] at fields
  obtain ⟨wide, ⟨first, last⟩, -⟩ := fields
  have head := Bytes.signedLittleEndian_length 8 duration.secondsAndNanos.1
  have tail := Bytes.littleEndian_length 4 duration.secondsAndNanos.2.toNat
  have seconds : Bytes.ofSignedLittleEndian (duration.pack.take 8) =
      duration.secondsAndNanos.1 := by
    rw [pack, List.take_left' head, Bytes.ofSignedLittleEndian_signed wide]
  have nanos : Bytes.field duration.pack 8 4 = duration.secondsAndNanos.2 := by
    rw [Bytes.field, pack, List.drop_left' head, List.take_of_length_le (Nat.le_of_eq tail),
      Bytes.ofLittleEndian_toNat 4 first (by omega)]
  have length : duration.pack.length = 12 := by
    rw [pack, List.length_append, head, tail]
  rw [unpack, if_pos length, seconds, nanos, secondsAndNanos, Int.ediv_mul_add_emod]

theorem packs : Packs InRange layout 12 pack unpack :=
  .of_unpacked (fun _ => by simp [pack, layout, Bytes.Field.bytes]) (fun _ => rfl)
    (fun _ => layout_fits) (fun _ => unpack_pack)

end Duration

end ZonedTime
