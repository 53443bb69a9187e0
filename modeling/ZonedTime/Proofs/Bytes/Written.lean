import ZonedTime.Proofs.Bytes.Chunks
import ZonedTime.Proofs.Value.Packed

set_option autoImplicit false

namespace ZonedTime.Bytes

def written (width : Nat) (n : Int) : Bytes := (signedLittleEndian width n).reverse

def Fits (width : Nat) (n : Int) : Prop :=
  -(256 ^ width : Nat) ≤ 2 * n ∧ 2 * n < (256 ^ width : Nat)

instance (width : Nat) (n : Int) : Decidable (Fits width n) := by
  unfold Fits
  infer_instance

theorem littleEndian_length (width n : Nat) : (littleEndian width n).length = width := by
  induction width generalizing n with
  | zero => rfl
  | succ width ih => rw [littleEndian, List.length_cons, ih]

theorem signedLittleEndian_length (width : Nat) (n : Int) :
    (signedLittleEndian width n).length = width :=
  littleEndian_length width _

@[simp] theorem written_length (width : Nat) (n : Int) : (written width n).length = width := by
  rw [written, List.length_reverse, signedLittleEndian_length]

theorem ofSignedLittleEndian_signed {width : Nat} {n : Int} (fits : Fits width n) :
    ofSignedLittleEndian (signedLittleEndian width n) = n := by
  have positive : 0 < 256 ^ width := Nat.pow_pos (by decide)
  obtain ⟨low, high⟩ := fits
  have first : 0 ≤ n % (256 ^ width : Nat) := Int.emod_nonneg n (by omega)
  have last : n % (256 ^ width : Nat) < (256 ^ width : Nat) := Int.emod_lt_of_pos n (by omega)
  have digits : (ofLittleEndian (signedLittleEndian width n) : Int) = n % (256 ^ width : Nat) := by
    apply ofLittleEndian_toNat width first
    omega
  rw [ofSignedLittleEndian, signedLittleEndian_length, digits]
  change Int.bmod (n % (256 ^ width : Nat)) (256 ^ width) = n
  rw [Int.emod_bmod, Int.bmod_eq_of_le]
  next => omega
  next => omega

theorem bigEndian_reverse (bytes : Bytes) : bigEndian bytes.reverse = ofLittleEndian bytes := by
  induction bytes with
  | nil => rfl
  | cons byte rest ih =>
    rw [bigEndian] at ih
    rw [bigEndian, List.reverse_cons, List.foldl_append, ih, ofLittleEndian, Nat.add_comm]
    rfl

theorem signedBigEndian_written {width : Nat} {n : Int} (fits : Fits width n) :
    signedBigEndian (written width n) = n := by
  have reversed : signedBigEndian (signedLittleEndian width n).reverse =
      ofSignedLittleEndian (signedLittleEndian width n) := by
    rw [signedBigEndian, bigEndian_reverse, List.length_reverse, ofSignedLittleEndian]
  rw [written, reversed, ofSignedLittleEndian_signed fits]

theorem chunks_flatMap {α : Type} {size : Nat} (positive : 0 < size) {write : α -> Bytes}
    (widths : ∀ a, (write a).length = size) (items : List α) :
    chunks size (items.flatMap write) = items.map write := by
  induction items with
  | nil => exact chunks_nil size
  | cons first rest ih =>
    have filled : write first ++ rest.flatMap write ≠ [] := by
      apply List.append_ne_nil_of_left_ne_nil
      apply List.ne_nil_of_length_pos
      rw [widths first]
      exact positive
    rw [List.flatMap_cons, chunks_of_ne_nil positive filled, List.take_left' (widths first),
      List.drop_left' (widths first), ih, List.map_cons]

theorem length_flatMap {α : Type} {size : Nat} {write : α -> Bytes}
    (widths : ∀ a, (write a).length = size) (items : List α) :
    (items.flatMap write).length = size * items.length := by
  induction items with
  | nil => rfl
  | cons first rest ih =>
    rw [List.flatMap_cons, List.length_append, widths, ih, List.length_cons, Nat.mul_succ,
      Nat.add_comm]

end ZonedTime.Bytes
