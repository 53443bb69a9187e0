import ZonedTime.Bytes.Basic

set_option autoImplicit false

namespace ZonedTime.Bytes

variable {size : Nat} {bytes : Bytes}

@[simp] theorem chunks_nil (size : Nat) : chunks size [] = [] := by
  rw [chunks]

theorem chunks_of_ne_nil (positive : 0 < size) (filled : bytes ≠ []) :
    chunks size bytes = bytes.take size :: chunks size (bytes.drop size) := by
  cases bytes with
  | nil => exact absurd rfl filled
  | cons byte rest =>
    obtain ⟨n, rfl⟩ := Nat.exists_eq_succ_of_ne_zero (Nat.ne_of_gt positive)
    rw [chunks]
    simp

theorem chunks_eq_cons (positive : 0 < size) {piece : Bytes} {pieces : List Bytes}
    (same : chunks size bytes = piece :: pieces) :
    piece = bytes.take size ∧ pieces = chunks size (bytes.drop size) := by
  have filled : bytes ≠ [] := by
    rintro rfl
    simp at same
  rw [chunks_of_ne_nil positive filled, List.cons.injEq] at same
  exact ⟨same.1.symm, same.2.symm⟩

theorem chunks_exact (positive : 0 < size) {count : Nat} (length : bytes.length = count * size) :
    (chunks size bytes).length = count ∧ ∀ piece ∈ chunks size bytes, piece.length = size := by
  -- Each piece taken off the front leaves one less, of fewer bytes.
  induction count generalizing bytes with
  | zero =>
    have empty : bytes = [] := List.length_eq_zero_iff.mp (by omega)
    simp [empty]
  | succ count ih =>
    rw [Nat.succ_mul] at length
    have filled : bytes ≠ [] := by
      rintro rfl
      simp at length
      omega
    have shorter : (bytes.drop size).length = count * size := by
      rw [List.length_drop]
      omega
    obtain ⟨number, widths⟩ := ih shorter
    rw [chunks_of_ne_nil positive filled]
    refine ⟨by simp [number], ?_⟩
    intro piece member
    rcases List.mem_cons.mp member with rfl | later
    next =>
      rw [List.length_take]
      omega
    next => exact widths piece later

theorem signedBigEndian_bounds (four : bytes.length = 4) :
    -2147483648 ≤ signedBigEndian bytes ∧ signedBigEndian bytes < 2147483648 := by
  have low := Int.le_bmod (x := bigEndian bytes) (m := 4294967296) (by decide)
  have high := Int.bmod_lt (x := bigEndian bytes) (m := 4294967296) (by decide)
  have width : Nat.pow 256 bytes.length = 4294967296 := by
    rw [four]
  rw [signedBigEndian, width]
  omega

end ZonedTime.Bytes
