import ZonedTime.Proofs.Error.Outcome
import ZonedTime.Proofs.Text.Numeral
import ZonedTime.Text.Scan

set_option autoImplicit false

namespace ZonedTime

section

variable {ε σ α β : Type}

def Reads (scan : StateT σ (Except ε) α) (t : σ) (a : α) (rest : σ) : Prop :=
  scan.run t = .ok (a, rest)

namespace Reads

theorem pure (a : α) (t : σ) : Reads (Pure.pure a : StateT σ (Except ε) α) t a t := rfl

theorem bind {scan : StateT σ (Except ε) α} {next : α -> StateT σ (Except ε) β}
    {t middle rest : σ} {a : α} {b : β} (first : Reads scan t a middle)
    (second : Reads (next a) middle b rest) : Reads (scan >>= next) t b rest := by
  unfold Reads at *
  rw [StateT.run_bind, first]
  exact second

theorem of_bind {scan : StateT σ (Except ε) α} {next : α -> StateT σ (Except ε) β}
    {t rest : σ} {b : β} (read : Reads (scan >>= next) t b rest) :
    ∃ a middle, Reads scan t a middle ∧ Reads (next a) middle b rest := by
  rw [Reads, StateT.run_bind] at read
  cases ran : scan.run t with
  | error fault =>
    rw [ran] at read
    cases read
  | ok found =>
    rw [ran, ok_bind] at read
    exact ⟨found.1, found.2, ran, read⟩

theorem andThen {scan : StateT σ (Except ε) α} {f : α -> β} {t rest : σ} {a : α}
    (first : Reads scan t a rest) :
    Reads (do return f (<- scan) : StateT σ (Except ε) β) t (f a) rest :=
  first.bind (pure (f a) rest)

theorem lift {result : Except ε α} {a : α} (given : result = .ok a) (t : σ) :
    Reads (liftM result : StateT σ (Except ε) α) t a t := by
  rw [given]
  rfl

end Reads

def Yields (good : α -> Prop) (scan : StateT Text (Except ε) α) : Prop :=
  ∀ t, Gives (fun found => good found.1) (scan.run t)

namespace Yields

variable {good : α -> Prop} {next : β -> Prop} {scan : StateT Text (Except ε) α}

theorem any (scan : StateT Text (Except ε) α) : Yields (fun _ => True) scan :=
  fun t => gives_any (scan.run t)

theorem pure {a : α} (holds : good a) :
    Yields good (Pure.pure a : StateT Text (Except ε) α) :=
  fun _ => holds

theorem bind {later : α -> StateT Text (Except ε) β} (first : Yields good scan)
    (second : ∀ a, good a → Yields next (later a)) : Yields next (scan >>= later) := by
  intro t
  rw [StateT.run_bind]
  exact (first t).bind fun found holds => second found.1 holds found.2

theorem imp {weaker : α -> Prop} (yields : Yields good scan) (wide : ∀ a, good a → weaker a) :
    Yields weaker scan :=
  fun t => (yields t).imp fun found holds => wide found.1 holds

theorem ite {c : Prop} [Decidable c] {other : StateT Text (Except ε) α}
    (holds : c → Yields good scan) (fails : ¬ c → Yields good other) :
    Yields good (if c then scan else other) := by
  split
  next here => exact holds here
  next here => exact fails here

theorem lift {result : Except ε α} (gives : Gives good result) :
    Yields good (liftM result : StateT Text (Except ε) α) := by
  intro t
  exact Ends.bind gives fun _ holds => holds

end Yields

end

def NoDigit (t : Text) : Prop := ∀ c ∈ t.head?, c.isDigit = false

theorem noDigit_nil : NoDigit [] := by
  rintro c ⟨⟩

theorem noDigit_cons {c : Char} {t : Text} (other : c.isDigit = false) : NoDigit (c :: t) := by
  rintro _ ⟨⟩
  exact other

theorem takeWhile_isDigit {run rest : Text} (digits : Text.isDigits run = true)
    (ends : NoDigit rest) : (run ++ rest).takeWhile Char.isDigit = run := by
  induction run with
  | nil =>
    cases rest with
    | nil => rfl
    | cons c rest => simp [ends c rfl]
  | cons c run ih =>
    simp only [Text.isDigits_cons, Bool.and_eq_true] at digits
    simp [digits.1, ih digits.2]

namespace Scan

theorem reads_digits {least most : Nat} {run rest : Text} (digits : Text.isDigits run = true)
    (enough : least ≤ run.length) (fits : run.length ≤ most)
    (ends : run.length = most ∨ NoDigit rest) :
    Reads (Scan.digits least most) (run ++ rest) run rest := by
  have taken : ((run ++ rest).take most).takeWhile Char.isDigit = run := by
    rw [List.take_append, List.take_of_length_le fits]
    refine takeWhile_isDigit digits ?_
    rcases ends with full | other
    next =>
      rw [full, Nat.sub_self, List.take_zero]
      exact noDigit_nil
    next =>
      cases rest with
      | nil =>
        rw [List.take_nil]
        exact noDigit_nil
      | cons c rest =>
        rcases Nat.eq_zero_or_pos (most - run.length) with none | some
        next =>
          rw [none, List.take_zero]
          exact noDigit_nil
        next =>
          obtain ⟨n, more⟩ := Nat.exists_eq_succ_of_ne_zero (Nat.ne_of_gt some)
          rw [more, List.take_succ_cons]
          exact noDigit_cons (other c rfl)
  change Scan.digits least most (run ++ rest) = .ok (run, rest)
  simp only [Scan.digits, taken, if_pos enough, List.drop_left]

theorem reads_padded {least width n : Nat} (positive : 0 < width) (small : n < 10 ^ width)
    (least_le : least ≤ width) (rest : Text) :
    Reads (Scan.digits least width) (Text.padded width n ++ rest) (Text.padded width n) rest := by
  have length := Text.padded_length positive small
  exact reads_digits (Text.isDigits_padded width n) (by omega) (by omega) (.inl length)

theorem reads_number {width n : Nat} (positive : 0 < width) (small : n < 10 ^ width)
    (rest : Text) : Reads (Scan.number width) (Text.padded width n ++ rest) n rest := by
  have read := (reads_padded positive small (Nat.le_refl width) rest).andThen
    (f := fun digits => (Text.value digits : Int))
  rwa [Text.value_padded] at read

theorem reads_two {n : Int} (first : 0 ≤ n) (last : n < 100) (rest : Text) :
    Reads (Scan.number 2) (Text.two n ++ rest) n rest := by
  have read := reads_number (show 0 < 2 by decide) (show n.toNat < 10 ^ 2 by omega) rest
  rwa [Int.toNat_of_nonneg first] at read

theorem reads_four {n : Int} (first : 0 ≤ n) (last : n < 10000) (rest : Text) :
    Reads (Scan.number 4) (Text.four n ++ rest) n rest := by
  have read := reads_number (show 0 < 4 by decide) (show n.toNat < 10 ^ 4 by omega) rest
  rwa [Int.toNat_of_nonneg first] at read

theorem reads_one {accepts : Char -> Bool} {c : Char} (accepted : accepts c = true)
    (rest : Text) : Reads (Scan.one accepts) (c :: rest) c rest := by
  change Scan.one accepts (c :: rest) = .ok (c, rest)
  simp only [Scan.one, accepted, if_true]

theorem reads_char (c : Char) (rest : Text) : Reads (Scan.char c) (c :: rest) () rest := by
  unfold Scan.char
  exact Reads.bind (reads_one (beq_self_eq_true c) rest) (.pure () rest)

theorem reads_optional (c : Char) (rest : Text) :
    Reads (Scan.optional c) (c :: rest) true rest := by
  change Scan.optional c (c :: rest) = .ok (true, rest)
  simp only [Scan.optional, beq_self_eq_true, if_true]

theorem reads_noOptional {c : Char} {t : Text} (other : ∀ d ∈ t.head?, (d == c) = false) :
    Reads (Scan.optional c) t false t := by
  cases t with
  | nil => rfl
  | cons d rest =>
    change Scan.optional c (d :: rest) = .ok (false, d :: rest)
    simp [Scan.optional, other d rfl]

theorem nanosOfDigits_eq (digits : Text) :
    nanosOfDigits digits = (Text.value digits * 10 ^ (9 - digits.length) : Nat) := by
  rw [nanosOfDigits, Text.value_append, Text.value_zeros, List.length_replicate, Nat.add_zero]

theorem nanosOfDigits_bounds {digits : Text} (numeral : Text.isDigits digits = true)
    (short : digits.length ≤ 9) :
    0 ≤ nanosOfDigits digits ∧ nanosOfDigits digits < 1000000000 := by
  have small := Text.value_lt numeral
  have whole : 10 ^ digits.length * 10 ^ (9 - digits.length) = 1000000000 := by
    rw [← Nat.pow_add, Nat.add_sub_cancel' short]
  have product : Text.value digits * 10 ^ (9 - digits.length) < 1000000000 := by
    rw [← whole]
    exact Nat.mul_lt_mul_of_pos_right small (Nat.pow_pos (by decide))
  rw [nanosOfDigits_eq]
  omega

theorem digits_yields (least most : Nat) :
    Yields (fun run => Text.isDigits run = true ∧ run.length ≤ most) (digits least most) := by
  intro t
  change Gives _ (digits least most t)
  unfold digits
  simp only
  split
  next =>
    refine ⟨List.all_takeWhile, ?_⟩
    have shorter := (List.takeWhile_prefix (l := t.take most) Char.isDigit).length_le
    exact Nat.le_trans shorter (List.length_take_le most t)
  next => split <;> trivial

theorem number_yields (width : Nat) : Yields (0 ≤ ·) (number width) :=
  (digits_yields width width).bind fun _ _ => Yields.pure (Int.natCast_nonneg _)

end Scan

end ZonedTime
