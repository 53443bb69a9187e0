import Mathlib.Tactic.IntervalCases
import Mathlib.Tactic.Ring
import ZonedTime.Text.Blank

set_option autoImplicit false

namespace ZonedTime.Text

@[simp] theorem digitValue_digitChar (n : Nat) : digitValue (digitChar n) = n % 10 := by
  have small : n % 10 < 10 := Nat.mod_lt n (by decide)
  unfold digitValue digitChar
  generalize n % 10 = digit at small
  interval_cases digit <;> rfl

@[simp] theorem isDigit_digitChar (n : Nat) : (digitChar n).isDigit = true := by
  have small : n % 10 < 10 := Nat.mod_lt n (by decide)
  unfold digitChar
  generalize n % 10 = digit at small
  interval_cases digit <;> rfl

theorem isDigit_bounds {c : Char} (digit : c.isDigit = true) :
    48 ≤ c.toNat ∧ c.toNat ≤ 57 := by
  simp only [Char.isDigit, Bool.and_eq_true, decide_eq_true_eq, UInt32.le_iff_toNat_le] at digit
  exact digit

theorem digitValue_lt {c : Char} (digit : c.isDigit = true) : digitValue c < 10 := by
  have bounds := isDigit_bounds digit
  unfold digitValue
  omega

theorem isDigit_ascii {c : Char} (digit : c.isDigit = true) : c.toNat < 128 := by
  have bounds := isDigit_bounds digit
  omega

theorem not_isBlank_of_isDigit {c : Char} (digit : c.isDigit = true) : isBlank c = false := by
  have bounds := isDigit_bounds digit
  simp [isBlank]
  omega

theorem not_isAsciiSpace_of_isDigit {c : Char} (digit : c.isDigit = true) :
    isAsciiSpace c = false := by
  have bounds := isDigit_bounds digit
  simp [isAsciiSpace]
  omega

theorem isAlpha_bounds {c : Char} (letter : c.isAlpha = true) :
    65 ≤ c.toNat ∧ c.toNat ≤ 90 ∨ 97 ≤ c.toNat ∧ c.toNat ≤ 122 := by
  unfold Char.isAlpha Char.isUpper Char.isLower at letter
  simp only [Bool.or_eq_true, Bool.and_eq_true, decide_eq_true_eq, UInt32.le_iff_toNat_le,
    ge_iff_le] at letter
  exact letter

theorem isAlpha_ascii {c : Char} (letter : c.isAlpha = true) : c.toNat < 128 := by
  have bounds := isAlpha_bounds letter
  omega

theorem not_isAlpha_of_isDigit {c : Char} (digit : c.isDigit = true) : c.isAlpha = false := by
  refine Bool.eq_false_iff.mpr fun letter => ?_
  have low := isDigit_bounds digit
  have high := isAlpha_bounds letter
  omega

theorem isAlpha_of_toLower {c : Char} (letter : c.toLower.isAlpha = true) : c.isAlpha = true := by
  by_cases upper : 'A'.val ≤ c.val ∧ c.val ≤ 'Z'.val
  next =>
    have large : c.isUpper = true := by
      unfold Char.isUpper
      exact decide_eq_true upper
    unfold Char.isAlpha
    rw [large, Bool.true_or]
  next =>
    unfold Char.toLower at letter
    rwa [dif_neg upper] at letter

@[simp] theorem isDigits_nil : isDigits [] = true := rfl

@[simp] theorem isDigits_cons (c : Char) (t : Text) :
    isDigits (c :: t) = (c.isDigit && isDigits t) := rfl

@[simp] theorem isDigits_append (s t : Text) : isDigits (s ++ t) = (isDigits s && isDigits t) :=
  List.all_append

theorem isDigits_replicate (n : Nat) : isDigits (List.replicate n '0') = true := by
  induction n with
  | zero => rfl
  | succ n ih => simpa [List.replicate_succ] using ih

theorem isDigits_take {t : Text} (digits : isDigits t = true) (n : Nat) :
    isDigits (t.take n) = true := by
  rw [← List.take_append_drop n t, isDigits_append, Bool.and_eq_true] at digits
  exact digits.1

theorem isDigits_decimal (n : Nat) : isDigits (decimal n) = true := by
  induction n using decimal.induct with
  | case1 n small =>
    rw [decimal, if_pos small, isDigits_cons, isDigit_digitChar, isDigits_nil, Bool.and_true]
  | case2 n large ih =>
    rw [decimal, if_neg large, isDigits_append, ih, isDigits_cons, isDigit_digitChar,
      isDigits_nil, Bool.and_true, Bool.and_true]

@[simp] theorem value_nil : value [] = 0 := rfl

@[simp] theorem value_singleton (c : Char) : value [c] = digitValue c := by
  rw [value, List.foldl_cons, List.foldl_nil, Nat.mul_zero, Nat.zero_add]

theorem foldl_value (start : Nat) (t : Text) :
    t.foldl (fun total c => 10 * total + digitValue c) start = start * 10 ^ t.length + value t := by
  induction t generalizing start with
  | nil => simp
  | cons c rest ih =>
    have tail : value (c :: rest) = digitValue c * 10 ^ rest.length + value rest := by
      rw [value, List.foldl_cons, ih, Nat.mul_zero, Nat.zero_add]
    rw [List.foldl_cons, ih, tail, List.length_cons]
    ring

theorem value_append (s t : Text) : value (s ++ t) = value s * 10 ^ t.length + value t := by
  rw [value, List.foldl_append, foldl_value]
  rfl

theorem value_cons (c : Char) (t : Text) :
    value (c :: t) = digitValue c * 10 ^ t.length + value t := by
  rw [← value_singleton c, ← value_append, List.singleton_append]

theorem value_zeros (n : Nat) : value (List.replicate n '0') = 0 := by
  induction n with
  | zero => rfl
  | succ n ih =>
    rw [List.replicate_succ, value_cons, ih, show digitValue '0' = 0 from rfl, Nat.zero_mul]

theorem value_decimal (n : Nat) : value (decimal n) = n := by
  induction n using decimal.induct with
  | case1 n small =>
    rw [decimal, if_pos small, value_singleton, digitValue_digitChar, Nat.mod_eq_of_lt small]
  | case2 n large ih =>
    rw [decimal, if_neg large, value_append, ih, value_singleton, digitValue_digitChar]
    simp only [List.length_singleton, Nat.pow_one]
    omega

theorem value_lt {t : Text} (digits : isDigits t = true) : value t < 10 ^ t.length := by
  induction t with
  | nil => decide
  | cons c rest ih =>
    simp only [isDigits_cons, Bool.and_eq_true] at digits
    have head := digitValue_lt digits.1
    have tail := ih digits.2
    have bound : digitValue c * 10 ^ rest.length ≤ 9 * 10 ^ rest.length :=
      Nat.mul_le_mul_right _ (by omega)
    rw [value_cons, List.length_cons, Nat.pow_succ]
    omega

theorem eq_of_value_eq {s t : Text} (digits : isDigits s = true) (others : isDigits t = true)
    (length : s.length = t.length) (same : value s = value t) : s = t := by
  induction s generalizing t with
  | nil => exact (List.length_eq_zero_iff.mp length.symm).symm
  | cons c rest ih =>
    cases t with
    | nil => cases length
    | cons d later =>
      simp only [isDigits_cons, Bool.and_eq_true] at digits others
      have shorter := Nat.succ.inj length
      have small := value_lt digits.2
      have smaller := value_lt others.2
      rw [value_cons, value_cons, shorter, Nat.mul_comm, Nat.mul_comm (digitValue d)] at same
      rw [shorter] at small
      have place : 0 < 10 ^ later.length := Nat.pow_pos (by decide)
      -- The first digit is the quotient by a power of ten, and the others are the rest.
      have first : digitValue c = digitValue d := by
        have quotient := congrArg (· / 10 ^ later.length) same
        simpa only [Nat.mul_add_div place, Nat.div_eq_of_lt small, Nat.div_eq_of_lt smaller,
          Nat.add_zero] using quotient
      have equal : c = d := by
        have bounds := isDigit_bounds digits.1
        have bound := isDigit_bounds others.1
        unfold digitValue at first
        exact Char.toNat_inj.mp (by omega)
      rw [first] at same
      rw [equal, ih digits.2 others.2 shorter (Nat.add_left_cancel same)]

theorem value_take {t : Text} (digits : isDigits t = true) (n : Nat) :
    value (t.take n) = value t / 10 ^ (t.length - n) := by
  have split := List.take_append_drop n t
  have rest : isDigits (t.drop n) = true := by
    rw [← split, isDigits_append, Bool.and_eq_true] at digits
    exact digits.2
  have small := value_lt rest
  have total := value_append (t.take n) (t.drop n)
  rw [split] at total
  rw [List.length_drop] at small total
  rw [total, Nat.mul_comm, Nat.mul_add_div (Nat.pos_of_ne_zero (by simp)),
    Nat.div_eq_of_lt small, Nat.add_zero]

theorem decimal_length_le {width n : Nat} (positive : 0 < width) (small : n < 10 ^ width) :
    (decimal n).length ≤ width := by
  induction width generalizing n with
  | zero => omega
  | succ width ih =>
    by_cases digit : n < 10
    next =>
      rw [decimal, if_pos digit, List.length_singleton]
      omega
    next =>
      rw [decimal, if_neg digit, List.length_append, List.length_singleton]
      have shorter : n / 10 < 10 ^ width := by
        rw [Nat.pow_succ] at small
        omega
      have more : 0 < width := by
        rcases Nat.eq_zero_or_pos width with rfl | more
        next => simp at small; omega
        next => exact more
      have := ih more shorter
      omega

theorem decimal_head (n : Nat) : ∃ c rest, decimal n = c :: rest ∧ c.isDigit = true := by
  have digits := isDigits_decimal n
  cases same : decimal n with
  | nil =>
    unfold decimal at same
    split at same <;> simp at same
  | cons c rest =>
    simp only [same, isDigits_cons, Bool.and_eq_true] at digits
    exact ⟨c, rest, rfl, digits.1⟩

theorem padded_eq (width n : Nat) :
    padded width n = List.replicate (width - (decimal n).length) '0' ++ decimal n := rfl

theorem isDigits_padded (width n : Nat) : isDigits (padded width n) = true := by
  rw [padded_eq, isDigits_append, isDigits_replicate, isDigits_decimal, Bool.and_true]

@[simp] theorem value_padded (width n : Nat) : value (padded width n) = n := by
  rw [padded_eq, value_append, value_zeros, value_decimal, Nat.zero_mul, Nat.zero_add]

theorem padded_length {width n : Nat} (positive : 0 < width) (small : n < 10 ^ width) :
    (padded width n).length = width := by
  have := decimal_length_le positive small
  rw [padded_eq, List.length_append, List.length_replicate]
  omega

theorem padded_head {width n : Nat} (positive : 0 < width) (small : n < 10 ^ width) :
    ∃ c rest, padded width n = c :: rest ∧ c.isDigit = true := by
  have length := padded_length positive small
  have digits := isDigits_padded width n
  cases same : padded width n with
  | nil => simp [same, Nat.ne_of_lt positive] at length
  | cons c rest =>
    simp only [same, isDigits_cons, Bool.and_eq_true] at digits
    exact ⟨c, rest, rfl, digits.1⟩

@[simp] theorem isAscii_cons (c : Char) (t : Text) :
    isAscii (c :: t) = (decide (c.toNat < 128) && isAscii t) := rfl

@[simp] theorem isAscii_append (s t : Text) : isAscii (s ++ t) = (isAscii s && isAscii t) :=
  List.all_append

theorem isAscii_of_isDigits {t : Text} (digits : isDigits t = true) : isAscii t = true := by
  induction t with
  | nil => rfl
  | cons c rest ih =>
    simp only [isDigits_cons, Bool.and_eq_true] at digits
    simp [isDigit_ascii digits.1, ih digits.2]

end ZonedTime.Text
