import Mathlib.Data.List.DropRight
import ZonedTime.Duration.Written
import ZonedTime.Proofs.Written.Rfc3339Words

set_option autoImplicit false

namespace ZonedTime

open Text (isDigits decimal padded)

namespace Text

theorem dropRight_append_replicate (c : Char) (t : Text) :
    ∃ n, dropRight c t ++ List.replicate n c = t := by
  have same : t.rtakeWhile (· == c) = List.replicate (t.rtakeWhile (· == c)).length c := by
    refine List.eq_replicate_of_mem fun d dropped => ?_
    simpa using List.mem_rtakeWhile_imp dropped
  have split : dropRight c t ++ t.rtakeWhile (· == c) = t := List.rdropWhile_append_rtakeWhile
  rw [same] at split
  exact ⟨_, split⟩

theorem getLast?_dropRight (c : Char) (t : Text) : (dropRight c t).getLast? ≠ some c := by
  intro last
  obtain ⟨kept, same⟩ := List.getLast?_eq_some_iff.mp last
  have some : t.rdropWhile (· == c) ≠ [] := by
    rw [show t.rdropWhile (· == c) = kept ++ [c] from same]
    simp
  have other := List.rdropWhile_last_not _ _ some
  simp [show t.rdropWhile (· == c) = kept ++ [c] from same] at other

theorem dropRight_cons {c d : Char} (other : d ≠ c) (t : Text) :
    dropRight c (d :: t) = d :: dropRight c t := by
  unfold dropRight
  rw [List.reverse_cons, List.dropWhile_append]
  split
  next empty => simp [List.isEmpty_iff.mp empty, other]
  next => simp

theorem decimal_zero : decimal 0 = ['0'] := by
  rw [decimal]
  rfl

end Text

namespace Rfc3339.Fraction

theorem tail_text (f : Fraction) : f.text.tail = f.digits := by
  unfold text
  split
  next none => rw [none, List.tail_nil]
  next => rfl

theorem noDigit_text (f : Fraction) : NoDigit f.text := by
  unfold text
  split
  next => exact noDigit_nil
  next => exact noDigit_cons rfl

theorem text_injective : Function.Injective text := by
  intro f g same
  have digits : f.digits = g.digits := by rw [← tail_text, same, tail_text]
  cases f
  cases g
  cases digits
  rfl

end Rfc3339.Fraction

namespace Duration

structure Count where
  digits : Text
  numeral : isDigits digits = true
  filled : digits ≠ []

structure Seconds where
  whole : Count
  fraction : Rfc3339.Fraction

structure Word where
  negative : Bool
  hours : Option Count
  minutes : Option Count
  seconds : Option Seconds

namespace Count

def value (count : Count) : Nat := Text.value count.digits

def ofNat (n : Nat) : Count where
  digits := decimal n
  numeral := Text.isDigits_decimal n
  filled := by
    obtain ⟨c, rest, same, -⟩ := Text.decimal_head n
    rw [same]
    exact List.cons_ne_nil c rest

end Count

namespace Seconds

def text (seconds : Seconds) : Text := seconds.whole.digits ++ seconds.fraction.text

def nanos (seconds : Seconds) : Int := 1000000000 * seconds.whole.value + seconds.fraction.nanos

end Seconds

def lettered (letter : Char) : Option Text -> Text
  | none => []
  | some t => t ++ [letter]

namespace Word

def parts (word : Word) : Text :=
  lettered 'H' (word.hours.map Count.digits) ++ (lettered 'M' (word.minutes.map Count.digits) ++
    lettered 'S' (word.seconds.map Seconds.text))

def text (word : Word) : Text :=
  (if word.negative then ['-'] else []) ++ 'P' :: 'T' :: word.parts

def size (word : Word) : Int :=
  3600000000000 * word.hours.elim 0 Count.value + 60000000000 * word.minutes.elim 0 Count.value
    + word.seconds.elim 0 Seconds.nanos

def nanos (word : Word) : Int := if word.negative then -word.size else word.size

structure Canonical (word : Word) : Prop where
  some : word.hours.isSome ∨ word.minutes.isSome ∨ word.seconds.isSome
  minutes : ∀ minutes ∈ word.minutes, minutes.value ≤ 59
  seconds : ∀ seconds ∈ word.seconds, seconds.nanos < 60000000000
  fraction : ∀ seconds ∈ word.seconds, seconds.fraction.digits.getLast? ≠ Option.some '0'

end Word

def Denotes (t : Text) (nanos : Int) : Prop := ∃ word : Word, word.text = t ∧ word.nanos = nanos

theorem not_mem_lettered {c letter : Char} {part : Option Text} (plain : ∀ t ∈ part, c ∉ t)
    (other : c ≠ letter) : c ∉ lettered letter part := by
  cases part with
  | none => exact List.not_mem_nil
  | some t => simp [lettered, plain t rfl, other]

/-- The first letter in a text ends the first part, if no other character is that letter. -/
theorem lettered_append_inj {letter : Char} {part other : Option Text} {rest later : Text}
    (plain : ∀ t ∈ other, letter ∉ t) (ended : letter ∉ rest) (endedOther : letter ∉ later)
    (same : lettered letter part ++ rest = lettered letter other ++ later) :
    part = other ∧ rest = later := by
  -- A letter that ends one part only stands in the rest of the other text.
  cases part with
  | none =>
    cases other with
    | none => exact ⟨rfl, same⟩
    | some t =>
      refine absurd ?_ ended
      rw [show rest = (t ++ [letter]) ++ later from same]
      simp
  | some t =>
    cases other with
    | none =>
      refine absurd ?_ endedOther
      rw [show later = (t ++ [letter]) ++ rest from same.symm]
      simp
    | some u =>
      have split : t ++ letter :: rest = u ++ letter :: later := by simpa [lettered] using same
      obtain ⟨equal, -, following⟩ :=
        (List.append_cons_inj_of_notMem (plain u rfl) endedOther).mp split.symm
      exact ⟨by rw [equal], following.symm⟩

namespace Count

theorem isDigit_of_mem {count : Count} {c : Char} (member : c ∈ count.digits) :
    c.isDigit = true :=
  List.all_eq_true.mp count.numeral c member

theorem digits_injective : Function.Injective digits := by
  intro count other same
  cases count
  cases other
  cases same
  rfl

theorem not_mem_part {c : Char} (plain : c.isDigit = false) (part : Option Count) :
    ∀ t ∈ part.map digits, c ∉ t := by
  intro t written member
  obtain ⟨count, -, rfl⟩ := Option.map_eq_some_iff.mp written
  rw [isDigit_of_mem member] at plain
  cases plain

theorem value_ofNat (n : Nat) : (ofNat n).value = n := Text.value_decimal n

end Count

namespace Seconds

theorem of_mem_text {seconds : Seconds} {c : Char} (member : c ∈ seconds.text) :
    c.isDigit = true ∨ c = '.' := by
  unfold text Rfc3339.Fraction.text at member
  split at member
  next =>
    rw [List.append_nil] at member
    exact .inl (Count.isDigit_of_mem member)
  next =>
    rcases List.mem_append.mp member with whole | fraction
    next => exact .inl (Count.isDigit_of_mem whole)
    next =>
      rcases List.mem_cons.mp fraction with point | digit
      next => exact .inr point
      next => exact .inl (List.all_eq_true.mp seconds.fraction.numeral c digit)

theorem not_mem_part {c : Char} (plain : c.isDigit = false) (noPoint : c ≠ '.')
    (part : Option Seconds) : ∀ t ∈ part.map text, c ∉ t := by
  intro t written member
  obtain ⟨seconds, -, rfl⟩ := Option.map_eq_some_iff.mp written
  rcases of_mem_text member with digit | point
  next =>
    rw [digit] at plain
    cases plain
  next => exact noPoint point

theorem text_injective : Function.Injective text := by
  intro seconds other same
  -- The whole seconds are the leading digits, and the fraction is what they leave.
  have taken (seconds : Seconds) : seconds.text.takeWhile Char.isDigit = seconds.whole.digits :=
    takeWhile_isDigit seconds.whole.numeral seconds.fraction.noDigit_text
  have whole : seconds.whole.digits = other.whole.digits := by rw [← taken, same, taken]
  have fraction : seconds.fraction.text = other.fraction.text := by
    unfold text at same
    rw [whole] at same
    exact List.append_cancel_left same
  cases seconds
  cases other
  cases Count.digits_injective whole
  cases Rfc3339.Fraction.text_injective fraction
  rfl

end Seconds

namespace Word

theorem parts_injective {word other : Word} (same : word.parts = other.parts) :
    word.hours = other.hours ∧ word.minutes = other.minutes ∧ word.seconds = other.seconds := by
  have noMinute (word : Word) : 'M' ∉ lettered 'S' (word.seconds.map Seconds.text) :=
    not_mem_lettered (Seconds.not_mem_part rfl (by decide) _) (by decide)
  have noHour (word : Word) : 'H' ∉ lettered 'M' (word.minutes.map Count.digits) ++
      lettered 'S' (word.seconds.map Seconds.text) := by
    rw [List.mem_append, not_or]
    exact ⟨not_mem_lettered (Count.not_mem_part rfl _) (by decide),
      not_mem_lettered (Seconds.not_mem_part rfl (by decide) _) (by decide)⟩
  obtain ⟨hours, fromMinutes⟩ :=
    lettered_append_inj (Count.not_mem_part rfl _) (noHour word) (noHour other) same
  obtain ⟨minutes, fromSeconds⟩ :=
    lettered_append_inj (Count.not_mem_part rfl _) (noMinute word) (noMinute other) fromMinutes
  -- Nothing follows the seconds.
  rw [← List.append_nil (lettered 'S' _), ← List.append_nil (lettered 'S' (other.seconds.map _))]
    at fromSeconds
  obtain ⟨seconds, -⟩ := lettered_append_inj (Seconds.not_mem_part rfl (by decide) _)
    List.not_mem_nil List.not_mem_nil fromSeconds
  exact ⟨Option.map_injective Count.digits_injective hours,
    Option.map_injective Count.digits_injective minutes,
    Option.map_injective Seconds.text_injective seconds⟩

theorem text_injective : Function.Injective text := by
  intro word other same
  have head (word : Word) : word.text.head? = Option.some (if word.negative then '-' else 'P') := by
    unfold text
    cases word.negative <;> rfl
  have negative : word.negative = other.negative := by
    have heads := head word
    rw [same, head other] at heads
    cases sign : word.negative <;> cases signOther : other.negative <;> simp_all
  have parts : word.parts = other.parts := by
    unfold text at same
    rw [negative] at same
    simpa using same
  obtain ⟨hours, minutes, seconds⟩ := parts_injective parts
  cases word
  cases other
  cases negative
  cases hours
  cases minutes
  cases seconds
  rfl

theorem denotes_iff (word : Word) (nanos : Int) : Denotes word.text nanos ↔ nanos = word.nanos := by
  constructor
  next =>
    intro denoted
    obtain ⟨other, same, rfl⟩ := denoted
    rw [text_injective same]
  next =>
    intro amount
    exact ⟨word, rfl, amount.symm⟩

end Word

theorem exists_sizeParts (duration : Duration) :
    ∃ hours minutes seconds nanos : Nat, duration.sizeParts = ⟨hours, minutes, seconds, nanos⟩
      ∧ minutes ≤ 59 ∧ seconds ≤ 59 ∧ nanos < 1000000000
      ∧ duration.nanos.natAbs = 3600000000000 * hours + 60000000000 * minutes
        + 1000000000 * seconds + nanos := by
  have parts : duration.sizeParts = ⟨(duration.nanos.natAbs / 3600000000000 : Nat),
      (duration.nanos.natAbs % 3600000000000 / 60000000000 : Nat),
      (duration.nanos.natAbs % 60000000000 / 1000000000 : Nat),
      (duration.nanos.natAbs % 1000000000 : Nat)⟩ := rfl
  exact ⟨_, _, _, _, parts, by omega, by omega, by omega, by omega⟩

theorem exists_fraction {nanos : Nat} (small : nanos < 1000000000) :
    ∃ f : Rfc3339.Fraction, f.text = shortFraction nanos ∧ f.nanos = nanos
      ∧ f.digits.getLast? ≠ some '0' := by
  by_cases zero : nanos = 0
  next =>
    subst zero
    exact ⟨⟨[], rfl, Nat.zero_le 9⟩, rfl, rfl, by simp⟩
  next =>
    obtain ⟨dropped, split⟩ := Text.dropRight_append_replicate '0' (padded 9 nanos)
    have length : (padded 9 nanos).length = 9 := Text.padded_length (by decide) small
    have value := Text.value_padded 9 nanos
    have numeral := Text.isDigits_padded 9 nanos
    rw [← split] at length value numeral
    rw [List.length_append, List.length_replicate] at length
    rw [Text.value_append, Text.value_zeros, Nat.add_zero, List.length_replicate] at value
    rw [Text.isDigits_append, Bool.and_eq_true] at numeral
    have filled : Text.dropRight '0' (padded 9 nanos) ≠ [] := by
      intro none
      rw [none, Text.value_nil, Nat.zero_mul] at value
      exact zero value.symm
    refine ⟨⟨Text.dropRight '0' (padded 9 nanos), numeral.1, by omega⟩, ?_, ?_,
      Text.getLast?_dropRight '0' _⟩
    next =>
      rw [Rfc3339.Fraction.text, if_neg filled, shortFraction, if_neg zero,
        Text.dropRight_cons (by decide)]
    next =>
      have places : dropped = 9 - (Text.dropRight '0' (padded 9 nanos)).length := by omega
      rw [places] at value
      exact congrArg Nat.cast value

theorem part_eq_nil {n : Nat} {letter : Char} : part n letter = [] ↔ n = 0 := by
  unfold part
  split <;> simp_all

def Count.shown (n : Nat) : Option Count := if n = 0 then none else some (.ofNat n)

namespace Count

theorem part_eq (n : Nat) (letter : Char) :
    part n letter = lettered letter ((shown n).map digits) := by
  unfold part shown
  split <;> rfl

theorem elim_shown (n : Nat) : (shown n).elim 0 value = n := by
  unfold shown
  split
  next zero => exact zero.symm
  next => exact value_ofNat n

theorem value_of_mem_shown {n : Nat} {count : Count} (member : count ∈ shown n) :
    count.value = n := by
  have amount := elim_shown n
  rwa [Option.mem_def.mp member] at amount

theorem isSome_shown (n : Nat) : (shown n).isSome = true ↔ n ≠ 0 := by
  unfold shown
  split <;> simp_all

end Count

namespace Word

def shown (negative : Bool) (hours minutes seconds : Nat) (f : Rfc3339.Fraction) : Word where
  negative := negative
  hours := Count.shown hours
  minutes := Count.shown minutes
  seconds :=
    if hours = 0 ∧ minutes = 0 ∨ seconds ≠ 0 ∨ f.nanos ≠ 0 then some ⟨.ofNat seconds, f⟩ else none

section

variable (negative : Bool) {hours minutes seconds nanos : Nat} {f : Rfc3339.Fraction}

theorem shown_canonical (short : minutes ≤ 59) (shorter : seconds ≤ 59)
    (small : f.nanos < 1000000000) (trimmed : f.digits.getLast? ≠ some '0') :
    (shown negative hours minutes seconds f).Canonical := by
  constructor
  case some =>
    by_cases noHours : hours = 0
    next =>
      by_cases noMinutes : minutes = 0
      next => exact .inr (.inr (by simp [shown, noHours, noMinutes]))
      next => exact .inr (.inl ((Count.isSome_shown minutes).mpr noMinutes))
    next => exact .inl ((Count.isSome_shown hours).mpr noHours)
  case minutes =>
    intro count member
    rw [Count.value_of_mem_shown member]
    exact short
  case seconds =>
    intro last member
    obtain ⟨-, same⟩ := Option.ite_none_right_eq_some.mp member
    cases same
    rw [Seconds.nanos, Count.value_ofNat]
    simp only
    omega
  case fraction =>
    intro last member
    obtain ⟨-, same⟩ := Option.ite_none_right_eq_some.mp member
    cases same
    exact trimmed

theorem size_shown : (shown negative hours minutes seconds f).size =
    3600000000000 * hours + 60000000000 * minutes + 1000000000 * seconds + f.nanos := by
  have last : (shown negative hours minutes seconds f).seconds.elim 0 Seconds.nanos =
      1000000000 * seconds + f.nanos := by
    unfold shown
    split
    next => rw [Option.elim_some, Seconds.nanos, Count.value_ofNat]
    next zero =>
      simp only [not_or, Decidable.not_not] at zero
      rw [Option.elim_none, zero.2.1, zero.2.2]
      rfl
  rw [size, last]
  simp only [shown, Count.elim_shown]
  omega

theorem parts_shown (written : f.text = shortFraction nanos) (exact : f.nanos = nanos) :
    (shown negative hours minutes seconds f).parts =
      (if (isoParts ⟨hours, minutes, seconds, nanos⟩).isEmpty then ['0', 'S']
        else isoParts ⟨hours, minutes, seconds, nanos⟩) := by
  simp only [parts, shown, exact, isoParts, Int.toNat_natCast, ← Count.part_eq, Int.natCast_eq_zero,
    ne_eq, List.isEmpty_iff]
  by_cases zero : seconds = 0 ∧ nanos = 0
  next =>
    obtain ⟨rfl, rfl⟩ := zero
    by_cases first : hours = 0 ∧ minutes = 0
    next =>
      obtain ⟨rfl, rfl⟩ := first
      simp [part, lettered, Seconds.text, Count.ofNat, written, shortFraction, Text.decimal_zero]
    next =>
      have some : part hours 'H' ++ part minutes 'M' ≠ [] := by
        simpa [part_eq_nil] using first
      simp only [and_self, if_true, List.append_nil, if_neg some]
      simp [lettered, first]
  next =>
    rw [if_pos (by omega), if_neg zero, if_neg (by simp)]
    simp [lettered, Seconds.text, Count.ofNat, written]

end

end Word

theorem exists_word (duration : Duration) :
    ∃ word : Word, word.Canonical ∧ word.text = duration.toIso ∧ word.nanos = duration.nanos := by
  obtain ⟨hours, minutes, seconds, nanos, parts, short, shorter, small, total⟩ :=
    exists_sizeParts duration
  obtain ⟨f, written, exact, trimmed⟩ := exists_fraction small
  refine ⟨.shown (duration.nanos < 0) hours minutes seconds f, ?_, ?_, ?_⟩
  next => exact Word.shown_canonical _ short shorter (by omega) trimmed
  next =>
    rw [Word.text, Word.parts_shown _ written exact, toIso, parts]
    simp [sign, Word.shown]
  next =>
    rw [Word.nanos, Word.size_shown]
    simp only [Word.shown, decide_eq_true_eq]
    split <;> omega

/-- What is written is in canonical form, and it denotes this amount and no other. -/
theorem toIso_denotes (duration : Duration) :
    (∃ word : Word, word.Canonical ∧ word.text = duration.toIso)
      ∧ (∀ nanos, Denotes duration.toIso nanos ↔ nanos = duration.nanos)
      ∧ ∀ other : Duration, duration.toIso = other.toIso ↔ duration = other := by
  obtain ⟨word, canonical, written, amount⟩ := exists_word duration
  have denoted (nanos : Int) : Denotes duration.toIso nanos ↔ nanos = duration.nanos := by
    rw [← written, ← amount]
    exact word.denotes_iff nanos
  refine ⟨⟨word, canonical, written⟩, denoted, fun other => ⟨fun same => ?_, fun same => ?_⟩⟩
  next =>
    obtain ⟨word, -, written, amount⟩ := exists_word other
    have equal : other.nanos = duration.nanos :=
      (denoted other.nanos).mp ⟨word, written.trans same.symm, amount⟩
    cases duration
    cases other
    cases equal
    rfl
  next => rw [same]

end Duration

end ZonedTime
