import ZonedTime.Proofs.Text.Recognition
import ZonedTime.Proofs.Written.Rfc3339

/-!
The words of the strict form, `2018-01-11T10:05:13.08466+08:00`, field by field, and what the
scanner makes of them and of all other texts. A fraction alone is no word, as more digits can
follow: what ends it is the offset, so the two of them are read as one.
-/

set_option autoImplicit false

namespace ZonedTime.Rfc3339

open Text (isDigits)

/-- One to nine digits after a point, or none of both. -/
structure Fraction where
  digits : Text
  numeral : isDigits digits = true
  short : digits.length ≤ 9

namespace Fraction

def text (f : Fraction) : Text := if f.digits = [] then [] else '.' :: f.digits

-- The digits that are not written are zeros.
def nanos (f : Fraction) : Int := (Text.value f.digits * 10 ^ (9 - f.digits.length) : Nat)

theorem nanosOfDigits_digits (f : Fraction) : Scan.nanosOfDigits f.digits = f.nanos :=
  Scan.nanosOfDigits_eq f.digits

end Fraction

inductive Suffix where
  | letter (c : Char) (zulu : c = 'Z' ∨ c = 'z')
  | signed (west : Bool) (hours minutes : Numeral 2)

namespace Suffix

def text : Suffix -> Text
  | letter c _ => [c]
  | signed west hours minutes =>
    (if west then '-' else '+') :: (hours.digits ++ ':' :: minutes.digits)

def parts : Suffix -> Bool × Int × Int
  | letter _ _ => (false, 0, 0)
  | signed west hours minutes => (west, hours.value, minutes.value)

def minutes (suffix : Suffix) : Int := suffix.parts.2.2

def seconds (suffix : Suffix) : Int := total suffix.parts

end Suffix

structure Word where
  year : Numeral 4
  month : Numeral 2
  day : Numeral 2
  separator : Char
  separates : separator = 'T' ∨ separator = 't' ∨ separator = ' '
  hour : Numeral 2
  minute : Numeral 2
  second : Numeral 2
  fraction : Fraction
  suffix : Suffix

namespace Word

def text (word : Word) : Text :=
  word.year.digits ++ '-' :: (word.month.digits ++ '-' :: (word.day.digits ++ word.separator ::
    (word.hour.digits ++ ':' :: (word.minute.digits ++ ':' :: (word.second.digits ++
      (word.fraction.text ++ word.suffix.text))))))

/-- The stamp as it is read, in which second 60 is still unfolded. -/
def stamp (word : Word) (offset : Int) : Stamp where
  year := word.year.value
  month := word.month.value
  day := word.day.value
  hour := word.hour.value
  minute := word.minute.value
  second := word.second.value
  nano := word.fraction.nanos
  offset := offset

end Word

theorem hoursAndMinutes_recognises (west : Bool) :
    Recognises (hoursAndMinutes west)
      (Listed (fun n : Numeral 2 × Numeral 2 => n.1.digits ++ ':' :: n.2.digits)
        fun n => (west, n.1.value, n.2.value)) :=
  (Scan.number_recognises 2).bind_listed fun hours =>
    ((Scan.number_recognises 2).andThen fun minutes => (west, hours, minutes)).after_char ':'

theorem offset_recognises : Recognises offset (Listed Suffix.text Suffix.parts) := by
  have later (c : Char) :
      Recognises (if c == 'Z' || c == 'z' then pure (false, 0, 0) else hoursAndMinutes (c == '-'))
        fun w parts =>
          if c == 'Z' || c == 'z' then Listed (fun _ : Unit => []) (fun _ => (false, 0, 0)) w parts
          else Listed (fun n : Numeral 2 × Numeral 2 => n.1.digits ++ ':' :: n.2.digits)
            (fun n => (c == '-', n.1.value, n.2.value)) w parts := by
    split
    next => exact .pure _
    next => exact hoursAndMinutes_recognises _
  refine ((Scan.one_recognises _ (c := 'Z') rfl).bind later).congr fun w parts => ⟨?_, ?_⟩
  next =>
    rintro ⟨_, v, _, ⟨⟨c, accepted⟩, rfl, rfl⟩, stated, rfl⟩
    split at stated
    next zulu =>
      obtain ⟨_, rfl, rfl⟩ := stated
      exact ⟨.letter c (by simpa using zulu), rfl, rfl⟩
    next other =>
      obtain ⟨⟨hours, minutes⟩, rfl, rfl⟩ := stated
      refine ⟨.signed (c == '-') hours minutes, ?_, rfl⟩
      have sign : c = '+' ∨ c = '-' := by simpa [other] using accepted
      rcases sign with rfl | rfl <;> rfl
  next =>
    rintro ⟨_ | ⟨west, hours, minutes⟩, rfl, rfl⟩
    next c zulu =>
      rcases zulu with rfl | rfl
      next => exact ⟨_, [], _, ⟨⟨'Z', rfl⟩, rfl, rfl⟩, ⟨(), rfl, rfl⟩, rfl⟩
      next => exact ⟨_, [], _, ⟨⟨'z', rfl⟩, rfl, rfl⟩, ⟨(), rfl, rfl⟩, rfl⟩
    next =>
      cases west with
      | true => exact ⟨_, _, _, ⟨⟨'-', rfl⟩, rfl, rfl⟩, ⟨(hours, minutes), rfl, rfl⟩, rfl⟩
      | false => exact ⟨_, _, _, ⟨⟨'+', rfl⟩, rfl, rfl⟩, ⟨(hours, minutes), rfl, rfl⟩, rfl⟩

namespace Fraction

/-- A text after the fraction that does not go on with it. -/
def EndsAt (f : Fraction) (rest : Text) : Prop :=
  ∀ c ∈ rest.head?, if f.digits = [] then (c == '.') = false else c.isDigit = false

theorem EndsAt.append {f : Fraction} {rest : Text} (ends : f.EndsAt rest) (some : rest ≠ [])
    (more : Text) : f.EndsAt (rest ++ more) := by
  cases rest with
  | nil => exact absurd rfl some
  | cons c rest => exact ends

theorem endsAt_suffix (f : Fraction) (suffix : Suffix) (rest : Text) :
    f.EndsAt (suffix.text ++ rest) := by
  cases suffix with
  | letter c zulu =>
    rintro _ ⟨⟩
    rcases zulu with rfl | rfl <;> split <;> rfl
  | signed west hours minutes =>
    rintro _ ⟨⟩
    cases west <;> split <;> rfl

/-- Whatever reads the digits reads the fraction with them. -/
theorem reads_by (f : Fraction) {rest : Text} (ends : f.EndsAt rest) {run : Scan Int}
    (reads : 0 < f.digits.length → NoDigit rest → Reads run (f.digits ++ rest) f.nanos rest) :
    Reads (do if (<- Scan.optional '.') then run else return 0) (f.text ++ rest) f.nanos
      rest := by
  unfold EndsAt at ends
  unfold text
  by_cases none : f.digits = []
  next =>
    simp only [none, if_true] at ends
    have zero : f.nanos = 0 := by
      rw [← nanosOfDigits_digits, none]
      rfl
    rw [if_pos none, zero]
    exact (Scan.reads_noOptional ends).bind (.pure 0 rest)
  next =>
    simp only [none, if_false] at ends
    rw [if_neg none]
    exact (Scan.reads_optional '.' _).bind (reads (List.length_pos_iff.mpr none) ends)

theorem reads (f : Fraction) {rest : Text} (ends : f.EndsAt rest) :
    Reads fraction (f.text ++ rest) f.nanos rest := by
  apply f.reads_by ends
  intro some noDigit
  rw [← nanosOfDigits_digits]
  exact reads_fractionRun f.numeral some f.short noDigit

end Fraction

theorem fractionRun_cases (t : Text) :
    (∃ run rest, isDigits run = true ∧ 0 < run.length ∧ run.length ≤ 9 ∧ t = run ++ rest
        ∧ NoDigit rest)
      ∨ t = [] ∨ ∀ more, fractionRun.run (t ++ more) = .error .invalid := by
  rcases t with _ | ⟨c, rest⟩
  next => exact .inr (.inl rfl)
  next =>
    by_cases digit : c.isDigit = true
    next =>
      by_cases short : ((c :: rest).takeWhile Char.isDigit).length ≤ 9
      next =>
        refine .inl ⟨_, _, List.all_takeWhile, ?_, short,
          (List.takeWhile_append_dropWhile (p := Char.isDigit)).symm, ?_⟩
        next => simp [digit]
        next =>
          intro d head
          have refused := List.head?_dropWhile_not Char.isDigit (c :: rest)
          rw [Option.mem_def.mp head] at refused
          simpa using refused
      next =>
        -- A tenth digit stays, whatever else follows.
        refine .inr (.inr fun more => ?_)
        have longer : 9 < ((c :: rest ++ more).takeWhile Char.isDigit).length := by
          rw [List.takeWhile_append]
          split
          next whole =>
            rw [List.length_append]
            omega
          next => omega
        have some : ((c :: rest ++ more).takeWhile Char.isDigit).isEmpty = false := by
          simp [digit]
        change fractionRun _ = _
        simp only [fractionRun, some, if_pos longer]
        rfl
    next =>
      refine .inr (.inr fun more => ?_)
      change fractionRun _ = _
      simp [fractionRun, digit]

/-- A fraction in front of a text, a point alone, or one that cannot become a fraction. -/
theorem fraction_cases (t : Text) :
    (∃ (f : Fraction) (rest : Text), t = f.text ++ rest ∧ f.EndsAt rest)
      ∨ t = ['.'] ∨ ∀ more, fraction.run (t ++ more) = .error .invalid := by
  by_cases point : t.head? = some '.'
  next =>
    obtain ⟨after, rfl⟩ := List.head?_eq_some_iff.mp point
    rcases fractionRun_cases after with ⟨run, rest, digits, some, most, rfl, ends⟩ | rfl | stays
    next =>
      have other : run ≠ [] := List.length_pos_iff.mp some
      refine .inl ⟨⟨run, digits, most⟩, rest, ?_, ?_⟩
      next => simp [Fraction.text, other]
      next =>
        intro c head
        simp only [other, if_false]
        exact ends c head
    next => exact .inr (.inl rfl)
    next => exact .inr (.inr fun more => stays more)
  next =>
    refine .inl ⟨⟨[], rfl, Nat.zero_le 9⟩, t, rfl, ?_⟩
    intro c head
    simp only [if_true, beq_eq_false_iff_ne]
    rintro rfl
    exact point head

theorem tail_recognises {α : Type} (made : Int -> Bool × Int × Int -> α) :
    Recognises (do
        let nano <- fraction
        let parts <- offset
        return made nano parts)
      (Listed (fun p : Fraction × Suffix => p.1.text ++ p.2.text)
        fun p => made p.1.nanos p.2.parts) := by
  have later (nano : Int) := offset_recognises.andThen (made nano)
  constructor
  case some => exact ⟨_, _, (⟨[], rfl, Nat.zero_le 9⟩, .letter 'Z' (.inl rfl)), rfl, rfl⟩
  case reads =>
    rintro _ _ ⟨⟨f, suffix⟩, rfl, rfl⟩ rest
    rw [List.append_assoc]
    exact (f.reads (f.endsAt_suffix suffix rest)).bind
      ((later f.nanos).reads ⟨suffix, rfl, rfl⟩ rest)
  case word =>
    intro t rest a read
    rcases fraction_cases t with ⟨f, after, rfl, ends⟩ | rfl | stays
    next =>
      rw [Reads, StateT.run_bind, f.reads ends, ok_bind] at read
      obtain ⟨_, ⟨suffix, rfl, rfl⟩, rfl⟩ := (later f.nanos).word read
      exact ⟨_, ⟨(f, suffix), rfl, rfl⟩, (List.append_assoc _ _ _).symm⟩
    next => cases read
    next =>
      have failed := stays []
      rw [List.append_nil] at failed
      rw [Reads, StateT.run_bind, failed] at read
      cases read
  case fails =>
    intro t issue failed
    rcases fraction_cases t with ⟨f, after, rfl, ends⟩ | rfl | stays
    next =>
      rw [StateT.run_bind, f.reads ends, ok_bind] at failed
      rcases (later f.nanos).fails failed with
        ⟨short, _, _, more, ⟨suffix, rfl, rfl⟩, begun⟩ | ⟨rfl, stays⟩
      next =>
        refine .inl ⟨short, _, _, more, ⟨(f, suffix), rfl, rfl⟩, ?_⟩
        simp only [begun, List.append_assoc]
      next =>
        -- The end of a text is never invalid, so that it shows where the fraction ends.
        have some : after ≠ [] := by
          rintro rfl
          cases failed
        refine .inr ⟨rfl, fun more => ?_⟩
        rw [List.append_assoc, StateT.run_bind, f.reads (ends.append some more), ok_bind]
        exact stays more
    next =>
      cases failed
      exact .inl ⟨rfl, _, _, ['0', 'Z'],
        ⟨(⟨['0'], rfl, by decide⟩, .letter 'Z' (.inl rfl)), rfl, rfl⟩, rfl⟩
    next =>
      have invalid := stays []
      rw [List.append_nil] at invalid
      rw [StateT.run_bind, invalid] at failed
      cases failed
      refine .inr ⟨rfl, fun more => ?_⟩
      rw [StateT.run_bind, stays more]
      rfl

theorem shape_recognises :
    Recognises shape (Listed Word.text fun word => (word.stamp 0, word.suffix.parts)) := by
  have fields := (Scan.number_recognises 4).bind_listed fun year =>
    ((Scan.number_recognises 2).bind_listed fun month =>
    ((Scan.number_recognises 2).bind_listed fun day =>
    (Scan.one_recognises isSeparator (c := 'T') rfl).bind_listed fun _ =>
    (Scan.number_recognises 2).bind_listed fun hour =>
    ((Scan.number_recognises 2).bind_listed fun minute =>
    ((Scan.number_recognises 2).bind_listed fun second =>
    tail_recognises fun nano parts =>
      (({ year, month, day, hour, minute, second, nano, offset := 0 } : Stamp), parts)).after_char
    ':').after_char ':').after_char '-').after_char '-'
  refine fields.relist
    (fun ⟨year, month, day, separator, hour, minute, second, fraction, suffix⟩ =>
      ⟨year, month, day, separator.val, ?_, hour, minute, second, fraction, suffix⟩)
    (fun word => (word.year, word.month, word.day, ⟨word.separator, ?_⟩, word.hour, word.minute,
      word.second, word.fraction, word.suffix)) ?_ ?_ ?_
  next => simpa [isSeparator, or_assoc] using separator.property
  next => rcases word.separates with same | same | same <;> rw [same] <;> rfl
  next =>
    rintro ⟨year, month, day, separator, hour, minute, second, fraction, suffix⟩
    simp [Word.text]
  next =>
    rintro ⟨year, month, day, separator, hour, minute, second, fraction, suffix⟩
    rfl
  next =>
    rintro ⟨year, month, day, separator, separates, hour, minute, second, fraction, suffix⟩
    rfl

end ZonedTime.Rfc3339
