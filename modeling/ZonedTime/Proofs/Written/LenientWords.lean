import ZonedTime.Proofs.Written.Lenient
import ZonedTime.Proofs.Written.Rfc3339Graded

set_option autoImplicit false

namespace ZonedTime

open Rfc3339 (Fraction Suffix Word)

theorem Numeral.head {width : Nat} (n : Numeral width) (positive : 0 < width) :
    ∃ c rest, n.digits = c :: rest ∧ c.isDigit = true := by
  obtain ⟨digits, numeral, length⟩ := n
  cases digits with
  | nil =>
    rw [List.length_nil] at length
    omega
  | cons c rest =>
    rw [Text.isDigits_cons, Bool.and_eq_true] at numeral
    exact ⟨c, rest, rfl, numeral.1⟩

namespace Rfc3339

theorem Suffix.head (suffix : Suffix) :
    ∃ c rest, suffix.text = c :: rest ∧ Text.isAsciiSpace c = false := by
  cases suffix with
  | letter c zulu => rcases zulu with rfl | rfl <;> exact ⟨_, _, rfl, by decide⟩
  | signed west hours minutes => cases west <;> exact ⟨_, _, rfl, by decide⟩

theorem exists_word {t : Text} {stamp : Stamp} (accepted : scan t = .ok stamp) :
    ∃ word : Word, word.text = t ∧ word.suffix.minutes ≤ 59 ∧ word.stated.check = .ok stamp := by
  have ascii : Text.isAscii t = true := by
    by_contra other
    rw [scan, Bool.eq_false_iff.mpr other] at accepted
    cases accepted
  cases ran : shape.run t with
  | error issue =>
    rw [scan_of_fails ascii ran] at accepted
    cases accepted
  | ok found =>
    obtain ⟨_, ⟨word, rfl, -⟩, whole⟩ := shape_recognises.word ran
    rw [whole] at ascii
    rw [whole, scan_of_word word _ ascii] at accepted
    split at accepted
    next => cases accepted
    next inHour =>
      split at accepted
      next => cases accepted
      next nothing =>
        rw [not_not.mp nothing, List.append_nil] at whole
        exact ⟨word, whole.symm, Int.not_lt.mp inHour, accepted⟩

end Rfc3339

namespace Lenient

theorem reads_wordSeparator (word : Word) (rest : Text) :
    Reads separator (word.separator :: (word.hour.digits ++ rest)) ()
      (word.hour.digits ++ rest) := by
  obtain ⟨c, tail, same, digit⟩ := word.hour.head (by decide)
  rcases word.separates with capital | small | blank
  next => exact reads_letter (.inl capital) _
  next => exact reads_letter (.inr small) _
  next =>
    rw [blank, same]
    exact reads_blank (Text.not_isAsciiSpace_of_isDigit digit) _

theorem reads_wordFraction (f : Fraction) {rest : Text} (ends : f.EndsAt rest) :
    Reads fraction (f.text ++ rest) f.nanos rest := by
  apply f.reads_by ends
  intro _ noDigit
  rw [← f.nanosOfDigits_digits]
  exact (Scan.reads_digits f.numeral (Nat.zero_le _) f.short (.inr noDigit)).andThen

theorem reads_word (word : Word) : Reads reading word.text (word.stamp 0) word.suffix.text := by
  have short (n : Numeral 2) (rest : Text) : Reads shortNumber (n.digits ++ rest) n.value rest :=
    reads_shortNumber n.numeral n.length rest
  have noSuffix := word.fraction.endsAt_suffix word.suffix []
  rw [List.append_nil] at noSuffix
  unfold reading Word.text
  refine (reads_digitRun word.year.numeral (Nat.le_of_eq word.year.length.symm)
    (noDigit_cons rfl)).bind ?_
  refine (Scan.reads_char '-' _).bind ?_
  refine (short word.month _).bind ?_
  refine (Scan.reads_char '-' _).bind ?_
  refine (short word.day _).bind ?_
  refine (reads_wordSeparator word _).bind ?_
  refine (short word.hour _).bind ?_
  refine (Scan.reads_char ':' _).bind ?_
  refine (short word.minute _).bind ?_
  refine (Scan.reads_char ':' _).bind ?_
  refine (short word.second _).bind ?_
  exact (reads_wordFraction word.fraction noSuffix).bind (.pure _ _)

theorem reads_wordOffset (west : Bool) (hours minutes : Numeral 2) :
    Reads signed (Suffix.signed west hours minutes).text
      ⟨west, hours.value, minutes.value, 0⟩ [] := by
  have number (n : Numeral 2) (rest : Text) :
      Reads (Scan.number 2) (n.digits ++ rest) n.value rest :=
    (Scan.number_recognises 2).reads ⟨n, rfl, rfl⟩ rest
  have last := number minutes []
  rw [List.append_nil] at last
  have fields : Reads (do
      let hours <- Scan.number 2
      let _ <- Scan.optional ':'
      let minutes <- Scan.number 2
      let seconds <- seconds
      Scan.ended
      return ({ negative := west, hours, minutes, seconds } : Shift))
      (hours.digits ++ ':' :: minutes.digits) ⟨west, hours.value, minutes.value, 0⟩ [] := by
    refine (number hours _).bind ?_
    refine (Scan.reads_optional ':' _).bind ?_
    refine last.bind ?_
    refine Reads.bind (show Reads seconds [] 0 [] from rfl) ?_
    exact Reads.bind (show Reads Scan.ended [] () [] from rfl) (.pure _ [])
  cases west with
  | true => exact Reads.bind (Scan.reads_one rfl _) fields
  | false => exact Reads.bind (Scan.reads_one rfl _) fields

/-- No seconds follow the minutes, and no name of UTC begins with a sign. -/
theorem shift_suffix (suffix : Suffix) :
    ∃ found, shift suffix.text = some found ∧ found.minutes = suffix.minutes
      ∧ found.seconds = 0 ∧ found.total = suffix.seconds := by
  cases suffix with
  | letter c zulu =>
    refine ⟨⟨false, 0, 0, 0⟩, ?_, rfl, rfl, rfl⟩
    rcases zulu with rfl | rfl <;> decide
  | signed west hours minutes =>
    have read := reads_wordOffset west hours minutes
    have noName :
        utcNames.contains (Text.lower (Suffix.signed west hours minutes).text) = false := by
      cases west <;> simp [utcNames, Suffix.text, Text.lower, Text.ofString]
    refine ⟨⟨west, hours.value, minutes.value, 0⟩, ?_, rfl, rfl, ?_⟩
    next =>
      unfold Reads at read
      simp only [shift, noName, read]
      rfl
    next => cases west <;> simp [Shift.total, Suffix.seconds, Suffix.parts, Rfc3339.total]

theorem scan_word (word : Word) :
    scan word.text =
      if 59 < word.suffix.minutes then .error .outOfRange else word.stated.check := by
  obtain ⟨found, shifted, minutes, seconds, total⟩ := shift_suffix word.suffix
  obtain ⟨c, rest, same, solid⟩ := word.suffix.head
  have left : word.suffix.text.dropWhile Text.isAsciiSpace = c :: rest := by
    simp [same, solid]
  rw [same] at shifted
  rw [scan_of_reading (reads_word word) left shifted, minutes, seconds, total]
  simp only [show ¬ (59 : Int) < 0 by decide, or_false]
  rfl

theorem scan_of_strict {t : Text} {stamp : Stamp} (accepted : Rfc3339.scan t = .ok stamp) :
    scan t = .ok stamp := by
  obtain ⟨word, rfl, inHour, checked⟩ := Rfc3339.exists_word accepted
  rw [scan_word, if_neg (Int.not_lt.mpr inHour), checked]

end Lenient

theorem Stamp.toInstant_zone (stamp : Stamp) (t : Text) :
    Gives (fun instant => instant.zone = .fixed instant.offset) (stamp.toInstant t) := by
  refine (gives_any _).bind fun wall _ => (gives_any _).bind fun offset _ => ?_
  split
  next made =>
    obtain ⟨utc, -, rfl⟩ := Option.map_eq_some_iff.mp made
    rfl
  next => trivial

namespace Instant

theorem parseRfc3339_zone (t : Text) :
    Gives (fun instant => instant.zone = .fixed instant.offset) (parseRfc3339 t) :=
  (gives_any _).bind fun stamp _ => stamp.toInstant_zone t

theorem same_self {instant : Instant} (fixed : instant.zone = .fixed instant.offset) :
    instant.same instant = true := by
  simp [same, Zone.same, fixed]

/-- The relaxed reader extends the strict one: the fields of a text that the strict one takes are
the same to both, and so is the instant. -/
theorem parse_extends (t : Text) :
    (∀ stamp, Rfc3339.parse t = .ok stamp → Lenient.parse t = .ok stamp)
      ∧ ∀ instant, parseRfc3339 t = .ok instant →
        ∃ relaxed, parse t = .ok relaxed ∧ relaxed.utc = instant.utc
          ∧ relaxed.wall = instant.wall ∧ relaxed.same instant = true := by
  have fields (stamp : Stamp) (accepted : Rfc3339.parse t = .ok stamp) :
      Lenient.parse t = .ok stamp := by
    unfold Rfc3339.parse at accepted
    cases scanned : Rfc3339.scan t with
    | error issue =>
      rw [scanned] at accepted
      cases accepted
    | ok found =>
      rw [scanned] at accepted
      cases accepted
      rw [Lenient.parse, Lenient.scan_of_strict scanned]
      rfl
  refine ⟨fields, fun instant read => ?_⟩
  have fixed := (parseRfc3339_zone t).good_of_ok read
  refine ⟨instant, ?_, rfl, rfl, same_self fixed⟩
  unfold parseRfc3339 at read
  cases accepted : Rfc3339.parse t with
  | error error =>
    rw [accepted] at read
    cases read
  | ok stamp =>
    rw [accepted] at read
    rw [parse, fields stamp accepted]
    exact read

def westernLeap : Text := Text.ofString "1998-12-31 23:59:60.25-00:20"

theorem parse_extends_westernLeap :
    Rfc3339.parse westernLeap = .ok ⟨1998, 12, 31, 23, 59, 59, 1250000000, -1200⟩
      ∧ Lenient.parse westernLeap = .ok ⟨1998, 12, 31, 23, 59, 59, 1250000000, -1200⟩
      ∧ ∃ instant, parseRfc3339 westernLeap = .ok instant
        ∧ ∃ relaxed, parse westernLeap = .ok relaxed ∧ relaxed.same instant = true := by
  have strict : Rfc3339.parse westernLeap =
      .ok ⟨1998, 12, 31, 23, 59, 59, 1250000000, -1200⟩ := by decide
  have read : parseRfc3339 westernLeap =
      .ok ⟨⟨⟨1999, 1, 1, by decide⟩, ⟨0, 19, 59, 1250000000, by decide⟩⟩,
        ⟨⟨1998, 12, 31, by decide⟩, ⟨23, 59, 59, 1250000000, by decide⟩⟩,
        ⟨-1200, by decide⟩, .fixed ⟨-1200, by decide⟩⟩ := by rfl
  obtain ⟨fields, instants⟩ := parse_extends westernLeap
  obtain ⟨relaxed, accepted, -, -, same⟩ := instants _ read
  exact ⟨strict, fields _ strict, _, read, relaxed, accepted, same⟩

end Instant

end ZonedTime
