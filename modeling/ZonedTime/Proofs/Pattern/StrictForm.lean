import ZonedTime.Proofs.Pattern.OffsetBack
import ZonedTime.Proofs.Text.Expr
import ZonedTime.Proofs.Written.LenientWords

set_option autoImplicit false

namespace ZonedTime

open Rfc3339 (Fraction Suffix Word)

namespace Pattern

def strictForm : Text := Text.ofString "%+"

theorem compile_strictForm : compile strictForm = .ok [.form .rfc3339] := by decide +kernel

def stampFields (stamp : Stamp) : List (Slot × Int) :=
  let leap := 1000000000 ≤ stamp.nano
  [(.year, stamp.year), (.month, stamp.month), (.day, stamp.day), (.half, stamp.hour / 12),
    (.hourOfHalf, stamp.hour % 12), (.minute, stamp.minute),
    (.second, if leap then 60 else stamp.second),
    (.nanosecond, if leap then stamp.nano - 1000000000 else stamp.nano),
    (.offset, stamp.offset)]

def stampSlots : List Slot :=
  [.year, .month, .day, .half, .hourOfHalf, .minute, .second, .nanosecond]

theorem stampFields_eq {stamp : Stamp} (sound : stamp.Sound) :
    stampFields stamp = sound.wall.statements stampSlots ++ [(.offset, stamp.offset)] := by
  obtain ⟨first, last, leap⟩ := sound.nano
  have second : sound.wall.stated .second =
      if 1000000000 ≤ stamp.nano then 60 else stamp.second := by
    simp only [Reading.stated, Stamp.Sound.wall, Time.shownSecond, Time.isLeapSecond]
    by_cases later : 1000000000 ≤ stamp.nano
    next => simp [later, leap later]
    next => simp [later]
  have nano : sound.wall.stated .nanosecond =
      if 1000000000 ≤ stamp.nano then stamp.nano - 1000000000 else stamp.nano := by
    simp only [Reading.stated, Stamp.Sound.wall]
    split <;> omega
  simp only [stampFields, ← second, ← nano]
  rfl

section

open Text.Expr

theorem word_fractionExpr {w : Text} : fractionExpr.Word w ↔ ∃ f : Fraction, f.text = w := by
  constructor
  next =>
    rintro ⟨parts, all, -, notMore, rfl⟩
    rcases parts with _ | ⟨part, _ | ⟨_, _⟩⟩
    next => exact ⟨⟨[], rfl, Nat.zero_le 9⟩, rfl⟩
    next =>
      obtain ⟨digits, run, rfl⟩ := word_char_append.mp (all part (by simp))
      obtain ⟨numeral, enough, short⟩ := repeats_one.mp run
      have some : digits ≠ [] := List.length_pos_iff.mp enough
      exact ⟨⟨digits, numeral, short⟩, by simp [Fraction.text, some]⟩
    next => simp at notMore
  next =>
    rintro ⟨⟨digits, numeral, short⟩, rfl⟩
    by_cases none : digits = []
    next => exact ⟨[], by simp, by simp, by simp, by simp [Fraction.text, none]⟩
    next =>
      have run := repeats_one.mpr ⟨numeral, List.length_pos_iff.mpr none, short⟩
      refine ⟨['.' :: digits], ?_, by simp, by simp, by simp [Fraction.text, none]⟩
      rw [List.forall_mem_singleton]
      exact word_char_append.mpr ⟨digits, run, rfl⟩

theorem word_offsetExpr {w : Text} : offsetExpr.Word w ↔ ∃ suffix : Suffix, suffix.text = w := by
  constructor
  next =>
    rintro (letter | signed)
    next =>
      obtain ⟨c, zulu, rfl⟩ := word_among.mp letter
      exact ⟨.letter c (by simpa [Text.ofString] using zulu), rfl⟩
    next =>
      simp only [word_assoc, word_among_append, word_digits_append, word_char_append,
        word_digits] at signed
      obtain ⟨c, sign, _, ⟨hours, _, ⟨_, ⟨minutes, rfl⟩, rfl⟩, rfl⟩, rfl⟩ := signed
      refine ⟨.signed (c == '-') hours minutes, ?_⟩
      have either : c = '+' ∨ c = '-' := by simpa [Text.ofString] using sign
      rcases either with rfl | rfl <;> rfl
  next =>
    rintro ⟨_ | ⟨west, hours, minutes⟩, rfl⟩
    next c zulu => exact .inl (word_among.mpr ⟨c, by simpa [Text.ofString] using zulu, rfl⟩)
    next =>
      refine .inr ?_
      simp only [word_assoc, word_among_append, word_digits_append, word_char_append, word_digits]
      exact ⟨_, by cases west <;> decide, _, ⟨hours, _, ⟨_, ⟨minutes, rfl⟩, rfl⟩, rfl⟩, rfl⟩

/-- The expression has the words of the strict form and no others. -/
theorem word_stampExpr {w : Text} : stampExpr.Word w ↔ ∃ word : Word, word.text = w := by
  simp only [stampExpr, word_assoc, word_digits_append, word_char_append, word_among_append]
  constructor
  next =>
    rintro ⟨year, _, ⟨_, ⟨month, _, ⟨_, ⟨day, _, ⟨separator, separates, _, ⟨hour, _,
      ⟨_, ⟨minute, _, ⟨_, ⟨second, _, ⟨_, _, point, zone, rfl⟩, rfl⟩, rfl⟩, rfl⟩, rfl⟩, rfl⟩,
      rfl⟩, rfl⟩, rfl⟩, rfl⟩, rfl⟩, rfl⟩
    obtain ⟨fraction, rfl⟩ := word_fractionExpr.mp point
    obtain ⟨suffix, rfl⟩ := word_offsetExpr.mp zone
    have listed : separator = 'T' ∨ separator = 't' ∨ separator = ' ' := by
      simpa [Text.ofString] using separates
    exact ⟨⟨year, month, day, separator, listed, hour, minute, second, fraction, suffix⟩, rfl⟩
  next =>
    rintro ⟨word, rfl⟩
    have separates : word.separator ∈ Text.ofString "Tt " := by
      simpa [Text.ofString] using word.separates
    exact ⟨word.year, _, ⟨_, ⟨word.month, _, ⟨_, ⟨word.day, _, ⟨word.separator,
      separates, _, ⟨word.hour, _, ⟨_, ⟨word.minute, _,
      ⟨_, ⟨word.second, _, ⟨_, _, word_fractionExpr.mpr ⟨word.fraction, rfl⟩,
      word_offsetExpr.mpr ⟨word.suffix, rfl⟩, rfl⟩, rfl⟩, rfl⟩, rfl⟩, rfl⟩, rfl⟩, rfl⟩, rfl⟩, rfl⟩,
      rfl⟩, rfl⟩, rfl⟩

end

/-- The expression and the scanner of the strict reader take the same part of a text. -/
theorem rest?_stampExpr {t rest : Text} :
    stampExpr.rest? t = some rest ↔ ∃ found, Rfc3339.shape.run t = .ok (found, rest) := by
  have taken (word : Word) (left : Text) :
      ∃ found, Rfc3339.shape.run (word.text ++ left) = .ok (found, left) :=
    ⟨_, Rfc3339.shape_recognises.reads ⟨word, rfl, rfl⟩ left⟩
  have unique {u v left other : Text} (first : stampExpr.Word u) (second : stampExpr.Word v)
      (same : u ++ left = v ++ other) : left = other := by
    obtain ⟨word, rfl⟩ := word_stampExpr.mp first
    obtain ⟨another, rfl⟩ := word_stampExpr.mp second
    obtain ⟨_, read⟩ := taken word left
    obtain ⟨_, again⟩ := taken another other
    rw [same, again] at read
    exact (Prod.mk.inj (Except.ok.inj read)).2.symm
  rw [Text.Expr.rest?_eq_some unique]
  constructor
  next =>
    rintro ⟨_, spelt, rfl⟩
    obtain ⟨word, rfl⟩ := word_stampExpr.mp spelt
    exact taken word rest
  next =>
    rintro ⟨found, read⟩
    obtain ⟨_, ⟨word, rfl, -⟩, rfl⟩ := Rfc3339.shape_recognises.word read
    exact ⟨word.text, word_stampExpr.mpr ⟨word, rfl⟩, rfl⟩

theorem rfc3339_run (word : Word) (rest : Text) :
    rfc3339.run (word.text ++ rest) =
      (Rfc3339.parse word.text).map fun stamp => (stampFields stamp, rest) := by
  have shape := Rfc3339.shape_recognises.reads ⟨word, rfl, rfl⟩ rest
  have taken : (word.text ++ rest).take ((word.text ++ rest).length - rest.length) = word.text := by
    rw [List.length_append, Nat.add_sub_cancel, List.take_left]
  have left : stampExpr.rest? (word.text ++ rest) = some rest := rest?_stampExpr.mpr ⟨_, shape⟩
  change rfc3339 (word.text ++ rest) = _
  simp only [rfc3339, left, taken]
  cases Rfc3339.parse word.text with
  | ok stamp => rfl
  | error error => rfl

theorem exists_word {t rest : Text} {stated : List (Slot × Int)}
    (read : Reads rfc3339 t stated rest) : ∃ word : Word, t = word.text ++ rest := by
  cases left : stampExpr.rest? t with
  | none =>
    change rfc3339 t = _ at read
    rw [rfc3339, left] at read
    cases read
  | some after =>
    obtain ⟨_, shape⟩ := rest?_stampExpr.mp left
    obtain ⟨_, ⟨word, rfl, -⟩, rfl⟩ := Rfc3339.shape_recognises.word shape
    rw [Reads, rfc3339_run] at read
    cases parsed : Rfc3339.parse word.text with
    | error error =>
      rw [parsed] at read
      cases read
    | ok stamp =>
      rw [parsed] at read
      cases read
      exact ⟨word, rfl⟩

theorem read_form (kind : Form) (t : Text) :
    read [.form kind] t =
      (do
        let found <- (form kind).run t
        let fields <- Fields.ofIssue (Fields.empty.setAll found.1)
        if found.2.isEmpty then return fields else throw (.issue .tooLong none)) := by
  simp only [read, gather, item, StateT.run_bind]
  cases (form kind).run t with
  | error error => rfl
  | ok found =>
    simp only [ok_bind]
    cases Fields.empty.setAll found.1 with
    | error issue => rfl
    | ok fields => rfl

theorem setAll_stampFields {stamp : Stamp} (sound : stamp.Sound) :
    Fields.empty.setAll (stampFields stamp) =
      .ok ((Fields.known sound.wall stampSlots.reverse).put .offset stamp.offset) := by
  have unknown : (Fields.known sound.wall stampSlots.reverse).get .offset = none :=
    Fields.get_known_of_not_mem (by decide)
  rw [stampFields_eq sound, Fields.setAll_append, ← Fields.known_nil sound.wall,
    Fields.setAll_known, List.append_nil, ok_bind]
  exact Fields.setAll_fresh unknown stamp.offset

theorem parse_word (word : Word) :
    parse word.text strictForm =
      (Rfc3339.parse word.text >>= fun stamp =>
        Fields.ofIssue (Fields.empty.setAll (stampFields stamp))) := by
  have ran := rfc3339_run word []
  rw [List.append_nil] at ran
  rw [parse, compile_strictForm, ok_bind, read_form, form, ran]
  cases Rfc3339.parse word.text with
  | error error => rfl
  | ok stamp =>
    simp only [Except.map, ok_bind]
    cases Fields.empty.setAll (stampFields stamp) with
    | error issue => rfl
    | ok fields => rfl

theorem exists_word_of_parse {t : Text} {fields : Fields}
    (parsed : parse t strictForm = .ok fields) : ∃ word : Word, word.text = t := by
  rw [parse, compile_strictForm, ok_bind, read_form, form] at parsed
  cases ran : rfc3339.run t with
  | error error =>
    rw [ran] at parsed
    cases parsed
  | ok found =>
    obtain ⟨word, whole⟩ := exists_word ran
    rw [ran, ok_bind] at parsed
    cases stated : Fields.ofIssue (Fields.empty.setAll found.1) with
    | error error =>
      rw [stated] at parsed
      cases parsed
    | ok known =>
      rw [stated, ok_bind] at parsed
      split at parsed
      next ended =>
        rw [List.isEmpty_iff.mp ended, List.append_nil] at whole
        exact ⟨word, whole.symm⟩
      next => cases parsed

theorem reading_stampFields {stamp : Stamp} (sound : stamp.Sound) :
    ((Fields.known sound.wall stampSlots.reverse).put .offset stamp.offset).reading =
      .ok sound.wall := by
  apply Fields.put_offset_known sound.wall_proper
  next => constructor <;> decide
  next => constructor <;> decide

end Pattern

namespace Instant

open Pattern (strictForm)

theorem parseBy_word (word : Word) : parseBy word.text strictForm = parseRfc3339 word.text := by
  unfold parseBy parseRfc3339
  rw [Pattern.parse_word]
  cases parsed : Rfc3339.parse word.text with
  | error error => rfl
  | ok stamp =>
    have sound := (Rfc3339.parse_ends word.text).good_of_ok parsed
    have fields : Fields.ofIssue (Fields.empty.setAll (Pattern.stampFields stamp)) =
        .ok ((Fields.known sound.wall Pattern.stampSlots.reverse).put .offset stamp.offset) := by
      rw [Pattern.setAll_stampFields sound]
      rfl
    simp only [ok_bind, fields, Fields.put_offset, Pattern.reading_stampFields sound,
      sound.ofSeconds_eq, sound.toInstant_eq]
    rfl

theorem exists_word_of_parseRfc3339 {t : Text} {instant : Instant}
    (read : parseRfc3339 t = .ok instant) : ∃ word : Word, word.text = t := by
  cases scanned : Rfc3339.scan t with
  | error issue =>
    rw [Rfc3339.parse_of_scan scanned] at read
    cases read
  | ok stamp =>
    obtain ⟨word, same, -⟩ := Rfc3339.exists_word scanned
    exact ⟨word, same⟩

theorem exists_word_of_parseBy {t : Text} {instant : Instant}
    (read : parseBy t strictForm = .ok instant) : ∃ word : Word, word.text = t := by
  cases parsed : Pattern.parse t strictForm with
  | error error =>
    rw [parseBy, parsed] at read
    cases read
  | ok fields => exact Pattern.exists_word_of_parse parsed

/-- The pattern reads the texts that the strict reader reads, and each of them as the same
instant. -/
theorem parseBy_strictForm (t : Text) :
    ((∃ instant, parseBy t strictForm = .ok instant) ↔ ∃ instant, parseRfc3339 t = .ok instant)
      ∧ ∀ byForm strict, parseBy t strictForm = .ok byForm → parseRfc3339 t = .ok strict →
        byForm.utc = strict.utc ∧ byForm.wall = strict.wall
          ∧ byForm.zone = .fixed strict.offset ∧ byForm.same strict = true := by
  constructor
  next =>
    constructor
    next =>
      rintro ⟨instant, read⟩
      obtain ⟨word, rfl⟩ := exists_word_of_parseBy read
      exact ⟨instant, parseBy_word word ▸ read⟩
    next =>
      rintro ⟨instant, read⟩
      obtain ⟨word, rfl⟩ := exists_word_of_parseRfc3339 read
      exact ⟨instant, (parseBy_word word).trans read⟩
  next =>
    intro byForm strict first second
    obtain ⟨word, rfl⟩ := exists_word_of_parseRfc3339 second
    have fixed := (parseRfc3339_zone word.text).good_of_ok second
    rw [parseBy_word, second] at first
    cases first
    exact ⟨rfl, rfl, fixed, same_self fixed⟩

/-- A nanosecond before the end of a leap second, in the last hour that a zone can be behind. -/
def farWest : Instant where
  utc := ⟨⟨1981, 7, 1, by decide⟩, ⟨20, 13, 59, 1999999999, by decide⟩⟩
  wall := ⟨⟨1981, 6, 30, by decide⟩, ⟨20, 14, 59, 1999999999, by decide⟩⟩
  offset := ⟨-86340, by decide⟩
  zone := .fixed ⟨-86340, by decide⟩

def farWestText : Text := Text.ofString "1981-06-30t20:14:60.999999999-23:59"

theorem parseBy_strictForm_farWest :
    parseRfc3339 farWestText = .ok farWest
      ∧ ∃ byForm, parseBy farWestText strictForm = .ok byForm
        ∧ byForm.utc = farWest.utc ∧ byForm.wall = farWest.wall
        ∧ byForm.zone = .fixed farWest.offset ∧ byForm.same farWest = true := by
  have stamp : Rfc3339.parse farWestText =
      .ok ⟨1981, 6, 30, 20, 14, 59, 1999999999, -86340⟩ := by decide
  have shifted : farWest.wall.shift? (-farWest.offset.seconds) = some farWest.utc := by decide
  have read : parseRfc3339 farWestText = .ok farWest := by
    rw [parseRfc3339, stamp, ok_bind]
    exact Stamp.toInstant_eq_ok rfl rfl shifted
  obtain ⟨succeeds, agree⟩ := parseBy_strictForm farWestText
  obtain ⟨byForm, found⟩ := succeeds.mpr ⟨_, read⟩
  exact ⟨read, byForm, found, agree _ _ found read⟩

end Instant

end ZonedTime
