import ZonedTime.Proofs.Written.Rfc2822

/-!
The forms that a mail header can give to one date, time and offset. Blanks and comments may stand
between the words and inside the time, and the comma after the weekday may have them on either
side or on none. A comment is a blank, so a form is what its words are; those of the time are
joined before they are read.
-/

set_option autoImplicit false

namespace ZonedTime.Rfc2822

open Calendar
open Text (ofString two four isAscii isDigits isBlank lower value words)

/-- A run of blanks and comments. No comment holds a parenthesis. -/
inductive Gap : Text -> Prop where
  | empty : Gap []
  | blank {c : Char} {rest : Text} (ascii : c.toNat < 128) (blank : isBlank c = true)
      (more : Gap rest) : Gap (c :: rest)
  | comment {body rest : Text} (ascii : isAscii body = true)
      (plain : body.all (!isParenthesis ·) = true) (more : Gap rest) :
      Gap ('(' :: (body ++ ')' :: rest))

/-- What the text is without its comments, whatever follows it. -/
def Bares (t bare : Text) : Prop :=
  ∀ rest, blankComments 0 (t ++ rest) = bare ++ blankComments 0 rest

theorem Bares.append {s t u v : Text} (first : Bares s u) (second : Bares t v) :
    Bares (s ++ t) (u ++ v) := by
  intro rest
  rw [List.append_assoc, first, second, List.append_assoc]

theorem Bares.whole {t bare : Text} (bares : Bares t bare) : blankComments 0 t = bare := by
  have same := bares []
  rwa [List.append_nil, blankComments, List.append_nil] at same

theorem bares_word {t : Text} (solid : t.all isSolid = true) : Bares t t := by
  intro rest
  induction t with
  | nil => rfl
  | cons c tail ih =>
    rw [List.all_cons, Bool.and_eq_true] at solid
    have noComment : c ≠ '(' := by
      rintro rfl
      exact absurd solid.1 (by decide)
    simp [blankComments, noComment, ih solid.2]

theorem blankComments_skip (s t : Text) :
    blankComments s.length (s ++ t) = blankComments 0 t := by
  induction s with
  | nil => rfl
  | cons c rest ih => simp [blankComments, ih]

theorem commentLength?_eq {body : Text} (plain : body.all (!isParenthesis ·) = true)
    (rest : Text) : commentLength? (body ++ ')' :: rest) = some (body.length + 1) := by
  have before : (body ++ ')' :: rest).takeWhile (!isParenthesis ·) = body := by
    rw [List.takeWhile_append_of_pos (List.all_eq_true.mp plain)]
    simp [isParenthesis]
  simp [commentLength?, before]

theorem Gap.bares {gap : Text} (isGap : Gap gap) :
    ∃ blanks : Text, blanks.all isBlank = true ∧ (blanks = [] ↔ gap = []) ∧ Bares gap blanks := by
  induction isGap with
  | empty => exact ⟨[], rfl, Iff.rfl, fun _ => rfl⟩
  | @blank c rest ascii blank more ih =>
    obtain ⟨blanks, all, -, bares⟩ := ih
    refine ⟨c :: blanks, by simp [-List.all_eq_true, blank, all], by simp, fun after => ?_⟩
    have noComment : c ≠ '(' := by
      rintro rfl
      cases blank
    simp [blankComments, noComment, bares after]
  | @comment body rest ascii plain more ih =>
    obtain ⟨blanks, all, -, bares⟩ := ih
    refine ⟨' ' :: blanks, by simp [-List.all_eq_true, all, show isBlank ' ' = true by decide],
      by simp, fun after => ?_⟩
    have skipped := blankComments_skip (body ++ [')']) (rest ++ after)
    rw [List.length_append, List.length_singleton, List.append_assoc, List.singleton_append]
      at skipped
    simp [blankComments, commentLength?_eq plain, skipped, bares after]

theorem Gap.isAscii {gap : Text} (isGap : Gap gap) : isAscii gap = true := by
  induction isGap with
  | empty => rfl
  | blank ascii _ _ ih => simp [-List.all_eq_true, ascii, ih]
  | comment ascii _ _ ih => simp [ascii, ih]

def bareWords (t : Text) : List Text := words isBlank (blankComments 0 t)

def Separates (gap : Text) : Prop := Gap gap ∧ gap ≠ []

theorem words_blanks {blanks : Text} (all : blanks.all isBlank = true) (t : Text) :
    words isBlank (blanks ++ t) = words isBlank t := by
  induction blanks with
  | nil => rfl
  | cons c rest ih =>
    rw [List.all_cons, Bool.and_eq_true] at all
    exact (Text.words_append all.1 [] (rest ++ t)).trans (ih all.2)

theorem Gap.bareWords_append {gap : Text} (isGap : Gap gap) (t : Text) :
    bareWords (gap ++ t) = bareWords t := by
  obtain ⟨blanks, all, -, bares⟩ := isGap.bares
  rw [bareWords, bares, words_blanks all]
  rfl

theorem Bares.bareWords_append {t bare gap : Text} (bares : Bares t bare)
    (separates : Separates gap) (rest : Text) :
    bareWords (t ++ (gap ++ rest)) = words isBlank bare ++ bareWords rest := by
  obtain ⟨isGap, filled⟩ := separates
  obtain ⟨blanks, all, empty, bared⟩ := isGap.bares
  rw [bareWords, bares, bared]
  cases blanks with
  | nil => exact absurd (empty.mp rfl) filled
  | cons c later =>
    rw [List.all_cons, Bool.and_eq_true] at all
    rw [List.cons_append, Text.words_append all.1, words_blanks all.2]
    rfl

theorem not_isBlank_of_isSolid {t : Text} (solid : t.all isSolid = true) :
    ∀ c ∈ t, isBlank c = false := by
  intro c member
  have here := List.all_eq_true.mp solid c member
  simp only [isSolid, Bool.and_eq_true, Bool.not_eq_true'] at here
  exact here.1.2

theorem IsWord.words_eq {w : Text} (word : IsWord w) : words isBlank w = [w] :=
  Text.words_solid word.1 (not_isBlank_of_isSolid word.2)

theorem IsWord.bareWords_append {w gap : Text} (word : IsWord w) (separates : Separates gap)
    (rest : Text) : bareWords (w ++ (gap ++ rest)) = w :: bareWords rest := by
  rw [(bares_word word.2).bareWords_append separates, word.words_eq]
  rfl

theorem IsWord.bareWords_last {w gap : Text} (word : IsWord w) (isGap : Gap gap) :
    bareWords (w ++ gap) = [w] := by
  by_cases empty : gap = []
  next =>
    rw [empty, List.append_nil, bareWords, (bares_word word.2).whole, word.words_eq]
  next =>
    have last := word.bareWords_append ⟨isGap, empty⟩ []
    rwa [List.append_nil] at last

def Cased (word t : Text) : Prop := lower t = lower word

theorem Cased.isAlpha {word t : Text} (cased : Cased word t)
    (letters : (lower word).all Char.isAlpha = true) : t.all Char.isAlpha = true := by
  rw [← cased, lower, List.all_map] at letters
  exact List.all_eq_true.mpr fun c member =>
    Text.isAlpha_of_toLower (List.all_eq_true.mp letters c member)

theorem Cased.length_eq {word t : Text} (cased : Cased word t) : t.length = word.length := by
  have same := congrArg List.length cased
  simpa [lower] using same

def Joins (t joined : Text) : Prop :=
  ∃ bare, Bares t bare ∧ bare.filter (!isBlank ·) = joined

theorem Joins.append {s t u v : Text} (first : Joins s u) (second : Joins t v) :
    Joins (s ++ t) (u ++ v) := by
  obtain ⟨bare, bares, rfl⟩ := first
  obtain ⟨more, baresMore, rfl⟩ := second
  exact ⟨bare ++ more, bares.append baresMore, List.filter_append _ _⟩

theorem joins_word {t : Text} (solid : t.all isSolid = true) : Joins t t := by
  refine ⟨t, bares_word solid, List.filter_eq_self.mpr fun c member => ?_⟩
  rw [not_isBlank_of_isSolid solid c member]
  rfl

theorem Gap.joins {gap : Text} (isGap : Gap gap) : Joins gap [] := by
  obtain ⟨blanks, all, -, bares⟩ := isGap.bares
  refine ⟨blanks, bares, List.filter_eq_nil_iff.mpr fun c member => ?_⟩
  rw [List.all_eq_true.mp all c member]
  exact Bool.false_ne_true

theorem Joins.bareWords_append {t joined gap : Text} (joins : Joins t joined)
    (separates : Separates gap) (rest : Text) :
    ∃ ws : List Text, ws.flatten = joined
      ∧ bareWords (t ++ (gap ++ rest)) = ws ++ bareWords rest := by
  obtain ⟨bare, bares, rfl⟩ := joins
  exact ⟨_, Text.flatten_words bare, bares.bareWords_append separates rest⟩

def weekdayOf (stamp : Stamp) : Int :=
  weekdayOfDay (dayNumber stamp.year stamp.month stamp.day)

theorem weekdayOf_bounds (stamp : Stamp) : 0 ≤ weekdayOf stamp ∧ weekdayOf stamp ≤ 6 := by
  unfold weekdayOf weekdayOfDay
  omega

inductive WeekdayPart (stamp : Stamp) : Text -> Prop where
  | omitted : WeekdayPart stamp []
  | named {name before after : Text} (cased : Cased (short (weekdayName (weekdayOf stamp))) name)
      (beforeComma : Gap before) (afterComma : Gap after) :
      WeekdayPart stamp (name ++ (before ++ ',' :: after))

def DayWord (day : Int) (t : Text) : Prop := t = two day ∨ day < 10 ∧ t = Text.decimal day.toNat

inductive ClockPart (stamp : Stamp) : Text -> Prop where
  | minutes {a b : Text} (full : stamp.second = 0) (before : Gap a) (after : Gap b) :
      ClockPart stamp (two stamp.hour ++ (a ++ ':' :: (b ++ two stamp.minute)))
  | seconds {a b c d : Text} (beforeFirst : Gap a) (afterFirst : Gap b) (beforeSecond : Gap c)
      (afterSecond : Gap d) :
      ClockPart stamp (two stamp.hour ++ (a ++ ':' :: (b ++ (two stamp.minute ++
        (c ++ ':' :: (d ++ two stamp.second))))))

/-- Hours and minutes with a sign, which is free at zero. -/
inductive OffsetWord (seconds : Int) : Text -> Prop where
  | ahead {hours minutes : Int} (same : seconds = hours * 3600 + minutes * 60)
      (inDay : 0 ≤ hours ∧ hours < 24) (inHour : 0 ≤ minutes ∧ minutes < 60) :
      OffsetWord seconds ('+' :: (two hours ++ two minutes))
  | behind {hours minutes : Int} (same : seconds = -(hours * 3600 + minutes * 60))
      (inDay : 0 ≤ hours ∧ hours < 24) (inHour : 0 ≤ minutes ∧ minutes < 60) :
      OffsetWord seconds ('-' :: (two hours ++ two minutes))

inductive Form (stamp : Stamp) : Text -> Prop where
  | intro {lead weekday day first month second third clock fourth offset trail : Text}
      (leading : Gap lead) (ofWeek : WeekdayPart stamp weekday) (ofMonth : DayWord stamp.day day)
      (afterDay : Separates first) (named : Cased (short (monthName stamp.month)) month)
      (afterMonth : Separates second) (afterYear : Separates third)
      (timed : ClockPart stamp clock) (afterClock : Separates fourth)
      (shifted : OffsetWord stamp.offset offset) (trailing : Gap trail) :
      Form stamp (lead ++ (weekday ++ (day ++ (first ++ (month ++ (second ++ (four stamp.year ++
        (third ++ (clock ++ (fourth ++ (offset ++ trail)))))))))))

theorem shortIndex?_cased {word t : Text} (cased : Cased word t) (names : List Text) :
    shortIndex? names t = shortIndex? names word := by
  unfold Cased at cased
  simp only [shortIndex?, cased]

theorem isSolid_of_isAlpha {t : Text} (letters : t.all Char.isAlpha = true) :
    t.all isSolid = true := by
  refine List.all_eq_true.mpr fun c member => ?_
  have bounds := Text.isAlpha_bounds (List.all_eq_true.mp letters c member)
  have other : c ≠ '(' := by
    rintro rfl
    simp at bounds
  have solid : isBlank c = false := by
    simp [isBlank]
    omega
  have ascii : c.toNat < 128 := by omega
  simp [isSolid, solid, other, ascii]

theorem weekday_cased {index : Int} (first : 0 ≤ index) (last : index ≤ 6) {name : Text}
    (cased : Cased (short (weekdayName index)) name) :
    name.length = 3 ∧ name.all isSolid = true ∧ isDigits name = false
      ∧ weekday (some name) = .ok (some index) := by
  obtain ⟨length, -, -, written⟩ := weekday_written first last
  have letters : (lower (short (weekdayName index))).all Char.isAlpha = true := by
    interval_cases index <;> decide
  have alpha := cased.isAlpha letters
  have long := cased.length_eq.trans length
  refine ⟨long, isSolid_of_isAlpha alpha, ?_, ?_⟩
  next =>
    obtain ⟨a, b, c, rfl⟩ := List.length_eq_three.mp long
    refine Bool.eq_false_iff.mpr fun digits => ?_
    rw [Text.isDigits_cons, Bool.and_eq_true] at digits
    have noLetter := Text.not_isAlpha_of_isDigit digits.1
    rw [List.all_cons, noLetter] at alpha
    cases alpha
  next =>
    rw [← written, weekday, weekday, shortWeekday?, shortWeekday?, shortIndex?_cased cased]

theorem month_cased {index : Int} (first : 1 ≤ index) (last : index ≤ 12) {name : Text}
    (cased : Cased (short (monthName index)) name) :
    IsWord name ∧ month name = .ok index := by
  obtain ⟨⟨filled, -⟩, written⟩ := month_written first last
  have letters : (lower (short (monthName index))).all Char.isAlpha = true := by
    interval_cases index <;> decide
  refine ⟨⟨?_, isSolid_of_isAlpha (cased.isAlpha letters)⟩, ?_⟩
  next =>
    rintro rfl
    exact filled (List.length_eq_zero_iff.mp cased.length_eq.symm)
  next => rw [← written, month, month, shortMonth?, shortMonth?, shortIndex?_cased cased]

theorem isWord_append {s t : Text} (first : IsWord s) (second : t.all isSolid = true) :
    IsWord (s ++ t) :=
  ⟨List.append_ne_nil_of_left_ne_nil first.1 t, by
    rw [List.all_append, first.2, second]
    rfl⟩

theorem DayWord.isWord {n : Int} {t : Text} (dayWord : DayWord n t) :
    IsWord t ∧ isDigits t = true := by
  rcases dayWord with rfl | ⟨-, rfl⟩
  next => exact ⟨isWord_padded 2 _, Text.isDigits_padded 2 _⟩
  next =>
    have digits := Text.isDigits_decimal n.toNat
    obtain ⟨c, rest, same, -⟩ := Text.decimal_head n.toNat
    exact ⟨⟨by rw [same]; exact List.cons_ne_nil c rest, isSolid_of_isDigits digits⟩, digits⟩

theorem DayWord.day_eq {n : Int} (first : 0 ≤ n) (last : n < 100) {t : Text}
    (dayWord : DayWord n t) : day t = .ok n := by
  obtain ⟨⟨filled, -⟩, digits⟩ := dayWord.isWord
  rcases dayWord with rfl | ⟨small, rfl⟩
  next => exact day_written first last
  next =>
    have short := Text.decimal_length_le (show 0 < 1 by decide) (show n.toNat < 10 ^ 1 by omega)
    have fits : (Text.decimal n.toNat).length ≤ 2 := by omega
    simp [day, filled, digits, fits, Text.value_decimal, Int.toNat_of_nonneg first]

theorem isWord_comma : IsWord [','] := by decide

section

variable {name : Text} (long : name.length = 3)
include long

theorem splitWeekday_tight {day : Text} (filled : day ≠ []) (second : Text) (later : List Text) :
    splitWeekday ((name ++ ',' :: day) :: second :: later) =
      .ok (some name, day :: second :: later) := by
  obtain ⟨a, b, c, rfl⟩ := List.length_eq_three.mp long
  simp [splitWeekday, filled, List.length_pos_iff]

theorem splitWeekday_after (second : Text) (later : List Text) :
    splitWeekday ((name ++ [',']) :: second :: later) = .ok (some name, second :: later) := by
  obtain ⟨a, b, c, rfl⟩ := List.length_eq_three.mp long
  simp [splitWeekday]

variable (noDigits : isDigits name = false)
include noDigits

theorem splitWeekday_before {day : Text} (filled : day ≠ []) (later : List Text) :
    splitWeekday (name :: (',' :: day) :: later) = .ok (some name, day :: later) := by
  obtain ⟨a, b, c, rfl⟩ := List.length_eq_three.mp long
  simp [splitWeekday, noDigits, filled]

theorem splitWeekday_wide (later : List Text) :
    splitWeekday (name :: [','] :: later) = .ok (some name, later) := by
  obtain ⟨a, b, c, rfl⟩ := List.length_eq_three.mp long
  simp [splitWeekday, noDigits]

end

theorem WeekdayPart.splits {stamp : Stamp} {part day gap : Text}
    (ofWeek : WeekdayPart stamp part) (word : IsWord day) (digits : isDigits day = true)
    (separates : Separates gap) {rest second : Text} {later : List Text}
    (rests : bareWords rest = second :: later) :
    ∃ found, splitWeekday (bareWords (part ++ (day ++ (gap ++ rest)))) =
        .ok (found, day :: second :: later)
      ∧ (weekday found = .ok none ∨ weekday found = .ok (some (weekdayOf stamp))) := by
  cases ofWeek with
  | omitted =>
    refine ⟨none, ?_, .inl rfl⟩
    rw [List.nil_append, word.bareWords_append separates, rests]
    simp [splitWeekday, digits]
  | @named name before after cased beforeComma afterComma =>
    obtain ⟨first, last⟩ := weekdayOf_bounds stamp
    obtain ⟨long, solid, noDigits, known⟩ := weekday_cased first last cased
    have filled : name ≠ [] := by
      rintro rfl
      cases long
    have isName : IsWord name := ⟨filled, solid⟩
    refine ⟨some name, ?_, .inr known⟩
    by_cases tightBefore : before = []
    next =>
      by_cases tightAfter : after = []
      next =>
        -- `Www,D`
        have whole := isWord_append isName (isWord_append isWord_comma word.2).2
        have split := whole.bareWords_append separates rest
        subst tightBefore tightAfter
        simp only [List.nil_append, List.append_assoc, List.cons_append] at split ⊢
        rw [split, rests]
        exact splitWeekday_tight long word.1 second later
      next =>
        -- `Www, D`
        have whole := isWord_append isName isWord_comma.2
        have split := whole.bareWords_append ⟨afterComma, tightAfter⟩ (day ++ (gap ++ rest))
        rw [word.bareWords_append separates, rests] at split
        subst tightBefore
        simp only [List.nil_append, List.append_assoc, List.cons_append] at split ⊢
        rw [split]
        exact splitWeekday_after long day (second :: later)
    next =>
      have split := isName.bareWords_append ⟨beforeComma, tightBefore⟩
      by_cases tightAfter : after = []
      next =>
        -- `Www ,D`
        have whole := isWord_append isWord_comma word.2
        have splitDay := whole.bareWords_append separates rest
        subst tightAfter
        simp only [List.nil_append, List.append_assoc, List.cons_append] at splitDay ⊢
        rw [split, splitDay, rests]
        exact splitWeekday_before long noDigits word.1 (second :: later)
      next =>
        -- `Www , D`
        have splitComma := isWord_comma.bareWords_append ⟨afterComma, tightAfter⟩
          (day ++ (gap ++ rest))
        rw [word.bareWords_append separates, rests] at splitComma
        simp only [List.nil_append, List.append_assoc, List.cons_append] at splitComma ⊢
        rw [split, splitComma]
        exact splitWeekday_wide long noDigits (day :: second :: later)

theorem isSolid_two (n : Int) : (two n).all isSolid = true := (isWord_padded 2 n.toNat).2

theorem ClockPart.joins {stamp : Stamp} {clock : Text} (timed : ClockPart stamp clock)
    (natural : stamp.Natural) (inRange : stamp.InRange) :
    ∃ joined, Joins clock joined ∧ joined ≠ []
      ∧ time joined = .ok (stamp.hour, stamp.minute, stamp.second) := by
  obtain ⟨firstHour, firstMinute, firstSecond, -⟩ := natural
  obtain ⟨-, lastHour, lastMinute, lastSecond, -⟩ := inRange
  have number (n : Int) : Joins (two n) (two n) := joins_word (isSolid_two n)
  have colon : Joins [':'] [':'] := joins_word (by decide)
  cases timed with
  | minutes full before after =>
    refine ⟨two stamp.hour ++ ':' :: two stamp.minute, ?_, by simp, ?_⟩
    next =>
      exact (number _).append (before.joins.append (colon.append (after.joins.append (number _))))
    next =>
      rw [full]
      exact time_minutes firstHour (by omega) firstMinute (by omega)
  | seconds beforeFirst afterFirst beforeSecond afterSecond =>
    refine ⟨two stamp.hour ++ ':' :: (two stamp.minute ++ ':' :: two stamp.second), ?_, by simp, ?_⟩
    next =>
      exact (number _).append (beforeFirst.joins.append (colon.append (afterFirst.joins.append
        ((number _).append (beforeSecond.joins.append (colon.append (afterSecond.joins.append
          (number _))))))))
    next =>
      exact time_seconds firstHour (by omega) firstMinute (by omega) firstSecond (by omega)

theorem OffsetWord.isWord {seconds : Int} {t : Text} (shifted : OffsetWord seconds t) :
    IsWord t := by
  have solid {sign : Char} (signed : isSolid sign = true) (hours minutes : Int) :
      IsWord (sign :: (two hours ++ two minutes)) := by
    refine ⟨List.cons_ne_nil _ _, ?_⟩
    rw [List.all_cons, List.all_append, signed, isSolid_two, isSolid_two]
    rfl
  cases shifted with
  | ahead => exact solid (by decide) _ _
  | behind => exact solid (by decide) _ _

theorem OffsetWord.offset_eq {seconds : Int} {t : Text} (shifted : OffsetWord seconds t) :
    offset t = .ok seconds := by
  cases shifted with
  | ahead same inDay inHour =>
    rw [same, offset_signed (.inl rfl) inDay.1 (by omega) inHour.1 inHour.2]
    rfl
  | behind same inDay inHour =>
    rw [same, offset_signed (.inr rfl) inDay.1 (by omega) inHour.1 inHour.2]
    rfl

theorem isAscii_of_isSolid {t : Text} (solid : t.all isSolid = true) : isAscii t = true := by
  refine List.all_eq_true.mpr fun c member => ?_
  have here := List.all_eq_true.mp solid c member
  simp only [isSolid, Bool.and_eq_true] at here
  exact here.1.1

theorem ClockPart.isAscii {stamp : Stamp} {clock : Text} (timed : ClockPart stamp clock) :
    isAscii clock = true := by
  have number (n : Int) : Text.isAscii (two n) = true := isAscii_of_isSolid (isSolid_two n)
  cases timed with
  | minutes full before after => simp [number, before.isAscii, after.isAscii]
  | seconds beforeFirst afterFirst beforeSecond afterSecond =>
    simp [number, beforeFirst.isAscii, afterFirst.isAscii, beforeSecond.isAscii,
      afterSecond.isAscii]

theorem WeekdayPart.isAscii {stamp : Stamp} {part : Text} (ofWeek : WeekdayPart stamp part) :
    isAscii part = true := by
  cases ofWeek with
  | omitted => rfl
  | named cased before after =>
    obtain ⟨first, last⟩ := weekdayOf_bounds stamp
    have name := isAscii_of_isSolid (weekday_cased first last cased).2.1
    simp [name, before.isAscii, after.isAscii]

theorem Form.isAscii {stamp : Stamp} (inRange : stamp.InRange) {t : Text}
    (form : Form stamp t) : isAscii t = true := by
  obtain ⟨⟨-, -, firstMonth, lastMonth, -⟩, -⟩ := inRange
  cases form with
  | intro leading ofWeek ofMonth afterDay named afterMonth afterYear timed afterClock shifted
      trailing =>
    simp [leading.isAscii, ofWeek.isAscii, isAscii_of_isSolid ofMonth.isWord.1.2,
      afterDay.1.isAscii, isAscii_of_isSolid (month_cased firstMonth lastMonth named).1.2,
      afterMonth.1.isAscii, isAscii_of_isSolid (isWord_padded 4 _).2, four,
      afterYear.1.isAscii, timed.isAscii, afterClock.1.isAscii,
      isAscii_of_isSolid shifted.isWord.2, trailing.isAscii]

theorem fields_of_parts {stamp : Stamp} (noFraction : stamp.nano = 0)
    {dayText monthText yearText offsetText : Text} {pieces : List Text}
    (dayRead : day dayText = .ok stamp.day) (monthRead : month monthText = .ok stamp.month)
    (yearRead : year yearText = .ok stamp.year) (filled : pieces ≠ [])
    (timeRead : time pieces.flatten = .ok (stamp.hour, stamp.minute, stamp.second))
    (offsetRead : offset offsetText = .ok stamp.offset) :
    fields (dayText :: monthText :: yearText :: (pieces ++ [offsetText])) = .ok stamp := by
  have some := List.length_pos_iff.mpr filled
  have enough : ¬ (pieces ++ [offsetText]).length < 2 := by
    rw [List.length_append, List.length_singleton]
    omega
  simp only [fields, if_neg enough, dayRead, monthRead, yearRead, List.dropLast_concat, timeRead,
    List.getLastD_concat, offsetRead, ok_bind, pure_eq_ok, ← noFraction]

theorem scan_of_parts {stamp : Stamp} (inRange : stamp.InRange) {t : Text} {found : Option Text}
    {parts : List Text} (ascii : isAscii t = true)
    (split : splitWeekday (bareWords t) = .ok (found, parts))
    (agrees : weekday found = .ok none ∨ weekday found = .ok (some (weekdayOf stamp)))
    (read : fields parts = .ok stamp) : scan t = .ok stamp.foldLeapSecond := by
  have checked : stamp.check = .ok stamp.foldLeapSecond := if_pos inRange
  unfold bareWords at split
  rcases agrees with known | known
  next => simp [scan, ascii, split, known, read, checked]
  next =>
    have same : weekdayOfDay (dayNumber stamp.foldLeapSecond.year stamp.foldLeapSecond.month
        stamp.foldLeapSecond.day) = weekdayOf stamp := by
      unfold Stamp.foldLeapSecond
      split <;> rfl
    simp [scan, ascii, split, known, read, checked, same]

theorem Form.parse_eq {stamp : Stamp} (natural : stamp.Natural) (inRange : stamp.InRange)
    (noFraction : stamp.nano = 0) {t : Text} (form : Form stamp t) :
    parse t = .ok stamp.foldLeapSecond := by
  have ascii := form.isAscii inRange
  obtain ⟨firstYear, lastYear, firstMonth, lastMonth, firstDay, -⟩ := inRange.1
  have lastDay : stamp.day ≤ 31 :=
    (⟨stamp.year, stamp.month, stamp.day, inRange.1⟩ : Date).day_le
  cases form with
  | @intro lead weekday day first month second third clock fourth offset trail leading ofWeek
      ofMonth afterDay named afterMonth afterYear timed afterClock shifted trailing =>
    obtain ⟨isMonth, monthRead⟩ := month_cased firstMonth lastMonth named
    obtain ⟨joined, joins, filled, timeRead⟩ := timed.joins natural inRange
    obtain ⟨pieces, rfl, clockWords⟩ := joins.bareWords_append afterClock (offset ++ trail)
    rw [shifted.isWord.bareWords_last trailing] at clockWords
    have isYear : IsWord (four stamp.year) := isWord_padded 4 _
    have afterFirst := isMonth.bareWords_append afterMonth
      (four stamp.year ++ (third ++ (clock ++ (fourth ++ (offset ++ trail)))))
    rw [isYear.bareWords_append afterYear, clockWords] at afterFirst
    obtain ⟨isDay, digits⟩ := ofMonth.isWord
    obtain ⟨found, split, agrees⟩ := ofWeek.splits isDay digits afterDay afterFirst
    rw [← leading.bareWords_append] at split
    have some : pieces ≠ [] := by
      rintro rfl
      exact filled rfl
    have read := fields_of_parts noFraction (ofMonth.day_eq (by omega) (by omega)) monthRead
      (year_written (by omega) (by omega)) some timeRead shifted.offset_eq
    rw [parse, scan_of_parts inRange ascii split agrees read]
    rfl

theorem exists_offsetWord {seconds : Int} (withinDay : seconds.natAbs < 86400)
    (whole : seconds % 60 = 0) : ∃ t, OffsetWord seconds t := by
  have inDay : 0 ≤ (seconds.natAbs : Int) / 3600 ∧ (seconds.natAbs : Int) / 3600 < 24 := by omega
  have inHour : 0 ≤ (seconds.natAbs : Int) % 3600 / 60
      ∧ (seconds.natAbs : Int) % 3600 / 60 < 60 := by omega
  rcases Int.lt_or_le seconds 0 with behind | ahead
  next => exact ⟨_, .behind (by omega) inDay inHour⟩
  next => exact ⟨_, .ahead (by omega) inDay inHour⟩

theorem exists_form {stamp : Stamp} (inRange : stamp.InRange) (whole : stamp.offset % 60 = 0) :
    ∃ t, Form stamp t := by
  obtain ⟨offset, shifted⟩ := exists_offsetWord inRange.2.2.2.2 whole
  have space : Separates [' '] := ⟨.blank (by decide) (by decide) .empty, by decide⟩
  exact ⟨_, .intro .empty .omitted (.inl rfl) space rfl space space
    (.seconds .empty .empty .empty .empty) space shifted .empty⟩

/-- A date, a time and an offset in whole minutes have forms, and all of them are read alike. -/
theorem parse_form {stamp : Stamp} (natural : stamp.Natural) (inRange : stamp.InRange)
    (noFraction : stamp.nano = 0) (whole : stamp.offset % 60 = 0) :
    (∃ t, Form stamp t) ∧ ∀ t, Form stamp t → parse t = .ok stamp.foldLeapSecond :=
  ⟨exists_form inRange whole, fun _ form => form.parse_eq natural inRange noFraction⟩

def halfYearLeap : Stamp := ⟨1972, 7, 1, 0, 59, 60, 0, 3600⟩

theorem parse_form_halfYearLeap :
    halfYearLeap.Natural ∧ halfYearLeap.InRange ∧ halfYearLeap.nano = 0
      ∧ halfYearLeap.offset % 60 = 0
      ∧ Form halfYearLeap (ofString "sAT(weekend) ,1 jUL(y)1972\t00:59 : (leap)60 +0100 (CET)")
      ∧ parse (ofString "sAT(weekend) ,1 jUL(y)1972\t00:59 : (leap)60 +0100 (CET)") =
        .ok ⟨1972, 7, 1, 0, 59, 59, 1000000000, 3600⟩ := by
  have natural : halfYearLeap.Natural :=
    ⟨by decide, by decide, by decide, by unfold IsFraction; decide⟩
  have inRange : halfYearLeap.InRange := by decide
  have space : Gap [' '] := .blank (by decide) (by decide) .empty
  have tab : Separates ['\t'] := ⟨.blank (by decide) (by decide) .empty, by decide⟩
  have weekend : Gap ('(' :: (ofString "weekend" ++ ')' :: [' '])) :=
    .comment (by decide) (by decide) space
  have comment : Separates ('(' :: (['y'] ++ [')'])) :=
    ⟨.comment (by decide) (by decide) .empty, by decide⟩
  have leap : Gap (' ' :: '(' :: (ofString "leap" ++ [')'])) :=
    .blank (by decide) (by decide) (.comment (by decide) (by decide) .empty)
  have name : Gap (' ' :: '(' :: (ofString "CET" ++ [')'])) :=
    .blank (by decide) (by decide) (.comment (by decide) (by decide) .empty)
  have weekday : WeekdayPart halfYearLeap
      (ofString "sAT" ++ ('(' :: (ofString "weekend" ++ ')' :: [' ']) ++ ',' :: [])) :=
    .named rfl weekend .empty
  have day : DayWord halfYearLeap.day (Text.decimal 1) := .inr ⟨by decide, rfl⟩
  have month : Cased (short (monthName halfYearLeap.month)) (ofString "jUL") := rfl
  have offset : OffsetWord 3600 ('+' :: (two 1 ++ two 0)) :=
    .ahead rfl (by decide) (by decide)
  have built := Form.intro .empty weekday day ⟨space, by decide⟩ month comment tab
    (.seconds .empty .empty space leap) ⟨space, by decide⟩ offset name
  have form : Form halfYearLeap
      (ofString "sAT(weekend) ,1 jUL(y)1972\t00:59 : (leap)60 +0100 (CET)") := by
    convert built using 1
    decide +kernel
  exact ⟨natural, inRange, rfl, rfl, form, (parse_form natural inRange rfl rfl).2 _ form⟩

end ZonedTime.Rfc2822
