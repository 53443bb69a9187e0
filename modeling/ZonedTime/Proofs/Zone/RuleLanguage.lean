import ZonedTime.Proofs.Zone.RuleSpelling

set_option autoImplicit false

namespace ZonedTime

open Text (isAscii isDigits)

namespace RuleScan

-- What the parts begin with and where they end.

def clockStart (c : Char) : Bool := c.isDigit || c == '+' || c == '-'

def nameStart (c : Char) : Bool := c.isAlpha || c == '<'

def dayStart (c : Char) : Bool := c.isDigit || c == 'M' || c == 'J'

def ClockEnds : Text -> Prop := Stops fun c => c.isDigit || c == ':'

def ChangeEnds : Text -> Prop := Stops fun c => c.isDigit || c == ':' || c == '/'

theorem ClockEnds.nil : ClockEnds [] := by
  rintro c ⟨⟩

theorem ChangeEnds.nil : ChangeEnds [] := by
  rintro c ⟨⟩

theorem ClockEnds.noDigit {t : Text} (ended : ClockEnds t) : Stops Char.isDigit t :=
  ended.imp fun c digit => by simp [digit]

theorem ClockEnds.noColon {t : Text} (ended : ClockEnds t) : Stops (· == ':') t :=
  ended.imp fun c colon => by simp only [colon, Bool.or_true]

theorem ChangeEnds.clockEnds {t : Text} (ended : ChangeEnds t) : ClockEnds t :=
  ended.imp fun c within => by simp only [within, Bool.true_or]

theorem ChangeEnds.noSlash {t : Text} (ended : ChangeEnds t) : Stops (· == '/') t :=
  ended.imp fun c slash => by simp only [slash, Bool.or_true]

theorem isNegative_spells :
    Spells isNegative RuleWord.Sign (Begins clockStart) (Begins Char.isDigit) := by
  have noMinus (t : Text) (digit : Begins Char.isDigit t) : Stops (· == '-') t :=
    digit.apart rfl
  have noPlus (t : Text) (start : Begins (· == '-') t ∨ Begins Char.isDigit t) :
      Stops (· == '+') t := by
    rcases start with minus | digit
    next => exact minus.isNot rfl
    next => exact digit.apart rfl
  have spells := (Spells.pure false _).ifNext (c := '+') (by decide)
    (skipIf_spells (c := '-') (by decide) noMinus) noPlus
  refine (spells.widen ?_).congr fun w negative => ⟨?_, ?_⟩
  next =>
    rintro t (plus | minus | digit)
    next => exact plus.is rfl
    next => exact minus.is rfl
    next => exact digit.imp fun c holds => by simp [clockStart, holds]
  next =>
    rintro (⟨_, ⟨rfl, rfl⟩, rfl⟩ | ⟨rfl, rfl⟩ | ⟨rfl, rfl⟩)
    next => exact .plus
    next => exact .minus
    next => exact .none
  next =>
    rintro (_ | _ | _)
    next => exact .inr (.inr ⟨rfl, rfl⟩)
    next => exact .inl ⟨[], ⟨rfl, rfl⟩, rfl⟩
    next => exact .inr (.inl ⟨rfl, rfl⟩)

theorem minutesAndSeconds_spells :
    Spells minutesAndSeconds RuleWord.WithinHour (Stops Char.isDigit) ClockEnds := by
  have seconds (minutes : Nat) := ((sixty_spells ClockEnds).andThen (minutes * 60 + ·)).ifNext
    (c := ':') (by decide) (.pure (minutes * 60) ClockEnds) fun t => ClockEnds.noColon
  have spells := ((sixty_spells _).bind seconds fun _ _ => trivial).ifNext (c := ':') (by decide)
    (.pure 0 ClockEnds) fun t => ClockEnds.noColon
  refine (spells.widen ?_).congr fun w n => ⟨?_, ?_⟩
  next =>
    rintro t (colon | ended)
    next => exact colon.isNot rfl
    next => exact ended.noDigit
  next =>
    rintro (⟨_, ⟨u, _, m, minute, ⟨s, ⟨k, second, rfl⟩, rfl⟩ | ⟨rfl, rfl⟩, rfl⟩, rfl⟩ | ⟨rfl, rfl⟩)
    next => exact .seconds minute second
    next => rw [List.append_nil]; exact .minutes minute
    next => exact .none
  next =>
    rintro (_ | ⟨minute⟩ | ⟨minute, second⟩)
    next => exact .inr ⟨rfl, rfl⟩
    next m minutes =>
      exact .inl ⟨m, ⟨m, [], _, minute, .inr ⟨rfl, rfl⟩, (List.append_nil m).symm⟩, rfl⟩
    next m s minutes seconds =>
      exact .inl ⟨m ++ ':' :: s, ⟨m, ':' :: s, _, minute, .inl ⟨s, ⟨_, second, rfl⟩, rfl⟩, rfl⟩,
        rfl⟩

theorem clock_spells (mostHours : Nat) :
    Spells (clock mostHours) (RuleWord.Clock mostHours) (Begins clockStart) ClockEnds := by
  have spells := isNegative_spells.bind (fun negative =>
    (digits_spells 3).bind (fun hours =>
      ((minutesAndSeconds_spells.andThen fun later =>
        let size : Nat := hours * 3600 + later
        if negative then -(size : Int) else size).checked (mostHours < hours) (.hourRange hours)))
      fun _ => id) fun _ => id
  refine spells.congr fun w n => ⟨?_, ?_⟩
  next =>
    rintro ⟨s, _, negative, sign, ⟨h, m, hours, hour, ⟨inRange, later, within, rfl⟩, rfl⟩, rfl⟩
    rw [← List.append_assoc]
    exact .signed sign hour (Nat.le_of_not_lt inRange) within
  next =>
    rintro ⟨sign, hour, inRange, within⟩
    next s h m negative hours later =>
      exact ⟨s, h ++ m, negative, sign,
        ⟨h, m, hours, hour, ⟨Nat.not_lt_of_le inRange, later, within, rfl⟩, rfl⟩,
        List.append_assoc s h m⟩

theorem offset_spells : Spells offset RuleWord.Offset (Begins clockStart) ClockEnds := by
  have spells := (clock_spells 24).bind (fun west =>
    (Spells.pure (-west) ClockEnds).checked (86400 ≤ west.natAbs) .offsetRange) fun _ => id
  refine spells.congr fun w n => ⟨?_, ?_⟩
  next =>
    rintro ⟨u, _, west, clock, ⟨withinDay, rfl, rfl⟩, rfl⟩
    rw [List.append_nil]
    exact .west clock (Nat.lt_of_not_le withinDay)
  next =>
    rintro ⟨clock, withinDay⟩
    exact ⟨w, [], _, clock, ⟨Nat.not_le_of_lt withinDay, rfl, rfl⟩, (List.append_nil w).symm⟩

theorem takeWhile_word {kind : Char -> Bool} {w rest : Text} (all : ∀ c ∈ w, kind c = true)
    (ended : Stops kind rest) : (w ++ rest).takeWhile kind = w := by
  have none : rest.takeWhile kind = [] := by
    cases rest with
    | nil => rfl
    | cons c rest => simp [ended c rfl]
  rw [List.takeWhile_append_of_pos all, none, List.append_nil]

theorem stops_dropWhile (kind : Char -> Bool) (t : Text) : Stops kind (t.dropWhile kind) := by
  intro c first
  have off := List.head?_dropWhile_not kind t
  rw [Option.mem_def.mp first] at off
  exact off

theorem quotedName_spells (ends : Text -> Prop) :
    Spells quotedName (fun w name => name ≠ [] ∧ isAscii name = true ∧ '>' ∉ name ∧
      w = name ++ ['>']) (fun _ => True) ends where
  word := by
    intro t rest name ascii read
    have named : quotedName t = .ok (name, rest) := read
    have parts := List.takeWhile_append_dropWhile (p := (· != '>')) (l := t)
    have ended := stops_dropWhile (· != '>') t
    have inside : '>' ∉ t.takeWhile (· != '>') := fun within => by
      have other := List.all_eq_true.mp List.all_takeWhile _ within
      cases other
    simp only [quotedName] at named
    split at named
    next => cases named
    next written =>
      simp only [Bool.or_eq_true, List.isEmpty_iff, decide_eq_true_eq, not_or] at written
      cases named
      cases after : t.dropWhile (· != '>') with
      | nil =>
        rw [after, List.append_nil] at parts
        exact absurd (congrArg List.length parts) written.2
      | cons c tail =>
        rw [after] at ended parts
        have close : c = '>' := by simpa using ended c rfl
        subst close
        refine ⟨_, ⟨written.1, ?_, inside, rfl⟩, ?_⟩
        next =>
          rw [← parts, Text.isAscii_append, Bool.and_eq_true] at ascii
          exact ascii.1
        next =>
          have left := congrArg (List.drop ((t.takeWhile (· != '>')).length + 1)) parts
          rw [List.drop_length_add_append] at left
          rw [← left, List.append_assoc]
          exact parts.symm
  reads := by
    rintro _ rest name ascii ⟨filled, -, inside, rfl⟩ -
    have run : (name ++ '>' :: rest).takeWhile (· != '>') = name := by
      refine takeWhile_word (fun c within => ?_) (by rintro _ ⟨⟩; rfl)
      exact bne_iff_ne.mpr fun same => inside (same ▸ within)
    change quotedName _ = _
    rw [List.append_assoc, List.singleton_append]
    simp [quotedName, run, filled]
  opens _ _ := trivial
  ascii := by
    rintro _ name ⟨-, ascii, -, rfl⟩
    rw [Text.isAscii_append, ascii]
    rfl

theorem plainName_spells :
    Spells plainName (fun w name => (∀ c ∈ name, c.isAlpha = true) ∧ 3 ≤ name.length ∧ w = name)
      (Begins Char.isAlpha) (Begins fun c => !c.isAlpha) where
  word := by
    intro t rest name ascii read
    have named : plainName t = .ok (name, rest) := read
    simp only [plainName] at named
    split at named
    next => cases named
    next =>
      split at named
      next => cases named
      next long =>
        cases named
        exact ⟨_, ⟨List.all_eq_true.mp List.all_takeWhile, Nat.le_of_not_lt long, rfl⟩,
          (List.prefix_iff_eq_append.mp (List.takeWhile_prefix _)).symm⟩
  reads := by
    rintro w rest _ ascii ⟨letters, long, rfl⟩ ended
    have run : (w ++ rest).takeWhile Char.isAlpha = w :=
      takeWhile_word letters (ended.stops fun c => by simp)
    have more : w.length ≠ (w ++ rest).length := by
      obtain ⟨c, first, -⟩ := ended
      cases rest with
      | nil => cases first
      | cons d rest => simp
    change plainName _ = _
    simp only [plainName, run, if_neg more, if_neg (Nat.not_lt_of_le long), List.drop_left]
  opens := by
    rintro w rest _ ⟨letters, long, rfl⟩ -
    cases w with
    | nil => cases long
    | cons c w => exact ⟨c, rfl, letters c List.mem_cons_self⟩
  ascii := by
    rintro _ name ⟨letters, -, rfl⟩
    exact List.all_eq_true.mpr fun c within =>
      decide_eq_true (Text.isAlpha_ascii (letters c within))

theorem zoneName_spells :
    Spells zoneName RuleWord.Name (Begins nameStart) (Begins fun c => !c.isAlpha) := by
  have spells := (quotedName_spells _).ifNext (c := '<') (by decide) plainName_spells
    fun t letter => letter.apart rfl
  refine (spells.widen ?_).congr fun w name => ⟨?_, ?_⟩
  next =>
    rintro t (quote | letter)
    next => exact quote.is rfl
    next => exact letter.imp fun c holds => by simp only [nameStart, holds, Bool.true_or]
  next =>
    rintro (⟨_, ⟨filled, ascii, inside, rfl⟩, rfl⟩ | ⟨letters, long, rfl⟩)
    next => exact .quoted filled ascii inside
    next => exact .plain letters long
  next =>
    rintro (⟨letters, long⟩ | ⟨filled, ascii, inside⟩)
    next => exact .inr ⟨letters, long, rfl⟩
    next => exact .inl ⟨_, ⟨filled, ascii, inside, rfl⟩, rfl⟩

theorem monthDay_spells :
    Spells monthDay (fun w day => ∃ month week weekday : Nat,
      RuleWord.MonthDay w month week weekday ∧
        day = if week = 5 then .last month weekday else .nth month week weekday)
      (Begins Char.isDigit) (Stops Char.isDigit) := by
  have dot := expect_spells (c := '.') (by decide) (.expected '.') (Begins Char.isDigit)
  have spells := (digits_spells 2).bind (fun month => dot.bind (fun _ =>
    (digits_spells 1).bind (fun week => dot.bind (fun _ =>
    (digits_spells 1).bind (fun weekday =>
    (Spells.pure (if week = 5 then ChangeDay.last month weekday else .nth month week weekday)
      (Stops Char.isDigit)).checked
      ((month < 1 || 12 < month || week < 1 || 5 < week || 6 < weekday) = true) .badRule)
      fun _ => id) fun _ => id) fun _ dot => dot.isNot rfl) fun _ => id) fun _ dot => dot.isNot rfl
  refine spells.congr fun w day => ⟨?_, ?_⟩
  next =>
    rintro ⟨m, _, month, monthWord, ⟨_, _, _, rfl, ⟨k, _, week, weekWord, ⟨_, _, _, rfl,
      ⟨d, _, weekday, weekdayWord, ⟨inRange, rfl, same⟩, rfl⟩, rfl⟩, rfl⟩, rfl⟩, rfl⟩
    simp only [Bool.or_eq_true, decide_eq_true_eq, not_or, Nat.not_lt] at inRange
    obtain ⟨⟨⟨⟨fromMonth, toMonth⟩, fromWeek⟩, toWeek⟩, inWeek⟩ := inRange
    refine ⟨month, week, weekday, ?_, same⟩
    simpa using RuleWord.MonthDay.dotted monthWord ⟨fromMonth, toMonth⟩ weekWord ⟨fromWeek, toWeek⟩
      weekdayWord inWeek
  next =>
    rintro ⟨month, week, weekday, ⟨monthWord, inYear, weekWord, inMonth, weekdayWord, inWeek⟩, same⟩
    next m k d =>
      refine ⟨m, _, month, monthWord, ⟨['.'], _, (), rfl, ⟨k, _, week, weekWord, ⟨['.'], _, (), rfl,
        ⟨d, [], weekday, weekdayWord, ⟨?_, rfl, same⟩, rfl⟩, rfl⟩, rfl⟩, rfl⟩, by simp⟩
      simp only [Bool.or_eq_true, decide_eq_true_eq, not_or, Nat.not_lt]
      exact ⟨⟨⟨⟨inYear.1, inYear.2⟩, inMonth.1⟩, inMonth.2⟩, inWeek⟩

theorem changeDay_spells :
    Spells changeDay RuleWord.Day (Begins dayStart) (Stops Char.isDigit) := by
  have julian := (digits_spells 3).bind (fun n =>
    (Spells.pure (ChangeDay.julian n) (Stops Char.isDigit)).checked
      ((n < 1 || 365 < n) = true) (.julianDayRange n)) fun _ => id
  have yearDay := (digits_spells 3).bind (fun n =>
    (Spells.pure (ChangeDay.yearDay (n + 1)) (Stops Char.isDigit)).checked
      (365 < n) (.yearDayRange n)) fun _ => id
  have noJ (t : Text) (digit : Begins Char.isDigit t) : Stops (· == 'J') t :=
    digit.apart rfl
  have noM (t : Text) (start : Begins (· == 'J') t ∨ Begins Char.isDigit t) :
      Stops (· == 'M') t := by
    rcases start with letter | digit
    next => exact letter.isNot rfl
    next => exact digit.apart rfl
  have spells := monthDay_spells.ifNext (c := 'M') (by decide)
    (julian.ifNext (c := 'J') (by decide) yearDay noJ) noM
  refine (spells.widen ?_).congr fun w day => ⟨?_, ?_⟩
  next =>
    rintro t (month | letter | digit)
    next => exact month.is rfl
    next => exact letter.is rfl
    next => exact digit.imp fun c holds => by simp [dayStart, holds]
  next =>
    rintro (⟨v, ⟨month, week, weekday, word, rfl⟩, rfl⟩ |
      ⟨_, ⟨v, _, n, numeral, ⟨inYear, rfl, rfl⟩, rfl⟩, rfl⟩ |
      ⟨v, _, n, numeral, ⟨inYear, rfl, rfl⟩, rfl⟩)
    next =>
      split
      next five => exact .last (five ▸ word)
      next counted => exact .nth word counted
    next =>
      simp only [Bool.or_eq_true, decide_eq_true_eq, not_or, Nat.not_lt] at inYear
      rw [List.append_nil]
      exact .julian numeral inYear
    next =>
      rw [List.append_nil]
      exact .yearDay numeral (Nat.le_of_not_lt inYear)
  next =>
    rintro (⟨word⟩ | ⟨word, counted⟩ | ⟨numeral, inYear⟩ | ⟨numeral, inYear⟩)
    next => exact .inl ⟨_, ⟨_, 5, _, word, rfl⟩, rfl⟩
    next => exact .inl ⟨_, ⟨_, _, _, word, (if_neg counted).symm⟩, rfl⟩
    next =>
      refine .inr (.inl ⟨_, ⟨_, [], _, numeral, ⟨?_, rfl, rfl⟩, (List.append_nil _).symm⟩, rfl⟩)
      simpa only [Bool.or_eq_true, decide_eq_true_eq, not_or, Nat.not_lt] using inYear
    next =>
      exact .inr (.inr ⟨_, [], _, numeral, ⟨Nat.not_lt_of_le inYear, rfl, rfl⟩,
        (List.append_nil _).symm⟩)

theorem change_spells : Spells change RuleWord.Change (Begins dayStart) ChangeEnds := by
  have written := (clock_spells 167).narrow fun t => ChangeEnds.clockEnds
  have time (day : ChangeDay) :=
    (written.andThen fun time => (⟨day, time⟩ : ZonedTime.Change)).ifNext (c := '/') (by decide)
      (.pure ⟨day, 7200⟩ ChangeEnds) fun t => ChangeEnds.noSlash
  have spells := changeDay_spells.bind time (by
    rintro t (slash | ended)
    next => exact slash.isNot rfl
    next => exact ended.clockEnds.noDigit)
  refine spells.congr fun w change => ⟨?_, ?_⟩
  next =>
    rintro ⟨d, _, day, dayWord, ⟨_, ⟨time, clock, rfl⟩, rfl⟩ | ⟨rfl, rfl⟩, rfl⟩
    next => exact .timed dayWord (.written clock)
    next => exact .timed dayWord .standard
  next =>
    rintro ⟨dayWord, _ | ⟨clock⟩⟩
    next d day => exact ⟨d, [], day, dayWord, .inr ⟨rfl, rfl⟩, rfl⟩
    next d day w clock => exact ⟨d, _, day, dayWord, .inl ⟨_, ⟨_, clock, rfl⟩, rfl⟩, rfl⟩

/-- The comma that follows the offset of daylight saving time counts where that is left out. -/
def offsetStart (c : Char) : Bool := clockStart c || c == ','

theorem not_isAlpha_of_clockStart {c : Char} (start : clockStart c = true) :
    (!c.isAlpha) = true := by
  simp only [clockStart, Bool.or_eq_true, beq_iff_eq] at start
  rcases start with (digit | rfl) | rfl
  next => rw [Text.not_isAlpha_of_isDigit digit]; rfl
  all_goals rfl

theorem not_isAlpha_of_offsetStart {c : Char} (start : offsetStart c = true) :
    (!c.isAlpha) = true := by
  simp only [offsetStart, Bool.or_eq_true, beq_iff_eq] at start
  rcases start with clock | rfl
  next => exact not_isAlpha_of_clockStart clock
  next => rfl

theorem daylightOffset_spells (standard : Int) (ends : Text -> Prop) :
    Spells (daylightOffset standard)
      (fun w offset => ∃ v, RuleWord.DaylightOffset standard v offset ∧ w = v ++ [','])
      (Begins offsetStart) ends := by
  have comma := expect_spells (c := ',') (by decide) (.expected ',') ends
  have written := offset_spells.bind (fun offset => comma.bind (fun _ => .pure offset ends)
    fun _ => id) fun t start => start.isNot rfl
  have hourAhead := (Spells.pure (standard + 3600) ends).checked (86400 ≤ standard + 3600)
    .daylightOffsetRange
  have spells := hourAhead.ifNext (c := ',') (by decide) written fun t clock => clock.apart rfl
  refine (spells.widen ?_).congr fun w offset => ⟨?_, ?_⟩
  next =>
    rintro t (comma | clock)
    next => exact comma.is rfl
    next => exact clock.imp fun c holds => by simp only [offsetStart, holds, Bool.true_or]
  next =>
    rintro (⟨_, ⟨withinDay, rfl, rfl⟩, rfl⟩ |
      ⟨v, _, offset, word, ⟨_, _, _, rfl, ⟨rfl, rfl⟩, rfl⟩, rfl⟩)
    next => exact ⟨[], .hourAhead (Int.lt_of_not_ge withinDay), rfl⟩
    next => exact ⟨v, .written word, by simp⟩
  next =>
    rintro ⟨v, ⟨withinDay⟩ | ⟨word⟩, rfl⟩
    next => exact .inl ⟨[], ⟨Int.not_le.mpr withinDay, rfl, rfl⟩, rfl⟩
    next => exact .inr ⟨v, [','], offset, word, ⟨[','], [], (), rfl, ⟨rfl, rfl⟩, rfl⟩, rfl⟩

theorem daylight_spells (standard : Int) :
    Spells (daylight standard) (RuleWord.Daylight standard) (Begins nameStart) ChangeEnds := by
  have comma := expect_spells (c := ',') (by decide) (.expected ',') (Begins dayStart)
  have spells := zoneName_spells.bind (fun name =>
    (daylightOffset_spells standard (Begins dayStart)).bind (fun offset =>
    change_spells.bind (fun start =>
    comma.bind (fun _ =>
    change_spells.andThen fun stop => ({ offset, name, start, stop } : ZonedTime.Daylight))
      fun _ => id) fun _ comma => comma.isNot rfl) fun _ => id) fun _ start =>
      start.imp fun c => not_isAlpha_of_offsetStart
  refine spells.congr fun w daylight => ⟨?_, ?_⟩
  next =>
    rintro ⟨n, _, name, nameWord, ⟨_, _, offset, ⟨w, offsetWord, rfl⟩, ⟨s, _, start, startWord,
      ⟨_, e, _, rfl, ⟨stop, stopWord, rfl⟩, rfl⟩, rfl⟩, rfl⟩, rfl⟩
    simpa using RuleWord.Daylight.changes nameWord offsetWord startWord stopWord
  next =>
    rintro ⟨nameWord, offsetWord, startWord, stopWord⟩
    next n w s e name offset start stop =>
      exact ⟨n, _, name, nameWord, ⟨w ++ [','], _, offset, ⟨w, offsetWord, rfl⟩, ⟨s, _, start,
        startWord, ⟨[','], e, (), rfl, ⟨stop, stopWord, rfl⟩, rfl⟩, rfl⟩, rfl⟩, by simp⟩

theorem clockEnds_of_nameStart {t : Text} (start : Begins nameStart t) : ClockEnds t :=
  start.stops fun c name => by
    simp only [nameStart, Bool.or_eq_true, beq_iff_eq] at name
    rcases name with letter | rfl
    next =>
      have noDigit : c.isDigit = false := Bool.eq_false_iff.mpr fun digit => by
        rw [Text.not_isAlpha_of_isDigit digit] at letter
        cases letter
      have noColon : (c == ':') = false := beq_false_of_ne (by rintro rfl; cases letter)
      rw [noDigit, noColon]
      rfl
    next => rfl

theorem endOfRule_takes_all {t rest : Text} {u : Unit} (read : Reads endOfRule t u rest) :
    t = [] ∧ rest = [] := by
  have ended : endOfRule t = .ok (u, rest) := read
  cases t with
  | nil =>
    cases ended
    exact ⟨rfl, rfl⟩
  | cons c t => cases ended

def seasons (name : Text) (standard : Int) : RuleScan Yearly := do
  if (<- get).isEmpty then
    return { standard, name, daylight := none }
  else
    let daylight <- daylight standard
    endOfRule
    return { standard, name, daylight := some daylight }

theorem zone_eq :
    zone = zoneName >>= fun name => offset >>= fun standard => seasons name standard := rfl

theorem reads_seasons_nil (name : Text) (standard : Int) :
    Reads (seasons name standard) [] { standard, name, daylight := none } [] := rfl

theorem reads_seasons_cons {name rest : Text} {standard : Int} {c : Char} {t : Text}
    {rule : Yearly} :
    Reads (seasons name standard) (c :: t) rule rest ↔
      ∃ daylight, Reads (RuleScan.daylight standard) (c :: t) daylight [] ∧ rest = []
        ∧ rule = { standard, name, daylight := some daylight } := by
  constructor
  next =>
    intro read
    obtain ⟨_, _, ⟨⟩, chosen⟩ := read.of_bind
    obtain ⟨daylight, tail, found, ends⟩ := Reads.of_bind chosen
    obtain ⟨_, _, ended, ⟨⟩⟩ := ends.of_bind
    obtain ⟨rfl, rfl⟩ := endOfRule_takes_all ended
    exact ⟨daylight, found, rfl, rfl⟩
  next =>
    rintro ⟨daylight, found, rfl, rfl⟩
    have left : Reads (get : RuleScan Text) (c :: t) (c :: t) (c :: t) := rfl
    have ended : Reads endOfRule [] () [] := rfl
    exact left.bind (Reads.bind found (Reads.bind ended (Reads.pure _ [])))

theorem seasons_takes_all {name t rest : Text} {standard : Int} {rule : Yearly}
    (read : Reads (seasons name standard) t rule rest) : rest = [] := by
  cases t with
  | nil =>
    cases read
    rfl
  | cons c t =>
    obtain ⟨-, -, ended, -⟩ := reads_seasons_cons.mp read
    exact ended

theorem zone_takes_all {t rest : Text} {rule : Yearly} (read : Reads zone t rule rest) :
    rest = [] := by
  rw [zone_eq] at read
  obtain ⟨name, after, -, shifts⟩ := read.of_bind
  obtain ⟨standard, left, -, last⟩ := shifts.of_bind
  exact seasons_takes_all last

theorem seasons_spells (name : Text) (standard : Int) :
    Spells (seasons name standard)
      (fun w rule => (w = [] ∧ rule = { standard, name, daylight := none }) ∨
        ∃ daylight, RuleWord.Daylight standard w daylight ∧
          rule = { standard, name, daylight := some daylight }) ClockEnds (· = []) where
  word := by
    intro t rest rule ascii read
    cases t with
    | nil =>
      cases read
      exact ⟨[], .inl ⟨rfl, rfl⟩, rfl⟩
    | cons c t =>
      obtain ⟨daylight, found, rfl, rfl⟩ := reads_seasons_cons.mp read
      obtain ⟨w, word, same⟩ := (daylight_spells standard).word ascii found
      exact ⟨w, .inr ⟨daylight, word, rfl⟩, same⟩
  reads := by
    rintro w rest rule - (⟨rfl, rfl⟩ | ⟨daylight, word, rfl⟩) rfl
    next => exact reads_seasons_nil name standard
    next =>
      obtain ⟨c, first, -⟩ := (daylight_spells standard).opens word ChangeEnds.nil
      have found := (daylight_spells standard).reads rfl word ChangeEnds.nil
      rw [List.append_nil] at first found ⊢
      cases w with
      | nil => cases first
      | cons c w => exact reads_seasons_cons.mpr ⟨daylight, found, rfl, rfl⟩
  opens := by
    rintro w rest rule (⟨rfl, rfl⟩ | ⟨daylight, word, rfl⟩) rfl
    next => exact ClockEnds.nil
    next => exact clockEnds_of_nameStart ((daylight_spells standard).opens word ChangeEnds.nil)
  ascii := by
    rintro w rule (⟨rfl, rfl⟩ | ⟨daylight, word, rfl⟩)
    next => rfl
    next => exact (daylight_spells standard).ascii word

theorem zone_spells : Spells zone RuleWord.Zone (Begins nameStart) (· = []) := by
  have spells := zoneName_spells.bind (fun name =>
    offset_spells.bind (seasons_spells name) fun _ => id) fun _ start =>
      start.imp fun c => not_isAlpha_of_clockStart
  refine spells.congr fun w rule => ⟨?_, ?_⟩
  next =>
    rintro ⟨n, _, name, nameWord, ⟨w, d, standard, offsetWord, ⟨rfl, rfl⟩ | ⟨daylight, word, rfl⟩,
      rfl⟩, rfl⟩
    next => rw [List.append_nil]; exact .constant nameWord offsetWord
    next => rw [← List.append_assoc]; exact .seasonal nameWord offsetWord word
  next =>
    rintro (⟨nameWord, offsetWord⟩ | ⟨nameWord, offsetWord, word⟩)
    next n w name standard =>
      exact ⟨n, w, name, nameWord, ⟨w, [], standard, offsetWord, .inl ⟨rfl, rfl⟩,
        (List.append_nil w).symm⟩, rfl⟩
    next n w d name standard daylight =>
      exact ⟨n, w ++ d, name, nameWord, ⟨w, d, standard, offsetWord, .inr ⟨daylight, word, rfl⟩,
        rfl⟩, List.append_assoc n w d⟩

theorem reads_zone_iff {t : Text} {rule : Yearly} (ascii : isAscii t = true) :
    (∃ rest, Reads zone t rule rest) ↔ RuleWord.Zone t rule := by
  constructor
  next =>
    rintro ⟨rest, read⟩
    obtain ⟨w, word, rfl⟩ := zone_spells.word ascii read
    rw [zone_takes_all read, List.append_nil]
    exact word
  next =>
    intro word
    have read := zone_spells.reads rfl word rfl
    rw [List.append_nil] at read
    exact ⟨[], read⟩

end RuleScan

namespace Yearly

theorem parse_eq_ok_iff (t : Text) (rule : Yearly) :
    parse t = .ok rule ↔ RuleWord.Zone t rule := by
  cases ascii : isAscii t with
  | false =>
    have refused : parse t = .error .nonAscii := by simp [parse, ascii]
    rw [refused]
    refine ⟨fun read => (by cases read), fun word => ?_⟩
    rw [RuleScan.zone_spells.ascii word] at ascii
    cases ascii
  | true =>
    have read : parse t = (RuleScan.zone.run t).map Prod.fst := by simp [parse, ascii]
    rw [read, ← RuleScan.reads_zone_iff ascii]
    cases ran : RuleScan.zone.run t with
    | error fault => simp [Reads, ran, Except.map]
    | ok found => simp [Reads, ran, Except.map, Prod.ext_iff]

/-- Exactly the texts of the language are read, each as the one rule it stands for, and the others
are errors of value. -/
theorem parse_language (t : Text) :
    (∀ rule, parse t = .ok rule ↔ RuleWord.Zone t rule) ∧
      ((∀ rule, ¬ RuleWord.Zone t rule) ↔
        ∃ fault, parse t = .error fault ∧ (Error.rule fault).kind = .value) ∧
      ∀ rule other, RuleWord.Zone t rule → RuleWord.Zone t other → rule = other := by
  refine ⟨parse_eq_ok_iff t, ⟨fun none => ?_, ?_⟩, fun rule other word same => ?_⟩
  next =>
    cases parsed : parse t with
    | error fault => exact ⟨fault, rfl, rfl⟩
    | ok rule => exact absurd ((parse_eq_ok_iff t rule).mp parsed) (none rule)
  next =>
    rintro ⟨fault, refused, -⟩ rule word
    rw [(parse_eq_ok_iff t rule).mpr word] at refused
    cases refused
  next =>
    have read := (parse_eq_ok_iff t rule).mpr word
    rw [(parse_eq_ok_iff t other).mpr same] at read
    cases read
    rfl

def mixed : Yearly where
  standard := 9015
  name := ['+', '2']
  daylight := some ⟨12615, ['X', 'Y', 'Z'], ⟨.last 3 0, -3600⟩, ⟨.yearDay 365, 7200⟩⟩

theorem parse_language_mixed :
    RuleWord.Zone (Text.ofString "<+2>-2:30:15XYZ,M3.5.0/-1,364") mixed
      ∧ (∀ rule, RuleWord.Zone (Text.ofString "<+2>-2:30:15XYZ,M3.5.0/-1,364") rule → rule = mixed)
      ∧ ∀ rule, ¬ RuleWord.Zone (Text.ofString "<+2>-2:30:15XYZ,M3.6.0/-1,364") rule := by
  obtain ⟨read, -, unique⟩ := parse_language (Text.ofString "<+2>-2:30:15XYZ,M3.5.0/-1,364")
  obtain ⟨-, refused, -⟩ := parse_language (Text.ofString "<+2>-2:30:15XYZ,M3.6.0/-1,364")
  have word := (read mixed).mp (by decide +kernel)
  exact ⟨word, fun rule other => unique rule mixed other word,
    refused.mpr ⟨.badRule, by decide +kernel, rfl⟩⟩

end Yearly

end ZonedTime
