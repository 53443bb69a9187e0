import ZonedTime.Proofs.Pattern.ReadBack

set_option autoImplicit false

namespace ZonedTime

namespace Pattern

def letters? : Text -> Option (List Char)
  | [] => some []
  | '%' :: letter :: rest => (letters? rest).map (letter :: ·)
  | c :: rest => if c = '%' then none else letters? rest

def plainLetters : List Char :=
  ['Y', 'C', 'y', 'm', 'd', 'j', 'U', 'W', 'w', 'u', 'G', 'g', 'V', 'H', 'I', 'M', 'S', 'f', 'p',
    'P', '%', 't', 'n']

def letterItems (letter : Char) : List Item := (directives.lookup [letter]).getD []

def letterSlots (letter : Char) : List Slot := (letterItems letter).flatMap Item.slots

theorem letters?_text {c : Char} (other : c ≠ '%') (rest : Text) :
    letters? (c :: rest) = letters? rest := by
  rw [letters?.eq_def]
  split
  next impossible => cases impossible
  next same =>
    cases same
    exact absurd rfl other
  next same =>
    cases same
    rw [if_neg other]

theorem letters?_run {run : Text} (others : ∀ c ∈ run, c ≠ '%') (rest : Text) :
    letters? (run ++ rest) = letters? rest := by
  induction run with
  | nil => rfl
  | cons c run ih =>
    obtain ⟨here, later⟩ := List.forall_mem_cons.mp others
    rw [List.cons_append, letters?_text here, ih later]

theorem letters?_drop (accepts : Char -> Bool) (without : accepts '%' = false) {c : Char}
    (other : c ≠ '%') (rest : Text) :
    letters? (rest.drop (rest.takeWhile accepts).length) = letters? (c :: rest) := by
  have others : ∀ d ∈ rest.takeWhile accepts, d ≠ '%' := by
    rintro d member rfl
    have accepted := List.all_eq_true.mp List.all_takeWhile _ member
    simp [without] at accepted
  have split := List.prefix_iff_eq_append.mp (List.takeWhile_prefix (l := rest) accepts)
  have run := letters?_run others (rest.drop (rest.takeWhile accepts).length)
  rw [split] at run
  rw [letters?_text other, run]

theorem forall_plain {p : Char -> Prop} [DecidablePred p]
    (all : plainLetters.all (fun letter => decide (p letter)) = true) :
    ∀ letter ∈ plainLetters, p letter :=
  fun letter member => of_decide_eq_true (List.all_eq_true.mp all letter member)

theorem letterItems_plain : ∀ letter ∈ plainLetters, ∀ item ∈ letterItems letter, item.plain :=
  forall_plain (by decide)

theorem padded?_letter {letter : Char} (allowed : letter ∈ plainLetters) (rest : Text) :
    padded? (letter :: rest) = some (letterItems letter, 1) := by
  revert letter
  simp only [plainLetters, List.forall_mem_cons]
  repeat' constructor
  simp

def CompilesTo (letters : List Char) (compiled : Option (List Item)) : Prop :=
  ∃ items, compiled = some items ∧ (∀ item ∈ items, item.plain)
    ∧ items.flatMap Item.slots = letters.flatMap letterSlots

theorem CompilesTo.text {letters : List Char} {rest : Option (List Item)} {item : Item}
    (later : CompilesTo letters rest) (plain : item.plain) (noSlots : item.slots = []) :
    CompilesTo letters (rest.map (item :: ·)) := by
  obtain ⟨items, rfl, allPlain, slots⟩ := later
  refine ⟨item :: items, rfl, List.forall_mem_cons.mpr ⟨plain, allPlain⟩, ?_⟩
  simpa [noSlots] using slots

theorem CompilesTo.letter {letter : Char} {letters : List Char} {rest : Option (List Item)}
    (later : CompilesTo letters rest) (allowed : letter ∈ plainLetters) :
    CompilesTo (letter :: letters) (rest.map (letterItems letter ++ ·)) := by
  obtain ⟨items, rfl, plain, slots⟩ := later
  refine ⟨letterItems letter ++ items, rfl, ?_, ?_⟩
  next => exact List.forall_mem_append.mpr ⟨letterItems_plain letter allowed, plain⟩
  next => simp [List.flatMap_append, slots, letterSlots]

theorem compile?_plain {pattern : Text} {letters : List Char}
    (spelled : letters? pattern = some letters) (allowed : letters ⊆ plainLetters) :
    CompilesTo letters (compile? pattern) := by
  -- A directive takes one letter; text and blanks take none, however far they reach.
  fun_induction compile? pattern generalizing letters with
  | case1 =>
    cases spelled
    exact ⟨[], rfl, by simp, rfl⟩
  | case2 c rest percent found length padded ih =>
    rw [beq_iff_eq.mp percent] at spelled
    cases rest with
    | nil => simp [letters?] at spelled
    | cons letter rest =>
      obtain ⟨more, spelledLater, rfl⟩ := Option.map_eq_some_iff.mp spelled
      obtain ⟨here, later⟩ := List.cons_subset.mp allowed
      rw [padded?_letter here rest] at padded
      cases padded
      exact (ih spelledLater later).letter here
  | case3 c rest percent unknown =>
    rw [beq_iff_eq.mp percent] at spelled
    cases rest with
    | nil => simp [letters?] at spelled
    | cons letter rest =>
      obtain ⟨more, -, rfl⟩ := Option.map_eq_some_iff.mp spelled
      rw [padded?_letter (allowed (.head _)) rest] at unknown
      cases unknown
  | case4 c rest other isBlank run =>
    rename_i ih
    have sign : c ≠ '%' := fun same => other (beq_iff_eq.mpr same)
    have spelledLater := (letters?_drop Text.isBlank rfl sign rest).trans spelled
    have plain : (Item.blank (c :: run)).plain := by
      simp [Item.plain, isBlank, run, List.all_takeWhile]
    exact (ih spelledLater allowed).text plain rfl
  | case5 c rest other notBlank run =>
    rename_i ih
    have sign : c ≠ '%' := fun same => other (beq_iff_eq.mpr same)
    have spelledLater := (letters?_drop isPlain rfl sign rest).trans spelled
    have plain : (Item.literal (c :: run)).plain := by simpa [Item.plain] using notBlank
    exact (ih spelledLater allowed).text plain rfl

/-- Letters that determine a date and a time. A year of a century comes with its century, and
a day by itself or with its month. -/
structure Sufficient (letters : List Char) : Prop where
  allowed : letters ⊆ plainLetters
  year : 'Y' ∈ letters
  isoYear : 'g' ∈ letters → 'G' ∈ letters
  day : ('m' ∈ letters ∧ 'd' ∈ letters)
    ∨ ('m' ∉ letters ∧ ('j' ∈ letters
      ∨ (('U' ∈ letters ∨ 'W' ∈ letters) ∧ ('u' ∈ letters ∨ 'w' ∈ letters))))
  hour : 'H' ∈ letters
  minute : 'M' ∈ letters
  second : 'S' ∈ letters
  nanosecond : 'f' ∈ letters

namespace Sufficient

variable {letters : List Char}

theorem mem_slots {letter : Char} {slot : Slot} (member : letter ∈ letters)
    (states : slot ∈ letterSlots letter) : slot ∈ (letters.flatMap letterSlots).reverse := by
  rw [List.mem_reverse, List.mem_flatMap]
  exact ⟨letter, member, states⟩

theorem mem_letters (enough : Sufficient letters) {slot : Slot}
    (member : slot ∈ (letters.flatMap letterSlots).reverse) :
    ∃ letter ∈ letters, letter ∈ plainLetters ∧ slot ∈ letterSlots letter := by
  rw [List.mem_reverse, List.mem_flatMap] at member
  obtain ⟨letter, found, states⟩ := member
  exact ⟨letter, found, enough.allowed found, states⟩

theorem noTimestamp (enough : Sufficient letters) :
    .timestamp ∉ (letters.flatMap letterSlots).reverse := by
  intro member
  obtain ⟨letter, -, allowed, states⟩ := enough.mem_letters member
  have never : ∀ letter ∈ plainLetters, .timestamp ∉ letterSlots letter :=
    forall_plain (by decide)
  exact never letter allowed states

theorem determineTime (enough : Sufficient letters) :
    Fields.DetermineTime (letters.flatMap letterSlots).reverse where
  half := mem_slots enough.hour (by decide)
  hourOfHalf := mem_slots enough.hour (by decide)
  minute := mem_slots enough.minute (by decide)
  second := mem_slots enough.second (by decide)
  nanosecond := mem_slots enough.nanosecond (by decide)
  timestamp := enough.noTimestamp

theorem determineDate (enough : Sufficient letters) :
    Fields.DetermineDate (letters.flatMap letterSlots).reverse := by
  -- A slot that only one letter states comes of that letter.
  have only {slot : Slot} {letter : Char} (one : ∀ other ∈ plainLetters,
      slot ∈ letterSlots other → other = letter)
      (member : slot ∈ (letters.flatMap letterSlots).reverse) : letter ∈ letters := by
    obtain ⟨other, found, allowed, states⟩ := enough.mem_letters member
    exact one other allowed states ▸ found
  refine ⟨mem_slots enough.year (by decide), ?_, ?_, enough.noTimestamp⟩
  next =>
    rintro (century | rest)
    next =>
      -- No letter states a century of the ISO year.
      have isoYear : 'G' ∈ letters := only (forall_plain (by decide)) century
      exact mem_slots isoYear (by decide)
    next => exact mem_slots (enough.isoYear (only (forall_plain (by decide)) rest)) (by decide)
  next =>
    rcases enough.day with ⟨month, day⟩ | ⟨month, yearDay | ⟨week, weekday⟩⟩
    next => exact .inl ⟨mem_slots month (by decide), mem_slots day (by decide)⟩
    next =>
      refine .inr ⟨fun member => month (only (forall_plain (by decide)) member), .inl ?_⟩
      exact mem_slots yearDay (by decide)
    next =>
      refine .inr ⟨fun member => month (only (forall_plain (by decide)) member), .inr ⟨?_, ?_⟩⟩
      next =>
        rcases week with sunday | monday
        next => exact .inl (mem_slots sunday (by decide))
        next => exact .inr (mem_slots monday (by decide))
      next =>
        rcases weekday with monday | sunday
        next => exact mem_slots monday (by decide)
        next => exact mem_slots sunday (by decide)

end Sufficient

end Pattern

namespace Reading

open Pattern (letters? Sufficient)

/-- What a pattern of plain letters that determine date and time writes of a reading is read back
by the pattern as that reading, leap seconds included. -/
theorem parse_format {pattern : Text} {letters : List Char}
    (spelled : letters? pattern = some letters) (enough : Sufficient letters) {reading : Reading}
    (proper : reading.Proper) :
    ∃ t, reading.format pattern = .ok t ∧ parse t pattern = .ok reading := by
  obtain ⟨items, compiled, plain, slots⟩ := Pattern.compile?_plain spelled enough.allowed
  have compiles : Pattern.compile pattern = .ok items := by
    rw [Pattern.compile, compiled]
  have rendered := Pattern.render_written reading plain
  have read := Pattern.read_written reading plain
  rw [slots] at read
  refine ⟨items.flatMap (Pattern.written reading), ?_, ?_⟩
  next => simp [format, Pattern.format, compiles, rendered]
  next =>
    have found := Fields.known_reading proper enough.determineDate enough.determineTime
    simp [parse, Pattern.parse, compiles, read, found]

/-- Fields in no order and without separators, with weeks in place of the month. -/
def crowded : Text := Text.ofString "%u%%%W%g\t %t7%f%S%n%P%I%M%w%H%p%C%y%V%G%Y"

def newYearsEve : Reading :=
  ⟨⟨2016, 12, 31, Date.isDate_endOf2016⟩, ⟨23, 59, 59, 1987654321, Time.isClock_lastSecond⟩⟩

theorem parse_format_newYearsEve :
    ∃ letters, letters? crowded = some letters ∧ Sufficient letters ∧ newYearsEve.Proper
      ∧ ∃ t, newYearsEve.format crowded = .ok t ∧ parse t crowded = .ok newYearsEve := by
  have spelled : letters? crowded = some ("u%WgtfSnPIMwHpCyVGY".toList) := by decide
  have enough : Sufficient ("u%WgtfSnPIMwHpCyVGY".toList) := by
    constructor <;> decide
  have proper : newYearsEve.Proper := by decide
  exact ⟨_, spelled, enough, proper, parse_format spelled enough proper⟩

end Reading

end ZonedTime
