import ZonedTime.Proofs.Text.Recognition
import ZonedTime.Proofs.Zone.RuleWords
import ZonedTime.Zone.Yearly.Reader

set_option autoImplicit false

namespace ZonedTime

open Text (isAscii isDigits)

namespace Text

theorem numeral?_of_isDigits {run : Text} (digits : isDigits run = true) :
    numeral? run = some (value run) := by
  have fold : ∀ start : Nat,
      run.foldlM (fun total c => (decimalValue? c).map (10 * total + ·)) start =
        some (run.foldl (fun total c => 10 * total + digitValue c) start) := by
    induction run with
    | nil => exact fun start => rfl
    | cons c rest ih =>
      simp only [isDigits_cons, Bool.and_eq_true] at digits
      intro start
      simp [decimalValue?_of_isDigit digits.1, ih digits.2]
  exact fold 0

theorem all_isAnyDigit {t : Text} (ascii : isAscii t = true) :
    t.all isAnyDigit = isDigits t := by
  induction t with
  | nil => rfl
  | cons c rest ih =>
    simp only [isAscii_cons, Bool.and_eq_true, decide_eq_true_eq] at ascii
    simp [isAnyDigit_of_lt ascii.1, ih ascii.2]

theorem takeWhile_isAnyDigit {t : Text} (ascii : isAscii t = true) :
    t.takeWhile isAnyDigit = t.takeWhile Char.isDigit := by
  induction t with
  | nil => rfl
  | cons c rest ih =>
    simp only [isAscii_cons, Bool.and_eq_true, decide_eq_true_eq] at ascii
    simp [List.takeWhile_cons, isAnyDigit_of_lt ascii.1, ih ascii.2]

theorem isAscii_take {t : Text} (ascii : isAscii t = true) (n : Nat) :
    isAscii (t.take n) = true := by
  rw [← List.take_append_drop n t, isAscii_append, Bool.and_eq_true] at ascii
  exact ascii.1

end Text

def Begins (kind : Char -> Bool) (t : Text) : Prop := ∃ c ∈ t.head?, kind c = true

def Stops (kind : Char -> Bool) (t : Text) : Prop := ∀ c ∈ t.head?, kind c = false

section

variable {kind other : Char -> Bool} {t : Text}

theorem Begins.imp (begins : Begins kind t) (wider : ∀ c, kind c = true → other c = true) :
    Begins other t := by
  obtain ⟨c, first, holds⟩ := begins
  exact ⟨c, first, wider c holds⟩

theorem Begins.stops (begins : Begins kind t) (apart : ∀ c, kind c = true → other c = false) :
    Stops other t := by
  obtain ⟨c, first, holds⟩ := begins
  intro d same
  cases first.symm.trans same
  exact apart c holds

theorem Begins.is {c : Char} (begins : Begins (· == c) t) (holds : kind c = true) :
    Begins kind t :=
  begins.imp fun d same => by rwa [beq_iff_eq.mp same]

theorem Begins.isNot {c : Char} (begins : Begins (· == c) t) (not : kind c = false) :
    Stops kind t :=
  begins.stops fun d same => by rwa [beq_iff_eq.mp same]

theorem Begins.apart {c : Char} (begins : Begins kind t) (not : kind c = false) :
    Stops (· == c) t := by
  refine begins.stops fun d holds => beq_false_of_ne ?_
  rintro rfl
  rw [holds] at not
  cases not

theorem Stops.imp (stops : Stops kind t) (narrower : ∀ c, other c = true → kind c = true) :
    Stops other t := by
  intro c first
  have off := stops c first
  cases on : other c with
  | false => rfl
  | true => rw [narrower c on] at off; cases off

theorem begins_or_stops (c : Char) (t : Text) : (∃ rest, t = c :: rest) ∨ Stops (· == c) t := by
  cases t with
  | nil => exact .inr (by rintro d ⟨⟩)
  | cons d rest =>
    by_cases same : d = c
    next => exact .inl ⟨rest, by rw [same]⟩
    next =>
      refine .inr ?_
      rintro _ ⟨⟩
      exact beq_false_of_ne same

end

namespace RuleScan

variable {α β : Type}

/-- What the scanner takes off an ASCII text is a word, and it takes a word where the rest of the
text ends it. Such a text starts as the word does or, if that is empty, as the rest. -/
structure Spells (scan : RuleScan α) (words : Text -> α -> Prop) (starts ends : Text -> Prop) :
    Prop where
  word {t rest : Text} {a : α} (ascii : isAscii t = true) (read : Reads scan t a rest) :
    ∃ w, words w a ∧ t = w ++ rest
  reads {w rest : Text} {a : α} (ascii : isAscii rest = true) (word : words w a)
    (ended : ends rest) : Reads scan (w ++ rest) a rest
  opens {w rest : Text} {a : α} (word : words w a) (ended : ends rest) : starts (w ++ rest)
  ascii {w : Text} {a : α} (word : words w a) : isAscii w = true

namespace Spells

variable {scan : RuleScan α} {words other : Text -> α -> Prop} {starts ends : Text -> Prop}

theorem congr (spells : Spells scan words starts ends) (same : ∀ w a, words w a ↔ other w a) :
    Spells scan other starts ends := by
  have equal : words = other := funext fun w => funext fun a => propext (same w a)
  exact equal ▸ spells

theorem widen {wider : Text -> Prop} (spells : Spells scan words starts ends)
    (wide : ∀ t, starts t → wider t) : Spells scan words wider ends where
  word := spells.word
  reads := spells.reads
  opens word ended := wide _ (spells.opens word ended)
  ascii := spells.ascii

theorem narrow {narrower : Text -> Prop} (spells : Spells scan words starts ends)
    (narrow : ∀ t, narrower t → ends t) : Spells scan words starts narrower where
  word := spells.word
  reads ascii word ended := spells.reads ascii word (narrow _ ended)
  opens word ended := spells.opens word (narrow _ ended)
  ascii := spells.ascii

theorem pure (a : α) (ends : Text -> Prop) :
    Spells (Pure.pure a) (fun w b => w = [] ∧ b = a) ends ends where
  word := by
    rintro t rest b - ⟨⟩
    exact ⟨[], ⟨rfl, rfl⟩, rfl⟩
  reads := by
    rintro w rest b - ⟨rfl, rfl⟩ -
    exact Reads.pure b rest
  opens := by
    rintro w rest b ⟨rfl, rfl⟩ ended
    exact ended
  ascii := by
    rintro w b ⟨rfl, rfl⟩
    rfl

theorem bind {next : α -> RuleScan β} {later : α -> Text -> β -> Prop} {middle after : Text -> Prop}
    (first : Spells scan words starts ends) (second : ∀ a, Spells (next a) (later a) middle after)
    (meets : ∀ t, middle t → ends t) :
    Spells (scan >>= next) (fun w b => ∃ u v a, words u a ∧ later a v b ∧ w = u ++ v)
      starts after where
  word := by
    intro t rest b ascii read
    obtain ⟨a, between, here, there⟩ := read.of_bind
    obtain ⟨u, word, rfl⟩ := first.word ascii here
    rw [Text.isAscii_append, Bool.and_eq_true] at ascii
    obtain ⟨v, wordLater, rfl⟩ := (second a).word ascii.2 there
    exact ⟨u ++ v, ⟨u, v, a, word, wordLater, rfl⟩, (List.append_assoc u v rest).symm⟩
  reads := by
    rintro _ rest b ascii ⟨u, v, a, word, wordLater, rfl⟩ ended
    have tail : isAscii (v ++ rest) = true := by
      rw [Text.isAscii_append, (second a).ascii wordLater, ascii, Bool.and_true]
    have ending := meets _ ((second a).opens wordLater ended)
    rw [List.append_assoc]
    exact (first.reads tail word ending).bind ((second a).reads ascii wordLater ended)
  opens := by
    rintro _ rest b ⟨u, v, a, word, wordLater, rfl⟩ ended
    rw [List.append_assoc]
    exact first.opens word (meets _ ((second a).opens wordLater ended))
  ascii := by
    rintro _ b ⟨u, v, a, word, wordLater, rfl⟩
    rw [Text.isAscii_append, first.ascii word, (second a).ascii wordLater, Bool.and_true]

theorem andThen (f : α -> β) (spells : Spells scan words starts ends) :
    Spells (do return f (<- scan)) (fun w b => ∃ a, words w a ∧ b = f a) starts ends := by
  refine (spells.bind (fun a => .pure (f a) ends) fun _ ended => ended).congr fun w b => ⟨?_, ?_⟩
  next =>
    rintro ⟨u, _, a, word, ⟨rfl, same⟩, rfl⟩
    exact ⟨a, by rwa [List.append_nil], same⟩
  next =>
    rintro ⟨a, word, same⟩
    exact ⟨w, [], a, word, ⟨rfl, same⟩, (List.append_nil w).symm⟩

theorem checked (c : Prop) [Decidable c] (fault : RuleFault)
    (spells : Spells scan words starts ends) :
    Spells (if c then refuse fault >>= fun _ : Unit => scan else scan)
      (fun w a => ¬ c ∧ words w a) starts ends := by
  by_cases fails : c
  next =>
    simp only [fails, if_true, not_true_eq_false, false_and]
    constructor
    next => rintro t rest a - ⟨⟩
    next => rintro w rest a - ⟨⟩
    next => rintro w rest a ⟨⟩
    next => rintro w a ⟨⟩
  next =>
    simp only [fails, if_false, not_false_eq_true, true_and]
    exact spells

end Spells

theorem reads_skipIf (c : Char) (rest : Text) : Reads (skipIf c) (c :: rest) true rest := by
  change skipIf c (c :: rest) = .ok (true, rest)
  simp [skipIf, nextIs]

theorem reads_noSkip {c : Char} {t : Text} (other : Stops (· == c) t) :
    Reads (skipIf c) t false t := by
  have next : t.head? ≠ some c := by
    intro same
    simpa using other c same
  change skipIf c t = .ok (false, t)
  simp [skipIf, nextIs, next]

theorem skipIf_cases {c : Char} {t rest : Text} {found : Bool}
    (read : Reads (skipIf c) t found rest) :
    (found = true ∧ t = c :: rest) ∨ (found = false ∧ t = rest ∧ Stops (· == c) t) := by
  rcases begins_or_stops c t with ⟨tail, rfl⟩ | other
  next =>
    cases (reads_skipIf c tail).symm.trans read
    exact .inl ⟨rfl, rfl⟩
  next =>
    cases (reads_noSkip other).symm.trans read
    exact .inr ⟨rfl, rfl, other⟩

theorem skipIf_spells {c : Char} (ascii : c.toNat < 128) {ends : Text -> Prop}
    (other : ∀ t, ends t → Stops (· == c) t) :
    Spells (skipIf c) (fun w found => (w = [c] ∧ found = true) ∨ (w = [] ∧ found = false))
      (fun t => Begins (· == c) t ∨ ends t) ends where
  word := by
    intro t rest found _ read
    rcases skipIf_cases read with ⟨rfl, rfl⟩ | ⟨rfl, rfl, -⟩
    next => exact ⟨[c], .inl ⟨rfl, rfl⟩, rfl⟩
    next => exact ⟨[], .inr ⟨rfl, rfl⟩, rfl⟩
  reads := by
    rintro _ rest _ - (⟨rfl, rfl⟩ | ⟨rfl, rfl⟩) ended
    next => exact reads_skipIf c rest
    next => exact reads_noSkip (other _ ended)
  opens := by
    rintro _ rest _ (⟨rfl, rfl⟩ | ⟨rfl, rfl⟩) ended
    next => exact .inl ⟨c, rfl, beq_self_eq_true c⟩
    next => exact .inr ended
  ascii := by
    rintro _ _ (⟨rfl, rfl⟩ | ⟨rfl, rfl⟩)
    next => rw [Text.isAscii_cons, decide_eq_true ascii]; rfl
    next => rfl

theorem Spells.ifNext {c : Char} (ascii : c.toNat < 128) {yes no : RuleScan α}
    {present absent : Text -> α -> Prop} {inside starts ends : Text -> Prop}
    (first : Spells yes present inside ends) (second : Spells no absent starts ends)
    (apart : ∀ t, starts t → Stops (· == c) t) :
    Spells (do if (<- skipIf c) then yes else no)
      (fun w a => (∃ v, present v a ∧ w = c :: v) ∨ absent w a)
      (fun t => Begins (· == c) t ∨ starts t) ends where
  word := by
    intro t rest a ascii read
    obtain ⟨found, middle, skipped, chosen⟩ := read.of_bind
    rcases skipIf_cases skipped with ⟨rfl, rfl⟩ | ⟨rfl, rfl, -⟩
    next =>
      rw [Text.isAscii_cons, Bool.and_eq_true] at ascii
      obtain ⟨v, word, rfl⟩ := first.word ascii.2 chosen
      exact ⟨c :: v, .inl ⟨v, word, rfl⟩, rfl⟩
    next =>
      obtain ⟨w, word, rfl⟩ := second.word ascii chosen
      exact ⟨w, .inr word, rfl⟩
  reads := by
    rintro w rest a ascii (⟨v, word, rfl⟩ | word) ended
    next => exact (reads_skipIf c (v ++ rest)).bind (first.reads ascii word ended)
    next =>
      have other := apart _ (second.opens word ended)
      exact (reads_noSkip other).bind (second.reads ascii word ended)
  opens := by
    rintro w rest a (⟨v, word, rfl⟩ | word) ended
    next => exact .inl ⟨c, rfl, beq_self_eq_true c⟩
    next => exact .inr (second.opens word ended)
  ascii := by
    rintro w a (⟨v, word, rfl⟩ | word)
    next => simpa [ascii] using first.ascii word
    next => exact second.ascii word

theorem expect_takes {c : Char} {fault : RuleFault} {t rest : Text} {u : Unit}
    (read : Reads (expect c fault) t u rest) : t = c :: rest := by
  obtain ⟨found, middle, skipped, checked⟩ := read.of_bind
  rcases skipIf_cases skipped with ⟨rfl, rfl⟩ | ⟨rfl, rfl, -⟩
  next =>
    cases checked
    rfl
  next => cases checked

theorem expect_spells {c : Char} (ascii : c.toNat < 128) (fault : RuleFault) (ends : Text -> Prop) :
    Spells (expect c fault) (fun w _ => w = [c]) (Begins (· == c)) ends where
  word _ read := ⟨[c], rfl, expect_takes read⟩
  reads := by
    rintro _ rest _ _ rfl _
    exact (reads_skipIf c rest).bind (Reads.pure () rest)
  opens := by
    rintro _ rest _ rfl -
    exact ⟨c, rfl, beq_self_eq_true c⟩
  ascii := by
    rintro _ _ rfl
    rw [Text.isAscii_cons, decide_eq_true ascii]
    rfl

theorem digits_run {most : Nat} {t : Text} (ascii : isAscii t = true) :
    (digits most).run t =
      if Scan.lead most t = [] then .error (.digitsExpected t)
      else .ok (Text.value (Scan.lead most t), t.drop (Scan.lead most t).length) := by
  have lead : (t.take most).takeWhile Text.isAnyDigit = Scan.lead most t :=
    Text.takeWhile_isAnyDigit (Text.isAscii_take ascii most)
  have numeral : numeral (Scan.lead most t) = .ok (Text.value (Scan.lead most t)) := by
    have run : isDigits (Scan.lead most t) = true := List.all_takeWhile
    simp [RuleScan.numeral, Text.numeral?_of_isDigits run]
  change digits most t = _
  unfold digits
  simp only [lead]
  by_cases none : Scan.lead most t = []
  next => simp [none]; rfl
  next => simp [none, numeral]

theorem digits_spells (most : Nat) :
    Spells (digits most) (RuleWord.Numeral most) (Begins Char.isDigit) (Stops Char.isDigit) where
  word := by
    intro t rest n ascii read
    rw [Reads, digits_run ascii] at read
    split at read
    next => cases read
    next filled =>
      cases read
      exact ⟨Scan.lead most t, ⟨List.all_takeWhile, filled, Scan.lead_length_le most t, rfl⟩,
        (List.prefix_iff_eq_append.mp (Scan.lead_starts most t)).symm⟩
  reads := by
    rintro w rest n ascii ⟨numeral, filled, short, rfl⟩ ended
    have lead : Scan.lead most (w ++ rest) = w := by
      have read := Scan.reads_digits numeral (Nat.zero_le _) short (.inr ended)
      exact (Prod.mk.inj (Except.ok.inj read)).1
    have whole : isAscii (w ++ rest) = true := by
      rw [Text.isAscii_append, Text.isAscii_of_isDigits numeral, ascii, Bool.and_true]
    rw [Reads, digits_run whole, lead, if_neg filled, List.drop_left]
  opens := by
    rintro w rest n ⟨numeral, filled, -, -⟩ -
    cases w with
    | nil => exact absurd rfl filled
    | cons c w =>
      simp only [Text.isDigits_cons, Bool.and_eq_true] at numeral
      exact ⟨c, rfl, numeral.1⟩
  ascii word := Text.isAscii_of_isDigits word.digits

theorem sixty_run {t : Text} (ascii : isAscii t = true) :
    sixty.run t =
      if (t.take 2).length < 2 ∨ isDigits (t.take 2) = false then .error (.twoDigitsExpected t)
      else if 59 < Text.value (t.take 2) then .error (.sixtyRange (t.take 2))
      else .ok (Text.value (t.take 2), t.drop 2) := by
  have digits : (t.take 2).all Text.isAnyDigit = isDigits (t.take 2) :=
    Text.all_isAnyDigit (Text.isAscii_take ascii 2)
  change sixty t = _
  unfold sixty
  simp only [digits, Bool.or_eq_true, decide_eq_true_eq, Bool.not_eq_true']
  by_cases wrong : (t.take 2).length < 2 ∨ isDigits (t.take 2) = false
  next => simp only [wrong, if_true]; rfl
  next =>
    have numeral : numeral (t.take 2) = .ok (Text.value (t.take 2)) := by
      rw [not_or, Bool.not_eq_false] at wrong
      simp [RuleScan.numeral, Text.numeral?_of_isDigits wrong.2]
    simp only [wrong, if_false, numeral, ok_bind]
    split <;> rfl

theorem sixty_spells (ends : Text -> Prop) :
    Spells sixty RuleWord.Sixty (fun _ => True) ends where
  word := by
    intro t rest n ascii read
    rw [Reads, sixty_run ascii] at read
    split at read
    next => cases read
    next pair =>
      rw [not_or, Bool.not_eq_false] at pair
      split at read
      next => cases read
      next inRange =>
        cases read
        have short := List.length_take_le 2 t
        exact ⟨t.take 2, ⟨pair.2, by omega, rfl, by omega⟩, (List.take_append_drop 2 t).symm⟩
  reads := by
    rintro w rest n ascii ⟨numeral, two, rfl, inRange⟩ -
    have pair : (w ++ rest).take 2 = w := List.take_left' two
    have right : ¬ (w.length < 2 ∨ isDigits w = false) := by simp [numeral, two]
    have whole : isAscii (w ++ rest) = true := by
      rw [Text.isAscii_append, Text.isAscii_of_isDigits numeral, ascii, Bool.and_true]
    rw [Reads, sixty_run whole, pair, if_neg right, if_neg (by omega), List.drop_left' two]
  opens _ _ := trivial
  ascii word := Text.isAscii_of_isDigits word.digits

end RuleScan

end ZonedTime
