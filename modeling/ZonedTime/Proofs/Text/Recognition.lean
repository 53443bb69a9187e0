import ZonedTime.Proofs.Text.Scanning

/-!
Which texts a scanner reads, and what it says of the others. `Recognises` is about the words of a
scanner, each with its value: they are read whatever follows, so that no word begins with another
one; a text that begins with no word is too short if a word begins with it, and else it is invalid
and stays so.
-/

set_option autoImplicit false

namespace ZonedTime

variable {α β : Type}

structure Recognises (scan : Scan α) (words : Text -> α -> Prop) : Prop where
  some : ∃ w a, words w a
  reads {w : Text} {a : α} (word : words w a) (rest : Text) : Reads scan (w ++ rest) a rest
  word {t rest : Text} {a : α} (read : Reads scan t a rest) : ∃ w, words w a ∧ t = w ++ rest
  fails {t : Text} {issue : Issue} (failed : scan.run t = .error issue) :
    issue = .tooShort ∧ (∃ w a more, words w a ∧ w = t ++ more)
      ∨ issue = .invalid ∧ ∀ more, scan.run (t ++ more) = .error .invalid

def Listed {ι : Type} (text : ι -> Text) (value : ι -> α) (w : Text) (a : α) : Prop :=
  ∃ i, text i = w ∧ value i = a

theorem words_cases (words : Text -> α -> Prop) (t : Text) :
    (∃ w a rest, words w a ∧ t = w ++ rest)
      ∨ (∃ w a more, words w a ∧ more ≠ [] ∧ w = t ++ more)
      ∨ ∀ w a more, words w a → w ≠ t ++ more ∧ t ≠ w ++ more := by
  by_cases begins : ∃ w a rest, words w a ∧ t = w ++ rest
  next => exact .inl begins
  next =>
    by_cases begun : ∃ w a more, words w a ∧ more ≠ [] ∧ w = t ++ more
    next => exact .inr (.inl begun)
    next =>
      refine .inr (.inr fun w a more word => ⟨fun same => ?_, fun same => ?_⟩)
      next =>
        rcases eq_or_ne more [] with rfl | some
        next => exact begins ⟨w, a, [], word, by simpa using same.symm⟩
        next => exact begun ⟨w, a, more, word, some, same⟩
      next => exact begins ⟨w, a, more, word, same⟩

namespace Recognises

variable {scan : Scan α} {words : Text -> α -> Prop}

theorem tooShort_of_begun (recognised : Recognises scan words) {w t more : Text} {a : α}
    (word : words w a) (begun : w = t ++ more) (some : more ≠ []) :
    scan.run t = .error .tooShort := by
  subst begun
  have read := recognised.reads word []
  rw [List.append_nil] at read
  cases ran : scan.run t with
  | ok found =>
    obtain ⟨u, begins, rfl⟩ := recognised.word ran
    rw [List.append_assoc, Reads, recognised.reads begins (found.2 ++ more)] at read
    simp only [Except.ok.injEq, Prod.mk.injEq, List.append_eq_nil_iff] at read
    exact absurd read.2.2 some
  | error issue =>
    rcases recognised.fails ran with ⟨rfl, -⟩ | ⟨-, stays⟩
    next => rfl
    next =>
      rw [Reads, stays more] at read
      cases read

theorem invalid_of_neither (recognised : Recognises scan words) {t : Text}
    (neither : ∀ w a more, words w a → w ≠ t ++ more ∧ t ≠ w ++ more) :
    scan.run t = .error .invalid := by
  cases ran : scan.run t with
  | ok found =>
    obtain ⟨u, begins, whole⟩ := recognised.word ran
    exact absurd whole (neither u _ found.2 begins).2
  | error issue =>
    rcases recognised.fails ran with ⟨-, w, a, more, word, begun⟩ | ⟨rfl, -⟩
    next => exact absurd begun (neither w a more word).1
    next => rfl

theorem congr {other : Text -> α -> Prop} (recognised : Recognises scan words)
    (same : ∀ w a, words w a ↔ other w a) : Recognises scan other := by
  have equal : words = other := funext fun w => funext fun a => propext (same w a)
  exact equal ▸ recognised

theorem pure (a : α) :
    Recognises (Pure.pure a : Scan α) (Listed (fun _ : Unit => []) fun _ => a) where
  some := ⟨[], a, (), rfl, rfl⟩
  reads := by
    rintro _ _ ⟨_, rfl, rfl⟩ rest
    exact Reads.pure _ rest
  word := by
    rintro t rest b ⟨⟩
    exact ⟨[], ⟨(), rfl, rfl⟩, rfl⟩
  fails := by
    rintro t issue ⟨⟩

-- What the second scanner says of the rest holds of the whole text, since the first one reads its
-- word in front of any rest.
theorem bind {next : α -> Scan β} {later : α -> Text -> β -> Prop}
    (first : Recognises scan words) (second : ∀ a, Recognises (next a) (later a)) :
    Recognises (scan >>= next)
      (fun w b => ∃ u v a, words u a ∧ later a v b ∧ w = u ++ v) where
  some := by
    obtain ⟨u, a, word⟩ := first.some
    obtain ⟨v, b, wordLater⟩ := (second a).some
    exact ⟨u ++ v, b, u, v, a, word, wordLater, rfl⟩
  reads := by
    rintro _ b ⟨u, v, a, word, wordLater, rfl⟩ rest
    rw [List.append_assoc]
    exact (first.reads word (v ++ rest)).bind ((second a).reads wordLater rest)
  word := by
    intro t rest b read
    rw [Reads, StateT.run_bind] at read
    cases ran : scan.run t with
    | error issue =>
      rw [ran] at read
      cases read
    | ok found =>
      obtain ⟨a, middle⟩ := found
      rw [ran, ok_bind] at read
      obtain ⟨u, word, rfl⟩ := first.word ran
      obtain ⟨v, wordLater, rfl⟩ := (second a).word read
      exact ⟨u ++ v, ⟨u, v, a, word, wordLater, rfl⟩, (List.append_assoc u v rest).symm⟩
  fails := by
    intro t issue failed
    rw [StateT.run_bind] at failed
    cases ran : scan.run t with
    | error cause =>
      rw [ran] at failed
      cases failed
      rcases first.fails ran with ⟨short, u, a, more, word, begun⟩ | ⟨invalid, stays⟩
      next =>
        obtain ⟨v, b, wordLater⟩ := (second a).some
        refine .inl ⟨short, u ++ v, b, more ++ v, ⟨u, v, a, word, wordLater, rfl⟩, ?_⟩
        rw [begun, List.append_assoc]
      next =>
        refine .inr ⟨invalid, fun more => ?_⟩
        rw [StateT.run_bind, stays more]
        rfl
    | ok found =>
      obtain ⟨a, middle⟩ := found
      rw [ran, ok_bind] at failed
      obtain ⟨u, word, rfl⟩ := first.word ran
      rcases (second a).fails failed with ⟨short, v, b, more, wordLater, begun⟩ | ⟨invalid, stays⟩
      next =>
        refine .inl ⟨short, u ++ v, b, more, ⟨u, v, a, word, wordLater, rfl⟩, ?_⟩
        rw [begun, List.append_assoc]
      next =>
        refine .inr ⟨invalid, fun more => ?_⟩
        rw [List.append_assoc, StateT.run_bind, first.reads word (middle ++ more), ok_bind]
        exact stays more

theorem bind_listed {ι κ : Type} {text : ι -> Text} {value : ι -> α} {next : α -> Scan β}
    {textLater : κ -> Text} {valueLater : α -> κ -> β}
    (first : Recognises scan (Listed text value))
    (second : ∀ a, Recognises (next a) (Listed textLater (valueLater a))) :
    Recognises (scan >>= next)
      (Listed (fun p : ι × κ => text p.1 ++ textLater p.2)
        (fun p => valueLater (value p.1) p.2)) := by
  refine (first.bind second).congr fun w b => ⟨?_, ?_⟩
  next =>
    rintro ⟨_, _, _, ⟨i, rfl, rfl⟩, ⟨k, rfl, rfl⟩, rfl⟩
    exact ⟨(i, k), rfl, rfl⟩
  next =>
    rintro ⟨⟨i, k⟩, rfl, rfl⟩
    exact ⟨_, _, _, ⟨i, rfl, rfl⟩, ⟨k, rfl, rfl⟩, rfl⟩

theorem andThen {ι : Type} {text : ι -> Text} {value : ι -> α}
    (recognised : Recognises scan (Listed text value)) (f : α -> β) :
    Recognises (do return f (<- scan)) (Listed text fun i => f (value i)) := by
  refine (recognised.bind fun a => .pure (f a)).congr fun w b => ⟨?_, ?_⟩
  next =>
    rintro ⟨_, _, _, ⟨i, rfl, rfl⟩, ⟨_, rfl, rfl⟩, rfl⟩
    exact ⟨i, (List.append_nil _).symm, rfl⟩
  next =>
    rintro ⟨i, rfl, rfl⟩
    exact ⟨_, [], _, ⟨i, rfl, rfl⟩, ⟨(), rfl, rfl⟩, (List.append_nil _).symm⟩

theorem relist {ι κ : Type} {text : ι -> Text} {value : ι -> α} {textNew : κ -> Text}
    {valueNew : κ -> α} (recognised : Recognises scan (Listed text value)) (onto : ι -> κ)
    (back : κ -> ι) (sameText : ∀ i, textNew (onto i) = text i)
    (sameValue : ∀ i, valueNew (onto i) = value i) (onto_back : ∀ k, onto (back k) = k) :
    Recognises scan (Listed textNew valueNew) := by
  refine recognised.congr fun w a => ⟨?_, ?_⟩
  next =>
    rintro ⟨i, rfl, rfl⟩
    exact ⟨onto i, sameText i, sameValue i⟩
  next =>
    rintro ⟨k, rfl, rfl⟩
    refine ⟨back k, ?_, ?_⟩
    next => rw [← sameText, onto_back]
    next => rw [← sameValue, onto_back]

end Recognises

structure Numeral (width : Nat) where
  digits : Text
  numeral : Text.isDigits digits = true
  length : digits.length = width

namespace Numeral

variable {width : Nat}

def value (n : Numeral width) : Int := Text.value n.digits

def zero (width : Nat) : Numeral width where
  digits := List.replicate width '0'
  numeral := Text.isDigits_replicate width
  length := List.length_replicate

theorem digits_eq {width : Nat} (positive : 0 < width) (n : Numeral width) :
    n.digits = Text.padded width n.value.toNat := by
  have small := Text.value_lt n.numeral
  rw [n.length] at small
  apply Text.eq_of_value_eq n.numeral (Text.isDigits_padded _ _)
  next => exact n.length.trans (Text.padded_length positive small).symm
  next => rw [Text.value_padded]; rfl

theorem exists_padded {width : Nat} (positive : 0 < width) {n : Int} (first : 0 ≤ n)
    (last : n < 10 ^ width) :
    ∃ word : Numeral width, word.digits = Text.padded width n.toNat ∧ word.value = n := by
  have small : n.toNat < 10 ^ width := by
    have cast : ((10 ^ width : Nat) : Int) = 10 ^ width := by push_cast; rfl
    omega
  refine ⟨⟨_, Text.isDigits_padded _ _, Text.padded_length positive small⟩, rfl, ?_⟩
  rw [value, Text.value_padded]
  exact Int.toNat_of_nonneg first

end Numeral

namespace Scan

def lead (width : Nat) (t : Text) : Text := (t.take width).takeWhile Char.isDigit

theorem lead_starts (width : Nat) (t : Text) : lead width t <+: t :=
  (List.takeWhile_prefix _).trans (List.take_prefix width t)

theorem lead_length_le (width : Nat) (t : Text) : (lead width t).length ≤ width :=
  Nat.le_trans (List.takeWhile_prefix _).length_le (List.length_take_le width t)

theorem lead_append_of_lt {width : Nat} {t : Text} (missing : (lead width t).length < width)
    (other : (lead width t).length ≠ t.length) (more : Text) :
    lead width (t ++ more) = lead width t := by
  -- What ends the digits is a character of the text and not its end, which more text would move.
  have part : (lead width t).length ≠ (t.take width).length := by
    rw [List.length_take]
    omega
  rw [lead, List.take_append, List.takeWhile_append]
  exact if_neg part

theorem digits_eq (width : Nat) (t : Text) :
    digits width width t =
      if width ≤ (lead width t).length then .ok (lead width t, t.drop (lead width t).length)
      else if (lead width t).length = t.length then .error .tooShort
      else .error .invalid :=
  rfl

theorem number_run (width : Nat) (t : Text) :
    (number width).run t =
      if width ≤ (lead width t).length then
        .ok (Text.value (lead width t), t.drop (lead width t).length)
      else if (lead width t).length = t.length then .error .tooShort
      else .error .invalid := by
  unfold number
  rw [StateT.run_bind, StateT.run, digits_eq]
  split
  next => rfl
  next => split <;> rfl

theorem number_recognises (width : Nat) :
    Recognises (number width) (Listed Numeral.digits (@Numeral.value width)) where
  some := ⟨_, _, Numeral.zero width, rfl, rfl⟩
  reads := by
    rintro _ _ ⟨n, rfl, rfl⟩ rest
    exact (reads_digits n.numeral (Nat.le_of_eq n.length.symm) (Nat.le_of_eq n.length)
      (.inl n.length)).andThen
  word := by
    intro t rest a read
    rw [Reads, number_run] at read
    split at read
    next full =>
      cases read
      have length := Nat.le_antisymm (lead_length_le width t) full
      exact ⟨_, ⟨⟨lead width t, List.all_takeWhile, length⟩, rfl, rfl⟩,
        (List.prefix_iff_eq_append.mp (lead_starts width t)).symm⟩
    next => split at read <;> cases read
  fails := by
    intro t issue failed
    rw [number_run] at failed
    split at failed
    next => cases failed
    next missing =>
      split at failed
      next all =>
        -- All of the text is digits, which zeros can follow.
        cases failed
        have whole : lead width t = t := (lead_starts width t).eq_of_length all
        have digits : Text.isDigits t = true := by
          rw [← whole]
          exact List.all_takeWhile
        let n : Numeral width :=
          { digits := t ++ List.replicate (width - t.length) '0'
            numeral := by rw [Text.isDigits_append, digits, Text.isDigits_replicate]; rfl
            length := by rw [List.length_append, List.length_replicate]; omega }
        exact .inl ⟨rfl, _, _, _, ⟨n, rfl, rfl⟩, rfl⟩
      next other =>
        cases failed
        refine .inr ⟨rfl, fun more => ?_⟩
        have same := lead_append_of_lt (Nat.lt_of_not_le missing) other more
        rw [number_run, same, if_neg missing, if_neg]
        rw [List.length_append]
        have := (lead_starts width t).length_le
        omega

theorem one_recognises (accepts : Char -> Bool) {c : Char} (accepted : accepts c = true) :
    Recognises (one accepts)
      (Listed (fun d : { d // accepts d = true } => [d.val]) Subtype.val) where
  some := ⟨[c], c, ⟨c, accepted⟩, rfl, rfl⟩
  reads := by
    rintro _ _ ⟨⟨d, accepted⟩, rfl, rfl⟩ rest
    exact reads_one accepted rest
  word := by
    intro t rest d read
    cases t with
    | nil => cases read
    | cons first after =>
      change (if accepts first then Except.ok (first, after) else .error Issue.invalid) = _ at read
      split at read
      next accepted =>
        cases read
        exact ⟨[d], ⟨⟨d, accepted⟩, rfl, rfl⟩, rfl⟩
      next => cases read
  fails := by
    intro t issue failed
    cases t with
    | nil =>
      cases failed
      exact .inl ⟨rfl, [c], c, [c], ⟨⟨c, accepted⟩, rfl, rfl⟩, rfl⟩
    | cons first after =>
      change (if accepts first then Except.ok (first, after) else .error Issue.invalid) = _
        at failed
      split at failed
      next => cases failed
      next refused =>
        cases failed
        exact .inr ⟨rfl, fun more => if_neg refused⟩

theorem char_recognises (c : Char) :
    Recognises (char c) (Listed (fun _ : Unit => [c]) fun _ => ()) := by
  refine ((one_recognises (· == c) (beq_self_eq_true c)).andThen fun _ => ()).congr
    fun w _ => ⟨?_, ?_⟩
  next =>
    rintro ⟨⟨d, same⟩, rfl, -⟩
    exact ⟨(), by simpa using (beq_iff_eq.mp same).symm, rfl⟩
  next =>
    rintro ⟨_, rfl, -⟩
    exact ⟨⟨c, beq_self_eq_true c⟩, rfl, rfl⟩

theorem number_takes {width : Nat} {t rest : Text} {n : Int}
    (read : Reads (number width) t n rest) :
    ∃ word : Numeral width, word.value = n ∧ t = word.digits ++ rest := by
  obtain ⟨_, ⟨word, rfl, same⟩, whole⟩ := (number_recognises width).word read
  exact ⟨word, same, whole⟩

theorem char_takes {c : Char} {t rest : Text} (read : Reads (char c) t () rest) :
    t = c :: rest := by
  obtain ⟨_, ⟨_, rfl, -⟩, whole⟩ := (char_recognises c).word read
  exact whole

theorem optional_takes {c : Char} {t rest : Text} {found : Bool}
    (read : Reads (optional c) t found rest) :
    (found = true ∧ t = c :: rest) ∨ (found = false ∧ t = rest) := by
  cases t with
  | nil =>
    cases read
    exact .inr ⟨rfl, rfl⟩
  | cons d later =>
    change (if d == c then Except.ok (true, later) else .ok (false, d :: later)) = _ at read
    split at read
    next same =>
      cases read
      exact .inl ⟨rfl, by rw [beq_iff_eq.mp same]⟩
    next =>
      cases read
      exact .inr ⟨rfl, rfl⟩

theorem digits_takes {least most : Nat} {t run rest : Text}
    (read : Reads (digits least most) t run rest) :
    Text.isDigits run = true ∧ least ≤ run.length ∧ run.length ≤ most ∧ t = run ++ rest := by
  change digits least most t = .ok (run, rest) at read
  unfold digits at read
  simp only at read
  split at read
  next enough =>
    cases read
    exact ⟨List.all_takeWhile, enough, lead_length_le most t,
      (List.prefix_iff_eq_append.mp (lead_starts most t)).symm⟩
  next => split at read <;> cases read

end Scan

theorem Recognises.after_char (c : Char) {ι : Type} {next : Scan α} {text : ι -> Text}
    {value : ι -> α} (recognised : Recognises next (Listed text value)) :
    Recognises (do Scan.char c; next) (Listed (fun i => c :: text i) value) := by
  refine ((Scan.char_recognises c).bind fun _ => recognised).congr fun w a => ⟨?_, ?_⟩
  next =>
    rintro ⟨_, _, _, ⟨_, rfl, -⟩, ⟨i, rfl, rfl⟩, rfl⟩
    exact ⟨i, rfl, rfl⟩
  next =>
    rintro ⟨i, rfl, rfl⟩
    exact ⟨_, _, (), ⟨(), rfl, rfl⟩, ⟨i, rfl, rfl⟩, rfl⟩

end ZonedTime
