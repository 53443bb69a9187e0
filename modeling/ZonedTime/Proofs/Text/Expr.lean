import ZonedTime.Proofs.Text.Recognition
import ZonedTime.Text.Expr

set_option autoImplicit false

namespace ZonedTime.Text.Expr

def Repeats (words : Text -> Prop) (least most : Nat) (w : Text) : Prop :=
  ∃ parts : List Text, (∀ part ∈ parts, words part) ∧ least ≤ parts.length
    ∧ parts.length ≤ most ∧ parts.flatten = w

def Word : Expr -> Text -> Prop
  | one accepts, w => ∃ c, accepts c = true ∧ [c] = w
  | both first second, w => ∃ u v, first.Word u ∧ second.Word v ∧ u ++ v = w
  | either first second, w => first.Word w ∨ second.Word w
  | times count extra part, w => Repeats part.Word count (count + extra) w

/-- What is left is what follows a word, for every word at the start. -/
def Leaves (step : Text -> List Text) (words : Text -> Prop) : Prop :=
  ∀ t rest, rest ∈ step t ↔ ∃ w, words w ∧ w ++ rest = t

section

variable {step next : Text -> List Text} {words later : Text -> Prop}

theorem Leaves.flatMap (first : Leaves step words) (second : Leaves next later) :
    Leaves (fun t => (step t).flatMap next)
      (fun w => ∃ u v, words u ∧ later v ∧ u ++ v = w) := by
  intro t rest
  simp only [List.mem_flatMap, first t _, second _ rest]
  constructor
  next =>
    rintro ⟨_, ⟨u, word, rfl⟩, v, wordLater, rfl⟩
    exact ⟨u ++ v, ⟨u, v, word, wordLater, rfl⟩, List.append_assoc u v rest⟩
  next =>
    rintro ⟨_, ⟨u, v, word, wordLater, rfl⟩, rfl⟩
    exact ⟨v ++ rest, ⟨u, word, (List.append_assoc u v rest).symm⟩, v, wordLater, rfl⟩

theorem repeats_cons {least most : Nat} {w : Text} :
    (∃ u v, words u ∧ Repeats words least most v ∧ u ++ v = w)
      ↔ Repeats words (least + 1) (most + 1) w := by
  constructor
  next =>
    rintro ⟨u, _, word, ⟨parts, all, enough, notMore, rfl⟩, rfl⟩
    refine ⟨u :: parts, ?_, ?_, ?_, rfl⟩
    next => simpa using ⟨word, all⟩
    next => simpa using enough
    next => simpa using notMore
  next =>
    rintro ⟨_ | ⟨u, parts⟩, all, enough, notMore, rfl⟩
    next => simp at enough
    next =>
      obtain ⟨word, all⟩ := List.forall_mem_cons.mp all
      simp only [List.length_cons, Nat.add_le_add_iff_right] at enough notMore
      exact ⟨u, parts.flatten, word, ⟨parts, all, enough, notMore, rfl⟩, rfl⟩

theorem repeats_never {w : Text} : Repeats words 0 0 w ↔ [] = w := by
  constructor
  next =>
    rintro ⟨parts, -, -, notMore, rfl⟩
    rw [List.length_eq_zero_iff.mp (Nat.le_zero.mp notMore)]
    rfl
  next =>
    rintro rfl
    exact ⟨[], by simp, Nat.le_refl 0, Nat.le_refl 0, rfl⟩

theorem repeats_again {extra : Nat} {w : Text} :
    Repeats words 0 (extra + 1) w
      ↔ (∃ u v, words u ∧ Repeats words 0 extra v ∧ u ++ v = w) ∨ [] = w := by
  rw [repeats_cons]
  constructor
  next =>
    rintro ⟨_ | ⟨u, parts⟩, all, -, notMore, rfl⟩
    next => exact .inr rfl
    next => exact .inl ⟨u :: parts, all, by simp, notMore, rfl⟩
  next =>
    rintro (⟨parts, all, -, notMore, rfl⟩ | rfl)
    next => exact ⟨parts, all, Nat.zero_le _, notMore, rfl⟩
    next => exact ⟨[], by simp, Nat.le_refl 0, Nat.zero_le _, rfl⟩

theorem Leaves.upTo (leaves : Leaves step words) (extra : Nat) :
    Leaves (upTo step extra) (Repeats words 0 extra) := by
  induction extra with
  | zero =>
    intro t rest
    simp [Expr.upTo, repeats_never, eq_comm]
  | succ extra ih =>
    intro t rest
    have more := leaves.flatMap ih t rest
    simp only [Expr.upTo, List.mem_append, more, List.mem_singleton, repeats_again, or_and_right,
      exists_or, exists_eq_left', List.nil_append]

theorem Leaves.repeated (leaves : Leaves step words) (extra count : Nat) :
    Leaves (repeated step extra count) (Repeats words count (count + extra)) := by
  induction count with
  | zero =>
    rw [Nat.zero_add]
    exact leaves.upTo extra
  | succ count ih =>
    intro t rest
    have more := leaves.flatMap ih t rest
    simp only [repeats_cons] at more
    rw [Nat.add_right_comm]
    exact more

end

theorem rests_leaves (expr : Expr) : Leaves expr.rests expr.Word := by
  induction expr with
  | one accepts =>
    rintro (_ | ⟨c, t⟩) rest
    next => simp [rests, Word]
    next =>
      constructor
      next =>
        intro left
        unfold rests at left
        split at left
        next accepted =>
          cases List.mem_singleton.mp left
          exact ⟨[c], ⟨c, accepted, rfl⟩, rfl⟩
        next => cases left
      next =>
        rintro ⟨_, ⟨d, accepted, rfl⟩, same⟩
        cases same
        simp [rests, accepted]
  | both first second ihFirst ihSecond => exact ihFirst.flatMap ihSecond
  | either first second ihFirst ihSecond =>
    intro t rest
    simp only [rests, List.mem_append, ihFirst t rest, ihSecond t rest, Word, or_and_right,
      exists_or]
  | times count extra part ih => exact ih.repeated extra count

/-- If no word begins another one, the first way is the only one. -/
theorem rest?_eq_some {expr : Expr}
    (unique : ∀ {u v rest other}, expr.Word u → expr.Word v → u ++ rest = v ++ other → rest = other)
    {t rest : Text} : expr.rest? t = some rest ↔ ∃ w, expr.Word w ∧ w ++ rest = t := by
  rw [← rests_leaves expr t rest, rest?]
  constructor
  next => exact List.mem_of_head?
  next =>
    intro left
    cases found : expr.rests t with
    | nil => simp [found] at left
    | cons other more =>
      obtain ⟨u, wordLeft, same⟩ := (rests_leaves expr t rest).mp left
      obtain ⟨v, word, rfl⟩ := (rests_leaves expr t other).mp (by simp [found])
      rw [unique wordLeft word same]
      rfl

theorem word_append {first second : Expr} {w : Text} :
    (first ++ second).Word w ↔ ∃ u v, first.Word u ∧ second.Word v ∧ u ++ v = w := .rfl

theorem word_assoc {first second third : Expr} {w : Text} :
    (first ++ second ++ third).Word w ↔ (first ++ (second ++ third)).Word w := by
  constructor
  next =>
    rintro ⟨_, v, ⟨t, u, begins, between, rfl⟩, ends, rfl⟩
    exact ⟨t, u ++ v, begins, ⟨u, v, between, ends, rfl⟩, (List.append_assoc t u v).symm⟩
  next =>
    rintro ⟨t, _, begins, ⟨u, v, between, ends, rfl⟩, rfl⟩
    exact ⟨t ++ u, v, ⟨t, u, begins, between, rfl⟩, ends, List.append_assoc t u v⟩

theorem word_char {c : Char} {w : Text} : (char c).Word w ↔ [c] = w := by
  simp [char, Word]

theorem word_char_append {c : Char} {expr : Expr} {w : Text} :
    (char c ++ expr).Word w ↔ ∃ v, expr.Word v ∧ c :: v = w := by
  simp [word_append, word_char]

theorem word_among {s : String} {w : Text} :
    (among s).Word w ↔ ∃ c, c ∈ ofString s ∧ [c] = w := by
  simp [among, Word]

theorem word_among_append {s : String} {expr : Expr} {w : Text} :
    (among s ++ expr).Word w ↔ ∃ c ∈ ofString s, ∃ v, expr.Word v ∧ c :: v = w := by
  simp [word_append, word_among]

theorem flatten_of_ones {accepts : Char -> Bool} {parts : List Text}
    (ones : ∀ part ∈ parts, (one accepts).Word part) :
    parts.flatten.all accepts = true ∧ parts.flatten.length = parts.length := by
  induction parts with
  | nil => exact ⟨rfl, rfl⟩
  | cons part parts ih =>
    obtain ⟨⟨c, accepted, rfl⟩, others⟩ := List.forall_mem_cons.mp ones
    obtain ⟨all, length⟩ := ih others
    rw [List.flatten_cons, List.all_append, List.length_append, all, length]
    exact ⟨by simp [accepted], Nat.add_comm 1 _⟩

theorem repeats_one {accepts : Char -> Bool} {least most : Nat} {w : Text} :
    Repeats (one accepts).Word least most w
      ↔ w.all accepts = true ∧ least ≤ w.length ∧ w.length ≤ most := by
  constructor
  next =>
    rintro ⟨parts, ones, enough, notMore, rfl⟩
    obtain ⟨all, length⟩ := flatten_of_ones ones
    exact ⟨all, length ▸ enough, length ▸ notMore⟩
  next =>
    rintro ⟨all, enough, notMore⟩
    have ones : (w.map fun c => [c]).flatten = w := by
      rw [← List.flatMap_def]
      exact List.flatMap_singleton' w
    refine ⟨w.map fun c => [c], ?_, by simpa using enough, by simpa using notMore, ones⟩
    intro part listed
    obtain ⟨c, inside, rfl⟩ := List.mem_map.mp listed
    exact ⟨c, List.all_eq_true.mp all c inside, rfl⟩

theorem word_digits {count : Nat} {w : Text} :
    (digits count).Word w ↔ ∃ n : Numeral count, n.digits = w := by
  rw [digits, Word, repeats_one]
  constructor
  next =>
    rintro ⟨numeral, enough, notMore⟩
    exact ⟨⟨w, numeral, Nat.le_antisymm notMore enough⟩, rfl⟩
  next =>
    rintro ⟨n, rfl⟩
    exact ⟨n.numeral, n.length.ge, n.length.le⟩

theorem word_digits_append {count : Nat} {expr : Expr} {w : Text} :
    (digits count ++ expr).Word w
      ↔ ∃ (n : Numeral count) (v : Text), expr.Word v ∧ n.digits ++ v = w := by
  simp [word_append, word_digits]

end ZonedTime.Text.Expr
