import ZonedTime.Text.Basic

set_option autoImplicit false

namespace ZonedTime.Text

variable {sep : Char -> Bool}

theorem splitAll_solid {word : Text} (solid : ∀ c ∈ word, sep c = false) :
    splitAll sep word = [word] := by
  induction word with
  | nil => rfl
  | cons c rest ih =>
    obtain ⟨here, later⟩ := List.forall_mem_cons.mp solid
    simp [splitAll, here, ih later]

theorem splitAll_ne_nil (sep : Char -> Bool) (t : Text) : splitAll sep t ≠ [] := by
  cases t with
  | nil => simp [splitAll]
  | cons c rest =>
    unfold splitAll
    repeat' split
    all_goals simp

theorem splitAll_append {c : Char} (between : sep c = true) (s t : Text) :
    splitAll sep (s ++ c :: t) = splitAll sep s ++ splitAll sep t := by
  induction s with
  | nil => simp [splitAll, between]
  | cons d rest ih =>
    cases here : sep d with
    | true => simp [splitAll, here, ih]
    | false =>
      obtain ⟨piece, pieces, same⟩ := List.exists_cons_of_ne_nil (splitAll_ne_nil sep rest)
      simp [splitAll, here, ih, same]

theorem splitAll_intercalate {c : Char} (between : sep c = true) {first : Text}
    {pieces : List Text} (solid : ∀ piece ∈ first :: pieces, ∀ d ∈ piece, sep d = false) :
    splitAll sep ([c].intercalate (first :: pieces)) = first :: pieces := by
  -- The first piece is cut off where a separator follows it, so the first one has to vary.
  induction pieces generalizing first with
  | nil =>
    rw [List.intercalate_singleton]
    exact splitAll_solid (solid first (.head _))
  | cons second rest ih =>
    obtain ⟨here, later⟩ := List.forall_mem_cons.mp solid
    rw [List.intercalate_cons_cons, List.append_assoc, List.singleton_append,
      splitAll_append between, splitAll_solid here, ih later]
    rfl

theorem words_append {c : Char} (between : sep c = true) (s t : Text) :
    words sep (s ++ c :: t) = words sep s ++ words sep t := by
  rw [words, splitAll_append between, List.filter_append]
  rfl

theorem words_solid {word : Text} (filled : word ≠ []) (solid : ∀ c ∈ word, sep c = false) :
    words sep word = [word] := by
  rw [words, splitAll_solid solid]
  simp [filled]

theorem flatten_words (t : Text) : (words sep t).flatten = t.filter (!sep ·) := by
  have whole : (splitAll sep t).flatten = t.filter (!sep ·) := by
    induction t with
    | nil => rfl
    | cons c rest ih =>
      obtain ⟨piece, pieces, same⟩ :=
        List.exists_cons_of_ne_nil (splitAll_ne_nil sep rest)
      rw [same] at ih
      cases here : sep c with
      | true => simpa [splitAll, here, same] using ih
      | false => simpa [splitAll, here, same] using ih
  rw [← whole, words]
  exact List.flatten_filter_not_isEmpty

theorem words_intercalate {c : Char} (between : sep c = true) {first : Text}
    {pieces : List Text} (solid : ∀ piece ∈ first :: pieces, ∀ d ∈ piece, sep d = false)
    (filled : ∀ piece ∈ first :: pieces, piece ≠ []) :
    words sep ([c].intercalate (first :: pieces)) = first :: pieces := by
  rw [words, splitAll_intercalate between solid, List.filter_eq_self]
  intro piece member
  simpa using filled piece member

theorem mem_intercalate {c d : Char} {pieces : List Text} (member : d ∈ [c].intercalate pieces) :
    d = c ∨ ∃ piece ∈ pieces, d ∈ piece := by
  induction pieces with
  | nil => simp at member
  | cons first rest ih =>
    cases rest with
    | nil =>
      rw [List.intercalate_singleton] at member
      exact .inr ⟨first, .head _, member⟩
    | cons second later =>
      rw [List.intercalate_cons_cons, List.append_assoc, List.singleton_append,
        List.mem_append, List.mem_cons] at member
      rcases member with here | between | after
      next => exact .inr ⟨first, .head _, here⟩
      next => exact .inl between
      next =>
        rcases ih after with between | ⟨piece, listed, within⟩
        next => exact .inl between
        next => exact .inr ⟨piece, .tail _ listed, within⟩

end ZonedTime.Text
