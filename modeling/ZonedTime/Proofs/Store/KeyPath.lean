import Mathlib.Data.List.TakeWhile
import ZonedTime.Proofs.Text.Words
import ZonedTime.Store.Basic

set_option autoImplicit false

namespace ZonedTime

namespace Text

variable {sep : Char -> Bool} {part piece t : Text}

theorem hasInfix_iff : hasInfix part t = true ↔ part <:+: t := by
  induction t with
  | nil => simp [hasInfix, List.isEmpty_iff]
  | cons c rest ih =>
    rw [hasInfix, Bool.or_eq_true, ih, List.infix_cons_iff, List.isPrefixOf_iff_prefix]

theorem splitAll_cons_takeWhile (sep : Char -> Bool) (t : Text) :
    ∃ pieces, splitAll sep t = t.takeWhile (!sep ·) :: pieces := by
  induction t with
  | nil => exact ⟨[], rfl⟩
  | cons c rest ih =>
    obtain ⟨pieces, same⟩ := ih
    cases here : sep c <;> simp [splitAll, here, same]

theorem infix_of_mem_splitAll (member : piece ∈ splitAll sep t) : piece <:+: t := by
  induction t generalizing piece with
  | nil => simpa [splitAll] using member
  | cons c rest ih =>
    obtain ⟨pieces, same⟩ := splitAll_cons_takeWhile sep rest
    have later (listed : piece ∈ splitAll sep rest) : piece <:+: c :: rest :=
      (ih listed).trans (List.suffix_cons c rest).isInfix
    unfold splitAll at member
    split at member
    next =>
      rcases List.mem_cons.mp member with rfl | listed
      next => exact List.nil_infix
      next => exact later listed
    next =>
      -- The piece that the character is put in front of is a beginning of the rest.
      rw [same] at member
      rcases List.mem_cons.mp member with rfl | listed
      next =>
        have begins := List.takeWhile_prefix (l := rest) (!sep ·)
        exact ((List.prefix_cons_inj c).mpr begins).isInfix
      next =>
        apply later
        rw [same]
        exact .tail _ listed

end Text

namespace Path

variable {base name : Text} {names : List Text}

def descend (place : List Text) (name : Text) : List Text :=
  if name = ['.', '.'] then place.dropLast else place ++ [name]

/-- The components that are left of a path when each `..` has taken back the one before it. -/
def resolve (path : Text) : List Text := (components path).foldl descend []

theorem foldl_descend (plain : ['.', '.'] ∉ names) (place : List Text) :
    names.foldl descend place = place ++ names := by
  induction names generalizing place with
  | nil => rw [List.foldl_nil, List.append_nil]
  | cons name rest ih =>
    obtain ⟨here, later⟩ := not_or.mp (List.mem_cons.not.mp plain)
    rw [List.foldl_cons, ih later, descend, if_neg (Ne.symm here), List.append_assoc]
    rfl

theorem resolve_of_plain (plain : ['.', '.'] ∉ components base) : resolve base = components base :=
  foldl_descend plain []

theorem exists_join (filled : base ≠ []) (relative : name.head? ≠ some '/') :
    ∃ front, join base name = front ++ '/' :: name
      ∧ (base = front ∧ base.getLast? ≠ some '/' ∨ base = front ++ ['/']) := by
  rw [join, if_neg relative]
  by_cases ended : base.getLast? = some '/'
  next =>
    obtain ⟨front, same⟩ := List.getLast?_eq_some_iff.mp ended
    rw [if_pos (.inr ended), same, List.append_assoc]
    exact ⟨front, rfl, .inr rfl⟩
  next =>
    rw [if_neg (not_or.mpr ⟨filled, ended⟩)]
    exact ⟨base, rfl, .inl ⟨rfl, ended⟩⟩

theorem words_slash (front name : Text) :
    Text.words (· == '/') (front ++ '/' :: name) =
      Text.words (· == '/') front ++ Text.words (· == '/') name := by
  apply Text.words_append
  rfl

theorem words_cons {c : Char} (other : c ≠ '/') (rest : Text) :
    ∃ more others, Text.words (· == '/') (c :: rest) = (c :: more) :: others := by
  obtain ⟨pieces, split⟩ := Text.splitAll_cons_takeWhile (· == '/') (c :: rest)
  rw [Text.words, split]
  simp [other]

theorem words_join (filled : base ≠ []) (relative : name.head? ≠ some '/') :
    Text.words (· == '/') (join base name) =
      Text.words (· == '/') base ++ Text.words (· == '/') name := by
  obtain ⟨front, joined, ⟨same, -⟩ | same⟩ := exists_join filled relative
  next => rw [joined, words_slash, same]
  next =>
    have none : Text.words (· == '/') [] = [] := rfl
    rw [joined, words_slash, same, words_slash, none, List.append_nil]

theorem components_join (filled : base ≠ []) (relative : name.head? ≠ some '/') :
    components (join base name) = components base ++ components name := by
  rw [components, words_join filled relative, List.filter_append]
  rfl

theorem rootOf_join (filled : base ≠ []) (relative : name.head? ≠ some '/') :
    rootOf (join base name) = rootOf base := by
  have none : name.takeWhile (· == '/') = [] := by
    cases name with
    | nil => rfl
    | cons c rest =>
      have other : c ≠ '/' := fun same => relative (congrArg some same)
      simp [other]
  have slashes : (join base name).takeWhile (· == '/') = base.takeWhile (· == '/') := by
    obtain ⟨front, joined, ⟨same, unended⟩ | same⟩ := exists_join filled relative
    next =>
      -- A base of slashes alone would end in one.
      have some : (base.takeWhile (· == '/')).length ≠ base.length := by
        intro whole
        have all := (List.takeWhile_prefix _).eq_of_length whole
        rw [List.takeWhile_eq_self_iff] at all
        have last := all _ (List.getLast_mem filled)
        rw [List.getLast?_eq_some_getLast filled, beq_iff_eq.mp last] at unended
        exact unended rfl
      rw [joined, ← same, List.takeWhile_append, if_neg some]
    next =>
      rw [joined, same]
      simp [List.takeWhile_append, none]
  rw [rootOf, rootOf, slashes]

end Path

namespace Key

variable {key : Text}

theorem isSafe_iff :
    isSafe key = true ↔ (0 < key.length ∧ key.length < 100 ∧ (∀ c ∈ key, allows c = true))
      ∧ ¬ ['.', '.'] <:+: key ∧ ¬ ['/', '/'] <:+: key ∧ ¬ ['/', '.', '/'] <:+: key
      ∧ allowsFirst (key.headD '/') = true ∧ key.getLastD '/' ≠ '/' := by
  simp only [isSafe, ← Text.hasInfix_iff, Bool.and_eq_true, decide_eq_true_eq, List.all_eq_true,
    Bool.not_eq_true', bne_iff_ne, Bool.not_eq_true, and_assoc]

theorem exists_first (safe : isSafe key = true) :
    ∃ c rest, key = c :: rest ∧ c ≠ '.' ∧ c ≠ '/' := by
  obtain ⟨⟨filled, -⟩, -, -, -, first, -⟩ := isSafe_iff.mp safe
  obtain ⟨c, rest, same⟩ := List.exists_cons_of_length_pos filled
  rw [same, List.headD_cons] at first
  simp only [allowsFirst, Bool.and_eq_true, bne_iff_ne] at first
  exact ⟨c, rest, same, first.1.1.1, first.2⟩

theorem not_isAbsolute (safe : isSafe key = true) : Path.isAbsolute key = false := by
  obtain ⟨c, rest, same, -, notSlash⟩ := exists_first safe
  obtain ⟨⟨-, -, allowed⟩, -⟩ := isSafe_iff.mp safe
  have notRoot : c ≠ '@' := by
    intro root
    have clean := allowed '@' (by simp [same, root])
    exact absurd clean (by decide)
  simp [Path.isAbsolute, same, notSlash, notRoot]

theorem head?_ne_slash (safe : isSafe key = true) : key.head? ≠ some '/' := by
  intro slash
  have relative := not_isAbsolute safe
  rw [Path.isAbsolute, slash] at relative
  exact absurd relative (by decide)

theorem plain (safe : isSafe key = true) : ['.', '.'] ∉ Text.words (· == '/') key := by
  obtain ⟨-, noDots, -⟩ := isSafe_iff.mp safe
  intro member
  exact noDots (Text.infix_of_mem_splitAll (List.mem_filter.mp member).1)

theorem plain_components (safe : isSafe key = true) : ['.', '.'] ∉ Path.components key :=
  fun member => plain safe (List.mem_filter.mp member).1

-- What stands before the first slash is neither empty nor a single dot.
theorem components_ne_nil (safe : isSafe key = true) : Path.components key ≠ [] := by
  obtain ⟨c, rest, same, notDot, notSlash⟩ := exists_first safe
  obtain ⟨more, others, words⟩ := Path.words_cons notSlash rest
  rw [Path.components, same, words]
  simp [notDot]

/-- Normalised, an absolute folder joined with an accepted key is the folder with something
below it: the same root, all the folder's components and at least one more. -/
theorem check_below {key safe base : Text} (accepted : check key = .ok safe)
    (absolute : Path.isAbsolute base = true) (straight : ['.', '.'] ∉ Path.components base) :
    Path.isAbsolute key = false
      ∧ Path.rootOf (Path.join base key) = Path.rootOf base
      ∧ ∃ first more, Path.resolve (Path.join base key) =
        Path.components base ++ first :: more := by
  have isSafe : isSafe key = true := by
    by_contra refused
    rw [check, if_neg refused] at accepted
    cases accepted
  have filled : base ≠ [] := by
    intro none
    rw [none] at absolute
    exact absurd absolute (by decide)
  have relative := head?_ne_slash isSafe
  obtain ⟨first, more, below⟩ := List.exists_cons_of_ne_nil (components_ne_nil isSafe)
  have plain : ['.', '.'] ∉ Path.components (Path.join base key) := by
    rw [Path.components_join filled relative, List.mem_append]
    exact not_or.mpr ⟨straight, plain_components isSafe⟩
  have resolved : Path.resolve (Path.join base key) = Path.components base ++ first :: more := by
    rw [Path.resolve_of_plain plain, Path.components_join filled relative, below]
  exact ⟨not_isAbsolute isSafe, Path.rootOf_join filled relative, first, more, resolved⟩

theorem check_below_dotAtEnd :
    check ['a', '/', '.'] = .ok ['a', '/', '.'] ∧ Path.isAbsolute ['/', 'z', '/', '/'] = true
      ∧ ['.', '.'] ∉ Path.components ['/', 'z', '/', '/']
      ∧ ∃ first more, Path.resolve (Path.join ['/', 'z', '/', '/'] ['a', '/', '.']) =
        Path.components ['/', 'z', '/', '/'] ++ first :: more := by
  have accepted : check ['a', '/', '.'] = .ok ['a', '/', '.'] := rfl
  have absolute : Path.isAbsolute ['/', 'z', '/', '/'] = true := rfl
  have straight : ['.', '.'] ∉ Path.components ['/', 'z', '/', '/'] := by decide
  obtain ⟨-, -, below⟩ := check_below accepted absolute straight
  exact ⟨accepted, absolute, straight, below⟩

end Key

namespace Files

variable {files : Files} {key base : Text} {place found : List Text}

theorem walk_append (files : Files) (place names more : List Text) :
    files.walk place (names ++ more) =
      (files.walk place names).bind fun reached => files.walk reached more := by
  induction names generalizing place with
  | nil => rfl
  | cons name rest ih =>
    simp only [List.cons_append, walk]
    split
    next => split <;> simp [ih]
    next =>
      split
      next => split <;> simp [ih]
      next => exact ih _

theorem walk_of_plain {names : List Text} (plain : ['.', '.'] ∉ names)
    (walked : files.walk place names = some found) :
    found = place ++ names.filter (· != ['.']) := by
  induction names generalizing place with
  | nil =>
    cases walked
    exact (List.append_nil found).symm
  | cons name rest ih =>
    obtain ⟨here, later⟩ := not_or.mp (List.mem_cons.not.mp plain)
    unfold walk at walked
    rw [if_neg (Ne.symm here)] at walked
    split at walked
    next dot =>
      split at walked
      next => simpa [dot] using ih later walked
      next => cases walked
    next other => simpa [other] using ih later walked

theorem locate?_eq_some {path : Text} :
    files.locate? path = some place ↔ path.head? = some '@'
      ∧ ∃ names, Text.words (· == '/') path = ['@'] :: names ∧ files.walk [] names = some place := by
  unfold locate?
  split
  next names same =>
    split
    next root => simp [root, same]
    next other => simp [other]
  next other =>
    constructor
    next =>
      intro none
      cases none
    next =>
      intro located
      obtain ⟨-, names, same, -⟩ := located
      exact absurd same (other names)

theorem locate?_join (safe : Key.isSafe key = true)
    (located : files.locate? (Path.join base key) = some place) :
    ∃ folder, files.locate? base = some folder ∧ place = folder ++ Path.components key := by
  have relative := Key.head?_ne_slash safe
  obtain ⟨root, names, split, walked⟩ := locate?_eq_some.mp located
  have filled : base ≠ [] := by
    intro none
    have absolute := Key.not_isAbsolute safe
    rw [none, Path.join, if_neg relative, if_pos (.inl rfl), List.nil_append] at root
    rw [Path.isAbsolute, root] at absolute
    exact absurd absolute (by decide)
  rw [Path.words_join filled relative] at split
  have rooted : base.head? = some '@' := by
    obtain ⟨c, rest, same⟩ := List.exists_cons_of_ne_nil filled
    rw [Path.join, if_neg relative, same] at root
    rw [same]
    split at root <;> exact root
  obtain ⟨rest, same⟩ := List.head?_eq_some_iff.mp rooted
  obtain ⟨more, others, words⟩ := Path.words_cons (show '@' ≠ '/' by decide) rest
  rw [← same] at words
  rw [words, List.cons_append, List.cons.injEq] at split
  obtain ⟨alone, rfl⟩ := split
  rw [alone] at words
  rw [walk_append, Option.bind_eq_some_iff] at walked
  obtain ⟨folder, reached, onward⟩ := walked
  exact ⟨folder, locate?_eq_some.mpr ⟨rooted, others, words, reached⟩,
    walk_of_plain (Key.plain safe) onward⟩

end Files

namespace Store

variable {key : Text}

theorem inFolders_below (safe : Key.isSafe key = true) (files : Files) {folders : List Text}
    (found : inFolders files key folders ≠ []) :
    ∃ folder ∈ folders, ∃ place, files.locate? folder = some place
      ∧ files.entries.lookup (place ++ Path.components key) =
        some (inFolders files key folders) := by
  induction folders with
  | nil => exact absurd rfl found
  | cons folder rest ih =>
    unfold inFolders at found ⊢
    split
    next bytes read =>
      obtain ⟨below, located, entry⟩ := Option.bind_eq_some_iff.mp read
      obtain ⟨place, known, rfl⟩ := Files.locate?_join safe located
      exact ⟨folder, .head _, place, known, entry⟩
    next none =>
      rw [none] at found
      obtain ⟨other, listed, place, known, entry⟩ := ih found
      exact ⟨other, .tail _ listed, place, known, entry⟩

/-- What is read for a safe key lies below a folder of the search or of the package. -/
theorem file_below {store : Store} {bytes : Bytes} (safe : Key.isSafe key = true)
    (found : store.file key = .ok bytes) :
    ∃ folder ∈ packageZones :: store.folders, ∃ place, store.files.locate? folder = some place
      ∧ store.files.entries.lookup (place ++ Path.components key) = some bytes := by
  unfold file at found
  simp only at found
  split at found
  next filled =>
    cases found
    have some : inFolders store.files key store.folders ≠ [] := by simpa using filled
    obtain ⟨folder, listed, place, known, entry⟩ := inFolders_below safe store.files some
    exact ⟨folder, .tail _ listed, place, known, entry⟩
  next =>
    split at found
    next packed =>
      cases found
      unfold inPackage at packed
      split at packed
      next =>
        obtain ⟨below, located, entry⟩ := Option.bind_eq_some_iff.mp packed
        obtain ⟨place, known, rfl⟩ := Files.locate?_join safe located
        exact ⟨packageZones, .head _, place, known, entry⟩
      next => cases packed
    next => cases found

end Store

end ZonedTime
