import ZonedTime.Proofs.Pattern.FixedForms

set_option autoImplicit false

namespace ZonedTime

open Text (ofString)

namespace Pattern

/-- Where a directive ends does not depend on what follows. -/
theorem keyLength_append {key : Text} (whole : keyLength key = key.length) (more : Text) :
    keyLength (key ++ more) = key.length := by
  rw [← whole]
  fun_cases keyLength key with
  | case1 | case3 | case4 | case5 | case6 => rfl
  | case2 rest other =>
    match rest with
    | c :: d :: [] =>
      have notF : c ≠ 'f' := by
        rintro rfl
        exact other [d] rfl
      simp [keyLength, notF]
    | [] | [_] | _ :: _ :: _ :: _ => simp [keyLength] at whole
  | case7 =>
    cases key with
    | nil => cases whole
    | cons c rest => simp_all [keyLength]

theorem keyLength_listed : ∀ entry ∈ directives, keyLength entry.1 = entry.1.length := by
  decide

theorem directive?_append {t : Text} {items : List Item} {length : Nat}
    (found : directive? t = some (items, length)) (more : Text) :
    directive? (t ++ more) = some (items, length) ∧ length ≤ t.length := by
  obtain ⟨listed, looked, same⟩ := Option.map_eq_some_iff.mp found
  obtain ⟨before, after, place, -⟩ := List.lookup_eq_some_iff.mp looked
  cases same
  have member : (t.take (keyLength t), items) ∈ directives := by
    rw [place]
    simp
  have whole : t.take (keyLength t) ++ t.drop (keyLength t) = t := List.take_append_drop _ t
  have listedSize := keyLength_listed _ member
  have size := keyLength_append listedSize (t.drop (keyLength t))
  have sameSize := keyLength_append listedSize (t.drop (keyLength t) ++ more)
  rw [whole] at size
  rw [← List.append_assoc, whole, ← size] at sameSize
  have fits : keyLength t ≤ t.length := by
    rw [size]
    simp
  refine ⟨?_, by simp⟩
  rw [directive?, sameSize, List.take_append_of_le_length fits, looked]
  rfl

theorem padded?_append {t : Text} {items : List Item} {length : Nat}
    (found : padded? t = some (items, length)) (more : Text) :
    padded? (t ++ more) = some (items, length) ∧ length ≤ t.length := by
  cases t with
  | nil =>
    have nothing : padded? [] = none := rfl
    rw [nothing] at found
    cases found
  | cons c rest =>
    unfold padded? at *
    simp only [List.head?_cons, Option.bind_some, List.cons_append, List.drop_succ_cons,
      List.drop_zero] at *
    cases modifier : paddingOf? c with
    | none =>
      rw [modifier] at found
      exact directive?_append found more
    | some padding =>
      rw [modifier] at found
      obtain ⟨⟨plain, size⟩, known, numbered⟩ := Option.bind_eq_some_iff.mp found
      obtain ⟨again, fits⟩ := directive?_append known more
      obtain ⟨repadded, changed, same⟩ := Option.bind_eq_some_iff.mp numbered
      cases same
      refine ⟨?_, by simpa using fits⟩
      simp only [again, changed, Option.bind_eq_bind, Option.bind_some, Option.pure_def]

def compileEach? (pattern : Text) : Option (List Item) :=
  match pattern with
  | [] => some []
  | c :: rest =>
    if c == '%' then
      match padded? rest with
      | some (items, length) => (compileEach? (rest.drop length)).map (items ++ ·)
      | none => none
    else (compileEach? rest).map (literal c :: ·)
termination_by pattern.length
decreasing_by all_goals (simp only [List.length_cons, List.length_drop]; omega)

theorem compileEach?_append {a b : Text} {items others : List Item}
    (front : compileEach? a = some items) (back : compileEach? b = some others) :
    compileEach? (a ++ b) = some (items ++ others) := by
  fun_induction compileEach? a generalizing items with
  | case1 =>
    cases front
    exact back
  | case2 c rest percent found length padded ih =>
    obtain ⟨later, compiled, rfl⟩ := Option.map_eq_some_iff.mp front
    obtain ⟨stays, fits⟩ := padded?_append padded b
    rw [List.cons_append, compileEach?, if_pos percent, stays]
    simp only
    rw [List.drop_append_of_le_length fits, ih compiled]
    simp
  | case3 c rest percent unknown => cases front
  | case4 c rest other ih =>
    obtain ⟨later, compiled, rfl⟩ := Option.map_eq_some_iff.mp front
    rw [List.cons_append, compileEach?, if_neg other, ih compiled]
    rfl

theorem compileEach?_run (run : Text) (plain : ∀ c ∈ run, c ≠ '%') (more : Text) :
    compileEach? (run ++ more) = (compileEach? more).map (run.map literal ++ ·) := by
  induction run with
  | nil => simp
  | cons c rest ih =>
    obtain ⟨first, later⟩ := List.forall_mem_cons.mp plain
    rw [List.cons_append, compileEach?, if_neg (by simpa using first), ih later, Option.map_map]
    rfl

section

variable {subject : Subject}

theorem writes_letters (run : Text) : Writes subject (run.map literal) run := by
  induction run with
  | nil => rfl
  | cons c rest ih =>
    exact (Writes.literal c).append ih

theorem render_behind {front other : List Item} {rest later : Option (List Item)}
    (begins : render subject front = render subject other)
    (goesOn : rest.map (render subject) = later.map (render subject)) :
    (rest.map (front ++ ·)).map (render subject) =
      (later.map (other ++ ·)).map (render subject) := by
  cases rest with
  | none =>
    cases later with
    | none => rfl
    | some items => cases goesOn
  | some items =>
    cases later with
    | none => cases goesOn
    | some others =>
      have same : render subject items = render subject others := Option.some.inj goesOn
      simp only [Option.map_some, render_append, begins, same]

theorem render_run {accepts : Char -> Bool} {c : Char} {rest : Text} {first : Item}
    (plain : c ≠ '%') (ordinary : ∀ d, accepts d = true → d ≠ '%')
    (text : Writes subject [first] (c :: rest.takeWhile accepts))
    (goesOn : (compile? (rest.drop (rest.takeWhile accepts).length)).map (render subject) =
      (compileEach? (rest.drop (rest.takeWhile accepts).length)).map (render subject)) :
    ((compile? (rest.drop (rest.takeWhile accepts).length)).map (first :: ·)).map
        (render subject) =
      (compileEach? (c :: rest)).map (render subject) := by
  have whole : rest.takeWhile accepts ++ rest.drop (rest.takeWhile accepts).length = rest :=
    List.prefix_iff_eq_append.mp (List.takeWhile_prefix accepts)
  have letters := compileEach?_run (c :: rest.takeWhile accepts)
    (List.forall_mem_cons.mpr ⟨plain, fun d member => ordinary d (List.mem_takeWhile_imp member)⟩)
    (rest.drop (rest.takeWhile accepts).length)
  rw [List.cons_append, whole] at letters
  rw [letters]
  have begins : render subject [first] =
      render subject ((c :: rest.takeWhile accepts).map literal) :=
    text.trans (writes_letters _).symm
  exact render_behind begins goesOn

theorem render_compileEach? (pattern : Text) :
    (compile? pattern).map (render subject) = (compileEach? pattern).map (render subject) := by
  fun_induction compile? pattern with
  | case1 => simp [compileEach?]
  | case2 c rest percent items length padded ih =>
    rw [compileEach?, if_pos percent, padded]
    exact render_behind rfl ih
  | case3 c rest percent unknown =>
    rw [compileEach?, if_pos percent, unknown]
  | case4 c rest other isBlank run =>
    rename_i ih
    refine render_run (by simpa using other) ?_ (.item rfl) ih
    rintro d blank rfl
    cases blank
  | case5 c rest other notBlank run =>
    rename_i ih
    refine render_run (by simpa using other) ?_ (.item rfl) ih
    rintro d plain rfl
    cases plain

end

theorem exists_written {found other : Option (List Item)} {items : List Item}
    (same : ∀ subject, found.map (render subject) = other.map (render subject))
    (compiled : found = some items) :
    ∃ others, other = some others ∧ ∀ subject, render subject others = render subject items := by
  subst compiled
  cases other with
  | none => cases same ⟨none, none, none, none⟩
  | some others => exact ⟨others, rfl, fun subject => (Option.some.inj (same subject)).symm⟩

theorem compile?_append {a b : Text} {items others : List Item}
    (front : compile? a = some items) (back : compile? b = some others) :
    ∃ both, compile? (a ++ b) = some both ∧
      ∀ subject, render subject both = render subject (items ++ others) := by
  obtain ⟨first, frontEach, sameFirst⟩ := exists_written (fun _ => render_compileEach? a) front
  obtain ⟨second, backEach, sameSecond⟩ := exists_written (fun _ => render_compileEach? b) back
  obtain ⟨both, compiled, same⟩ := exists_written (fun _ => (render_compileEach? (a ++ b)).symm)
    (compileEach?_append frontEach backEach)
  refine ⟨both, compiled, fun subject => ?_⟩
  rw [same, render_append, render_append, sameFirst, sameSecond]

def IsMissing (error : Error) : Prop := ∃ part, error = .missing part

section

variable (subject : Subject)

theorem needDate_missing : Refuses IsMissing subject.needDate := by
  unfold Subject.needDate
  split
  next => trivial
  next => exact ⟨.date, rfl⟩

theorem needTime_missing : Refuses IsMissing subject.needTime := by
  unfold Subject.needTime
  split
  next => trivial
  next => exact ⟨.time, rfl⟩

theorem needOffset_missing : Refuses IsMissing subject.needOffset := by
  unfold Subject.needOffset
  split
  next => trivial
  next => exact ⟨.offset, rfl⟩

theorem needZone_missing : Refuses IsMissing subject.needZone := by
  unfold Subject.needZone
  split
  next => trivial
  next => exact ⟨.zone, rfl⟩

theorem numberOf_missing (number : Number) : Refuses IsMissing (numberOf subject number) := by
  unfold numberOf
  split
  next =>
    exact (needDate_missing subject).bind fun _ _ =>
      (needTime_missing subject).bind fun _ _ => trivial
  next =>
    split
    next => exact (needTime_missing subject).bind fun _ _ => trivial
    next => exact (needDate_missing subject).bind fun _ _ => trivial

theorem formText_missing (form : Form) : Refuses IsMissing (formText subject form) := by
  cases form with
  | shortMonth | longMonth | shortWeekday | longWeekday =>
    exact (needDate_missing subject).bind fun _ _ => trivial
  | lowerHalf | upperHalf | fraction | digits =>
    exact (needTime_missing subject).bind fun _ _ => trivial
  | zoneName => exact needZone_missing subject
  | offset => exact (needOffset_missing subject).bind fun _ _ => trivial
  | rfc3339 =>
    exact (needDate_missing subject).bind fun _ _ =>
      (needTime_missing subject).bind fun _ _ =>
        (needOffset_missing subject).bind fun _ _ => trivial

theorem itemText_missing (item : Item) : Refuses IsMissing (itemText subject item) := by
  cases item with
  | literal | blank => trivial
  | number kind => exact (numberOf_missing subject kind).bind fun _ _ => trivial
  | form kind => exact formText_missing subject kind

theorem render_missing (items : List Item) : Refuses IsMissing (render subject items) := by
  induction items with
  | nil => trivial
  | cons first rest ih =>
    exact (itemText_missing subject first).bind fun _ _ => ih.bind fun _ _ => trivial

end

def Compiles (pattern : Text) : Prop := ∃ items, compile pattern = .ok items

theorem compile_eq_ok {pattern : Text} {items : List Item} :
    compile pattern = .ok items ↔ compile? pattern = some items := by
  unfold compile
  cases compile? pattern with
  | none => simp
  | some others => simp

theorem Compiles.append {a b : Text} (first : Compiles a) (second : Compiles b) :
    Compiles (a ++ b) := by
  obtain ⟨items, front⟩ := first
  obtain ⟨others, back⟩ := second
  obtain ⟨both, compiled, -⟩ := compile?_append (compile_eq_ok.mp front) (compile_eq_ok.mp back)
  exact ⟨both, compile_eq_ok.mpr compiled⟩

theorem format_append (subject : Subject) {a b : Text} (first : Compiles a)
    (second : Compiles b) :
    format subject (a ++ b) = do
      let s <- format subject a
      let t <- format subject b
      return s ++ t := by
  obtain ⟨items, front⟩ := first
  obtain ⟨others, back⟩ := second
  obtain ⟨both, compiled, same⟩ :=
    compile?_append (compile_eq_ok.mp front) (compile_eq_ok.mp back)
  simp only [format, front, back, compile_eq_ok.mpr compiled, ok_bind, same, render_append]

def expansions : List (Text × Text) :=
  [(ofString "%D", ofString "%m/%d/%y"), (ofString "%x", ofString "%m/%d/%y"),
    (ofString "%F", ofString "%Y-%m-%d"), (ofString "%v", ofString "%e-%b-%Y"),
    (ofString "%R", ofString "%H:%M"), (ofString "%T", ofString "%H:%M:%S"),
    (ofString "%X", ofString "%H:%M:%S"), (ofString "%r", ofString "%I:%M:%S %p"),
    (ofString "%c", ofString "%a %b %e %H:%M:%S %Y")]

theorem compile_expansion {entry : Text × Text} (listed : entry ∈ expansions) :
    Compiles entry.1 ∧ Compiles entry.2 ∧ compile entry.1 = compile entry.2 := by
  have known : ∀ entry ∈ expansions,
      (compile? entry.1).isSome = true ∧ compile? entry.1 = compile? entry.2 := by
    decide +kernel
  obtain ⟨compiled, same⟩ := known entry listed
  obtain ⟨items, short⟩ := Option.isSome_iff_exists.mp compiled
  rw [short] at same
  have short := compile_eq_ok.mpr short
  have long := compile_eq_ok.mpr same.symm
  exact ⟨⟨items, short⟩, ⟨items, long⟩, short.trans long.symm⟩

inductive Writer : (Text -> Except Error Text) -> Prop where
  | date (date : Date) : Writer date.format
  | time (time : Time) : Writer time.format
  | reading (reading : Reading) : Writer reading.format
  | instant (instant : Instant) : Writer instant.format
  | day (day : Day) : Writer day.format

theorem Writer.exists_subject {write : Text -> Except Error Text} (writer : Writer write) :
    ∃ subject : Except Error Subject,
      ∀ pattern, write pattern = subject >>= fun parts => format parts pattern := by
  cases writer with
  | date date => exact ⟨.ok date.subject, fun _ => rfl⟩
  | time time => exact ⟨.ok time.subject, fun _ => rfl⟩
  | reading reading => exact ⟨.ok reading.subject, fun _ => rfl⟩
  | instant instant => exact ⟨instant.subject, fun _ => rfl⟩
  | day day => exact ⟨.ok day.subject, fun _ => rfl⟩

def Lacks (result : Except Error Text) : Prop := ∃ error, result = .error error ∧ IsMissing error

theorem lacks_append {first second : Except Error Text} (refuses : Refuses IsMissing first) :
    Lacks (do
      let s <- first
      let t <- second
      return s ++ t) ↔ Lacks first ∨ Lacks second := by
  cases first with
  | error error => simp [Lacks, refuses.allowed_of_error rfl]
  | ok s =>
    cases second with
    | error error => simp [Lacks]
    | ok t => simp [Lacks]

/-- Two patterns in a row write what each of them writes, and data is missing for both exactly if
it is missing for one. Between them a composite directive writes what its expansion does. -/
theorem write_append {a b : Text} (first : Compiles a) (second : Compiles b) :
    Compiles (a ++ b) ∧ ∀ write, Writer write →
      (write (a ++ b) = do
        let s <- write a
        let t <- write b
        return s ++ t)
      ∧ (Lacks (write (a ++ b)) ↔ Lacks (write a) ∨ Lacks (write b))
      ∧ ∀ entry ∈ expansions, write (a ++ entry.1 ++ b) = write (a ++ entry.2 ++ b) := by
  refine ⟨first.append second, fun write writer => ?_⟩
  obtain ⟨subject, written⟩ := writer.exists_subject
  simp only [written]
  cases subject with
  | error error => simp
  | ok subject =>
    simp only [ok_bind]
    have rendered := format_append subject first second
    refine ⟨rendered, ?_, fun entry listed => ?_⟩
    next =>
      rw [rendered]
      apply lacks_append
      obtain ⟨items, compiled⟩ := first
      rw [format, compiled]
      exact render_missing subject items
    next =>
      obtain ⟨short, long, same⟩ := compile_expansion listed
      have one : format subject entry.1 = format subject entry.2 := by
        rw [format, same, format]
      rw [format_append subject (first.append short) second,
        format_append subject (first.append long) second,
        format_append subject first short, format_append subject first long, one]

theorem write_append_dashes :
    Compiles (ofString "at -") ∧ Compiles (ofString "- %R")
      ∧ Reading.last.format (ofString "at -" ++ ofString "- %R") = .ok (ofString "at -- 23:59")
      ∧ Lacks (Reading.last.date.format (ofString "at -" ++ ofString "- %R")) := by
  have first : Compiles (ofString "at -") :=
    ⟨[.literal (ofString "at"), .blank [' '], .literal ['-']], by decide +kernel⟩
  have second : Compiles (ofString "- %R") :=
    ⟨[.literal ['-'], .blank [' '], zeroPadded .hour, literal ':', zeroPadded .minute],
      by decide +kernel⟩
  obtain ⟨-, writes⟩ := write_append first second
  obtain ⟨written, -⟩ := writes _ (.reading .last)
  obtain ⟨-, missing, -⟩ := writes _ (.date Reading.last.date)
  have front : Reading.last.format (ofString "at -") = .ok (ofString "at -") := by
    decide +kernel
  have back : Reading.last.format (ofString "- %R") = .ok (ofString "- 23:59") := by
    decide +kernel
  have noTime : Reading.last.date.format (ofString "- %R") = .error (.missing .time) := by
    decide +kernel
  refine ⟨first, second, ?_, missing.mpr (.inr ⟨_, noTime, .time, rfl⟩)⟩
  rw [written, front, back]
  rfl

end Pattern

end ZonedTime
