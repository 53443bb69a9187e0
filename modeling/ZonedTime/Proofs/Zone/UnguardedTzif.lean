import ZonedTime.Proofs.Bytes.Chunks
import ZonedTime.Proofs.Zone.Unguarded
import ZonedTime.Zone.Tzif

set_option autoImplicit false

namespace ZonedTime

namespace Unguarded

open Tzif (Header Block Kind)

abbrev Decode := StateT Bytes (Except (Slip ⊕ Error))

def refuse {α : Type} (fault : DataFault) : Decode α := fun _ => .error (.inr (.data fault))

def step {α : Type} (result : Except Slip α) : Decode α := fun bytes =>
  match result with
  | .ok a => .ok (a, bytes)
  | .error slip => .error (.inl slip)

/-- Takes as many bytes as there are, up to the count, and all of them for a negative one. -/
def read (count : Int) : Decode Bytes := fun bytes =>
  if count < -9223372036854775808 ∨ 9223372036854775807 < count then .error (.inl .size)
  else if count < 0 then .ok (bytes, [])
  else .ok (bytes.take count.toNat, bytes.drop count.toNat)

def numbers (count : Int) (width : Nat) (bytes : Bytes) : Except Slip (List Int) :=
  if count < 0 ∨ (bytes.length : Int) ≠ count * width then .error .width
  else .ok ((Bytes.chunks width bytes).map Bytes.signedBigEndian)

def records (width : Nat) (bytes : Bytes) : Except Slip (List Bytes) :=
  if bytes.length % width ≠ 0 then .error .width else .ok (Bytes.chunks width bytes)

def header : Decode Header := do
  if (<- read 4) != Tzif.magic then refuse .header
  match Tzif.version (<- read 1) with
  | none => refuse .header
  | some version =>
    let _ <- read 15
    let counts <- read 24
    if counts.length ≠ 24 then refuse .header
    match <- step (numbers 6 4 counts) with
    | [utcCount, standardCount, leapCount, timeCount, typeCount, charCount] =>
      return { version, utcCount, standardCount, leapCount, timeCount, typeCount, charCount }
    | _ => step (.error .width)

def block (header : Header) (timeSize : Nat) : Decode Block := do
  let times <- read (timeSize * header.timeCount)
  if (times.length : Int) ≠ timeSize * header.timeCount then refuse .truncated
  let seconds <- step (numbers header.timeCount timeSize times)
  let indices <- read header.timeCount
  let kinds <- read (6 * header.typeCount)
  let chars <- read header.charCount
  if (indices.length : Int) ≠ header.timeCount ∨ (kinds.length : Int) ≠ 6 * header.typeCount
      ∨ (chars.length : Int) ≠ header.charCount then refuse .truncated
  let records <- step (records 6 kinds)
  return {
    times := seconds.map Rules.clampSecond
    indices := indices.map UInt8.toNat
    kinds := records.map Tzif.kind
    chars := chars }

def footer (header : Header) : Decode (Option Yearly) := do
  let _ <- read (header.utcCount + header.standardCount + header.leapCount * 12 + 1)
  let line := (<- get).takeWhile (· != 10)
  if line.isEmpty then return none
  if !Bytes.isAscii line then refuse .notText
  match Yearly.parse (Bytes.asciiText line) with
  | .ok rule => return some rule
  | .error fault => throw (.inr (.rule fault))

def transitions (block : Block) : Except Slip (List Transition) :=
  (block.times.zip block.indices).mapM fun (second, index) => do
    return (second, Tzif.period block.chars (<- item block.kinds index))

def body (key : Option Text) (header : Header) (timeSize : Nat) : Decode Rules := do
  let block <- block header timeSize
  if block.kinds.isEmpty then refuse .noTypes
  if block.indices.any (block.kinds.length ≤ ·) then refuse .typeIndex
  let first <- step (item block.kinds 0)
  let transitions <- step (transitions block)
  let footer <- if 2 ≤ header.version then footer header else pure none
  return .ofTransitions key (Tzif.period block.chars first) transitions footer

def rules (key : Option Text) : Decode Rules := do
  let outer <- header
  if 2 ≤ outer.version then
    let _ <- read outer.blockSize
    body key (<- header) 8
  else body key outer 4

def parse (key : Option Text) (bytes : Bytes) : Except (Slip ⊕ Error) Rules :=
  ((rules key).run bytes).map Prod.fst

def Follows {α : Type} (good : α -> Prop) (decode : Decode α) (scan : Tzif.ByteScan α) : Prop :=
  ∀ bytes, decode.run bytes = (scan.run bytes).mapError Sum.inr
    ∧ Ends (fun found => good found.1) (fun error => error.kind = .value) (scan.run bytes)

namespace Follows

variable {α β : Type} {good : α -> Prop} {next : β -> Prop} {decode : Decode α}
  {scan : Tzif.ByteScan α}

theorem pure {a : α} (holds : good a) : Follows good (Pure.pure a) (Pure.pure a) :=
  fun _ => ⟨rfl, holds⟩

theorem refuse (good : α -> Prop) (fault : DataFault) :
    Follows good (Unguarded.refuse fault) (Tzif.refuse fault) :=
  fun _ => ⟨rfl, rfl⟩

theorem bind {decodeRest : α -> Decode β} {scanRest : α -> Tzif.ByteScan β}
    (first : Follows good decode scan)
    (second : ∀ a, good a → Follows next (decodeRest a) (scanRest a)) :
    Follows next (decode >>= decodeRest) (scan >>= scanRest) := by
  intro bytes
  obtain ⟨same, ends⟩ := first bytes
  rw [StateT.run_bind, StateT.run_bind, same]
  cases result : scan.run bytes with
  | error error =>
    rw [result] at ends
    exact ⟨rfl, ends⟩
  | ok found =>
    rw [result] at ends
    exact second found.1 ends found.2

theorem ite {c : Prop} [Decidable c] {otherDecode : Decode α} {otherScan : Tzif.ByteScan α}
    (holds : c → Follows good decode scan) (fails : ¬ c → Follows good otherDecode otherScan) :
    Follows good (if c then decode else otherDecode) (if c then scan else otherScan) := by
  split
  next here => exact holds here
  next here => exact fails here

theorem passing {c : Prop} [Decidable c] {fault : DataFault}
    (passes : ¬ c → Follows good decode scan) :
    Follows good (if c then Unguarded.refuse fault >>= fun _ : Unit => decode else decode)
      (if c then Tzif.refuse fault >>= fun _ : Unit => scan else scan) :=
  ite (fun _ => (refuse (fun _ => False) fault).bind fun _ impossible => impossible.elim) passes

theorem settled {a : α} {result : Except Slip α} (succeeds : result = .ok a)
    {decodeRest : α -> Decode β} {scan : Tzif.ByteScan β}
    (rest : Follows next (decodeRest a) scan) :
    Follows next (step result >>= decodeRest) scan := by
  -- The scanner has no such step at all: only the decoder's side is rewritten.
  subst succeeds
  exact rest

end Follows

theorem read_follows {count : Int}
    (fits : -9223372036854775808 ≤ count ∧ count ≤ 9223372036854775807) :
    Follows (fun bytes => 0 ≤ count → (bytes.length : Int) ≤ count) (read count)
      (Tzif.take count) := by
  intro bytes
  have held : ¬ (count < -9223372036854775808 ∨ 9223372036854775807 < count) := by omega
  change read count bytes = (Tzif.take count bytes).mapError Sum.inr
    ∧ Ends _ _ (Tzif.take count bytes)
  unfold read Tzif.take
  rw [if_neg held]
  by_cases all : count < 0
  next =>
    simp only [all, if_true]
    exact ⟨rfl, fun positive => absurd positive (by omega)⟩
  next =>
    simp only [all, if_false]
    refine ⟨rfl, fun _ => ?_⟩
    have short := List.length_take_le count.toNat bytes
    simp only
    omega

def InWord (n : Int) : Prop := -2147483648 ≤ n ∧ n < 2147483648

structure HasWords (header : Header) : Prop where
  utcCount : InWord header.utcCount
  standardCount : InWord header.standardCount
  leapCount : InWord header.leapCount
  timeCount : InWord header.timeCount
  typeCount : InWord header.typeCount
  charCount : InWord header.charCount

theorem chunks_six {counts : Bytes} (length : counts.length = 24) :
    ∃ a b c d e f, Bytes.chunks 4 counts = [a, b, c, d, e, f]
      ∧ ∀ piece ∈ [a, b, c, d, e, f], piece.length = 4 := by
  obtain ⟨number, widths⟩ := Bytes.chunks_exact (show 0 < 4 by decide)
    (show counts.length = 6 * 4 from length)
  match same : Bytes.chunks 4 counts, number with
  | [a, b, c, d, e, f], _ =>
    rw [same] at widths
    exact ⟨a, b, c, d, e, f, rfl, widths⟩

theorem sixth_short {counts a b c d e f : Bytes} (short : counts.length < 24)
    (same : Bytes.chunks 4 counts = [a, b, c, d, e, f]) : f.length ≠ 4 := by
  have positive : 0 < 4 := by decide
  -- Five pieces have taken 20 bytes, or all there were.
  obtain ⟨-, afterFirst⟩ := Bytes.chunks_eq_cons positive same
  obtain ⟨-, afterSecond⟩ := Bytes.chunks_eq_cons positive afterFirst.symm
  obtain ⟨-, afterThird⟩ := Bytes.chunks_eq_cons positive afterSecond.symm
  obtain ⟨-, afterFourth⟩ := Bytes.chunks_eq_cons positive afterThird.symm
  obtain ⟨-, afterFifth⟩ := Bytes.chunks_eq_cons positive afterFourth.symm
  obtain ⟨sixth, -⟩ := Bytes.chunks_eq_cons positive afterFifth.symm
  simp only [sixth, List.drop_drop, List.length_take, List.length_drop]
  omega

theorem header_follows : Follows HasWords header Tzif.header := by
  refine (read_follows (by decide)).bind fun magic _ => ?_
  refine Follows.passing fun _ => ?_
  refine (read_follows (by decide)).bind fun version _ => ?_
  cases Tzif.version version with
  | none => exact Follows.refuse _ _
  | some version =>
    refine (read_follows (by decide)).bind fun _ _ => ?_
    refine (read_follows (by decide)).bind fun counts atMost => ?_
    -- The decoder counts the bytes, the scanner looks at the last piece.
    by_cases full : counts.length = 24
    next =>
      obtain ⟨a, b, c, d, e, f, pieces, widths⟩ := chunks_six full
      have decoded : numbers 6 4 counts = .ok ([a, b, c, d, e, f].map Bytes.signedBigEndian) := by
        simp [numbers, full, pieces]
      have words (piece : Bytes) (member : piece ∈ [a, b, c, d, e, f]) :
          InWord piece.signedBigEndian := Bytes.signedBigEndian_bounds (widths piece member)
      have last : f.length = 4 := widths f (by simp)
      simp only [full, ne_eq, not_true_eq_false, if_false, pieces, List.map_cons, List.map_nil,
        last]
      refine Follows.settled decoded (Follows.pure ?_)
      exact ⟨words a (by simp), words b (by simp), words c (by simp), words d (by simp),
        words e (by simp), words f (by simp)⟩
    next =>
      simp only [full, ne_eq, not_false_eq_true, if_true]
      split
      next same =>
        simp only [List.map_eq_cons_iff, List.map_eq_nil_iff, Prod.mk.injEq] at same
        obtain ⟨a, _, same, -, b, _, rfl, -, c, _, rfl, -, d, _, rfl, -, e, _, rfl, -, f, _, rfl,
          ⟨last, -⟩, rfl⟩ := same
        have short := atMost (by decide)
        exact absurd last (sixth_short (by omega) same)
      next => exact fun _ => ⟨rfl, rfl⟩

theorem numbers_eq {count : Int} {width : Nat} (positive : 0 < width) {bytes : Bytes}
    (length : (bytes.length : Int) = width * count) :
    numbers count width bytes = .ok ((Bytes.chunks width bytes).map Bytes.signedBigEndian)
      ∧ ((Bytes.chunks width bytes).length : Int) = count := by
  -- Nothing is checked of the count itself, but no bytes have a negative length.
  have filled : 0 ≤ count := by
    by_contra negative
    have below : (width : Int) * count < 0 := Int.mul_neg_of_pos_of_neg (by omega) (by omega)
    omega
  obtain ⟨n, rfl⟩ := Int.eq_ofNat_of_zero_le filled
  have whole : bytes.length = n * width := by
    rw [Nat.mul_comm]
    exact_mod_cast length
  refine ⟨?_, congrArg Nat.cast (Bytes.chunks_exact positive whole).1⟩
  have same : (bytes.length : Int) = n * width := by exact_mod_cast whole
  simp [numbers, same]

theorem records_eq {bytes : Bytes} {count : Int} (length : (bytes.length : Int) = 6 * count) :
    records 6 bytes = .ok (Bytes.chunks 6 bytes) := by
  have whole : bytes.length % 6 = 0 := by omega
  simp [records, whole]

theorem block_follows {header : Header} (words : HasWords header) {timeSize : Nat}
    (width : timeSize = 4 ∨ timeSize = 8) :
    Follows (fun block : Block => block.times.length = block.indices.length)
      (block header timeSize) (Tzif.block header timeSize) := by
  obtain ⟨-, -, -, timeCount, typeCount, charCount⟩ := words
  unfold InWord at timeCount typeCount charCount
  refine (read_follows ?_).bind fun times _ => ?_
  next => rcases width with rfl | rfl <;> omega
  refine Follows.passing fun timed => ?_
  rw [Decidable.not_not] at timed
  obtain ⟨decoded, timeNumber⟩ := numbers_eq (by omega) timed
  refine Follows.settled decoded ?_
  refine (read_follows (by omega)).bind fun indices _ => ?_
  refine (read_follows (by omega)).bind fun kinds _ => ?_
  refine (read_follows (by omega)).bind fun chars _ => ?_
  refine Follows.passing fun complete => ?_
  simp only [not_or, Decidable.not_not] at complete
  refine Follows.settled (records_eq complete.2.1) ?_
  rw [List.map_map]
  refine Follows.pure ?_
  simp only [List.length_map]
  omega

theorem footer_follows {header : Header} (words : HasWords header) :
    Follows (fun footer : Option Yearly => ∀ rule ∈ footer, rule.ChangesInRange)
      (footer header) (Tzif.footer header) := by
  obtain ⟨utcCount, standardCount, leapCount, -, -, -⟩ := words
  unfold InWord at utcCount standardCount leapCount
  refine (read_follows (by omega)).bind fun _ _ => ?_
  have all : Follows (fun _ => True) get get := fun _ => ⟨rfl, trivial⟩
  refine all.bind fun rest _ => ?_
  refine Follows.ite (fun _ => Follows.pure (by simp)) fun _ => ?_
  refine Follows.passing fun _ => ?_
  have inRange := Yearly.parse_changesInRange (Bytes.asciiText (rest.takeWhile (· != 10)))
  cases read : Yearly.parse (Bytes.asciiText (rest.takeWhile (· != 10))) with
  | ok rule =>
    rw [read] at inRange
    refine Follows.pure ?_
    rintro _ ⟨⟩
    exact inRange
  | error fault => exact fun _ => ⟨rfl, rfl⟩

theorem transitions_of_inside {block : Block}
    (inside : ∀ index ∈ block.indices, index < block.kinds.length) :
    ∃ found, transitions block = .ok found ∧ Tzif.transitions? block = some found := by
  have entries : ∀ entry ∈ block.times.zip block.indices, entry.2 < block.kinds.length :=
    fun entry member => inside _ (List.of_mem_zip member).2
  unfold transitions Tzif.transitions?
  -- By induction on the pairs, of which only the bounds are needed.
  generalize block.times.zip block.indices = all at entries
  induction all with
  | nil => exact ⟨[], rfl, rfl⟩
  | cons entry rest ih =>
    obtain ⟨here, later⟩ := List.forall_mem_cons.mp entries
    obtain ⟨found, decoded, scanned⟩ := ih later
    have kind : item block.kinds entry.2 = .ok block.kinds[entry.2] := by
      rw [item_eq_ok (Int.natCast_nonneg _) (by omega)]
      rfl
    refine ⟨(entry.1, Tzif.period block.chars block.kinds[entry.2]) :: found, ?_, ?_⟩
    next =>
      rw [List.mapM_cons, decoded]
      simp [kind]
    next =>
      rw [List.mapM_cons, scanned]
      simp [here]

theorem inside_of_transitions? {block : Block} (lengths : block.times.length = block.indices.length)
    {found : List Transition} (scanned : Tzif.transitions? block = some found) :
    ∀ index ∈ block.indices, index < block.kinds.length := by
  have entries : ∀ entry ∈ block.times.zip block.indices, entry.2 < block.kinds.length := by
    unfold Tzif.transitions? at scanned
    generalize block.times.zip block.indices = all at scanned
    induction all generalizing found with
    | nil => simp
    | cons entry rest ih =>
      simp only [List.mapM_cons, Option.bind_eq_bind, Option.bind_eq_some_iff,
        Option.map_eq_some_iff] at scanned
      obtain ⟨_, ⟨kind, here, -⟩, later, more, -⟩ := scanned
      exact List.forall_mem_cons.mpr ⟨(List.getElem?_eq_some_iff.mp here).1, ih more⟩
  -- With as many times as indices the pairs leave no index out.
  intro index member
  rw [← List.map_snd_zip (Nat.le_of_eq lengths.symm)] at member
  obtain ⟨entry, listed, rfl⟩ := List.mem_map.mp member
  exact entries entry listed

theorem body_follows (key : Option Text) {header : Header} (words : HasWords header)
    {timeSize : Nat} (width : timeSize = 4 ∨ timeSize = 8) :
    Follows Rules.Complete (body key header timeSize) (Tzif.body key header timeSize) := by
  refine (block_follows words width).bind fun block lengths => ?_
  cases kinds : block.kinds with
  | nil => exact fun _ => ⟨rfl, rfl⟩
  | cons first others =>
    have some : item block.kinds 0 = .ok first := by simp [item, kinds]
    -- The decoder looks over the indices first, the scanner fails at the first bad one.
    by_cases inside : ∀ index ∈ block.indices, index < block.kinds.length
    next =>
      obtain ⟨found, decoded, scanned⟩ := transitions_of_inside inside
      have checked : block.indices.any (block.kinds.length ≤ ·) = false := by
        simpa using inside
      rw [kinds] at some checked
      simp only [List.isEmpty_cons, Bool.false_eq_true, if_false, checked, scanned]
      have complete {footer : Option Yearly} (inRange : ∀ rule ∈ footer, rule.ChangesInRange) :
          (Rules.ofTransitions key (Tzif.period block.chars first) found footer).Complete :=
        ⟨fun _ => by simp [Rules.ofTransitions], inRange⟩
      refine Follows.settled some (Follows.settled decoded ?_)
      refine Follows.ite (fun _ => ?_) fun _ => Follows.pure (complete (by simp))
      exact (footer_follows words).bind fun footer inRange => Follows.pure (complete inRange)
    next =>
      have none : Tzif.transitions? block = .none := by
        cases scanned : Tzif.transitions? block with
        | none => rfl
        | some found => exact absurd (inside_of_transitions? lengths scanned) inside
      have checked : block.indices.any (block.kinds.length ≤ ·) = true := by
        simpa using inside
      rw [kinds] at checked
      simp only [List.isEmpty_cons, Bool.false_eq_true, if_false, checked, if_true, none]
      exact fun _ => ⟨rfl, rfl⟩

theorem rules_follows (key : Option Text) :
    Follows Rules.Complete (rules key) (Tzif.rules key) := by
  refine header_follows.bind fun outer words => ?_
  refine Follows.ite (fun _ => ?_) fun _ => body_follows key words (.inl rfl)
  obtain ⟨utcCount, standardCount, leapCount, timeCount, typeCount, charCount⟩ := words
  unfold InWord at *
  -- Six words, none taken more than eight times, stay far within 64 bits.
  refine (read_follows (by unfold Header.blockSize; omega)).bind fun _ _ => ?_
  exact header_follows.bind fun inner words => body_follows key words (.inr rfl)

end Unguarded

/-- No bytes make the decoder stumble, and no second makes a lookup in the rules stumble. -/
theorem Tzif.parse_never_slips (key : Option Text) (bytes : Bytes) :
    Unguarded.parse key bytes = (parse key bytes).mapError Sum.inr
      ∧ Ends (fun rules : Rules => ∀ second,
          Unguarded.offsetAtUtc rules second = .ok (rules.offsetAtUtc second)
          ∧ Unguarded.nameAtUtc rules second = .ok (rules.nameAtUtc second)
          ∧ Unguarded.offsetsAtWall rules second = .ok (rules.offsetsAtWall second))
        (fun error => error.kind = .value) (parse key bytes) := by
  obtain ⟨same, ends⟩ := Unguarded.rules_follows key bytes
  constructor
  next =>
    rw [Unguarded.parse, same, parse]
    cases (rules key).run bytes <;> rfl
  next =>
    refine Ends.map (ends.imp fun found complete second => ?_)
    exact ⟨Unguarded.offsetAtUtc_eq complete second, Unguarded.nameAtUtc_eq complete second,
      Unguarded.offsetsAtWall_eq complete second⟩

end ZonedTime
