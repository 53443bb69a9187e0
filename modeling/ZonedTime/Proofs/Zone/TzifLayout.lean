import ZonedTime.Proofs.Bytes.Written
import ZonedTime.Proofs.Text.Scanning
import ZonedTime.Zone.Tzif

set_option autoImplicit false

namespace ZonedTime.Tzif

structure LocalType where
  offset : Int
  daylight : UInt8
  nameAt : UInt8
  name : Bytes

namespace LocalType

def record (type : LocalType) : Bytes :=
  Bytes.written 4 type.offset ++ [type.daylight, type.nameAt]

def period (type : LocalType) : Period := ⟨type.offset, Bytes.asciiText type.name⟩

end LocalType

/-- The name stands among the characters at that place, with a zero byte after it. -/
def Designates (chars : Bytes) (place : Nat) (name : Bytes) : Prop :=
  ∃ before after, chars = before ++ (name ++ 0 :: after) ∧ before.length = place ∧ 0 ∉ name

structure Switch (types : Nat) where
  second : Int
  index : UInt8
  inside : index.toNat < types

-- What is outside the years 1 to 9999 is moved to their first or last second.
def Switch.start {types : Nat} (switch : Switch types) : Int :=
  if switch.second < -62135596800 then -62135596800
  else if 253402300799 < switch.second then 253402300799
  else switch.second

/-- A number of entries that a header can announce. -/
def Countable (count : Int) : Prop := 0 ≤ count ∧ count < 2147483648

structure Table where
  firstType : LocalType
  otherTypes : List LocalType
  switches : List (Switch (otherTypes.length + 1))
  chars : Bytes
  offsets : ∀ type ∈ firstType :: otherTypes, Bytes.Fits 4 type.offset
  named : ∀ type ∈ firstType :: otherTypes, Designates chars type.nameAt.toNat type.name
  typeCount : Countable (otherTypes.length + 1)
  switchCount : Countable switches.length
  charCount : Countable chars.length

namespace Table

def types (table : Table) : List LocalType := table.firstType :: table.otherTypes

def typeOf (table : Table) (switch : Switch (table.otherTypes.length + 1)) : LocalType :=
  table.types.get ⟨switch.index.toNat, switch.inside⟩

def transitions (table : Table) : List Transition :=
  table.switches.map fun switch => (switch.start, (table.typeOf switch).period)

def data (table : Table) (timeSize : Nat) : Bytes :=
  table.switches.flatMap (fun switch => Bytes.written timeSize switch.second)
    ++ table.switches.map Switch.index ++ table.types.flatMap LocalType.record ++ table.chars

end Table

/-- What else stands in a header and after a table: reserved bytes, leap seconds with their
corrections, and two kinds of indicators. -/
structure Frame where
  reserved : Bytes
  leaps : List (Int × Int)
  standard : Bytes
  utc : Bytes
  fifteen : reserved.length = 15
  leapCount : Countable leaps.length
  standardCount : Countable standard.length
  utcCount : Countable utc.length

def Frame.data (frame : Frame) (timeSize : Nat) : Bytes :=
  frame.leaps.flatMap (fun leap => Bytes.written timeSize leap.1 ++ Bytes.written 4 leap.2)
    ++ frame.standard ++ frame.utc

def Frame.closing (frame : Frame) (line : Bytes) : Bytes :=
  frame.data 8 ++ ([10] ++ (line ++ [10]))

namespace Header

def counts (header : Header) : List Int :=
  [header.utcCount, header.standardCount, header.leapCount, header.timeCount, header.typeCount,
    header.charCount]

def versionByte (header : Header) : UInt8 :=
  if header.version = 1 then 0 else UInt8.ofNat (48 + header.version)

def data (header : Header) (reserved : Bytes) : Bytes :=
  magic ++ ([header.versionByte] ++ (reserved ++ header.counts.flatMap (Bytes.written 4)))

def ofTable (version : Nat) (table : Table) (frame : Frame) : Header where
  version := version
  utcCount := frame.utc.length
  standardCount := frame.standard.length
  leapCount := frame.leaps.length
  timeCount := table.switches.length
  typeCount := table.types.length
  charCount := table.chars.length

end Header

/-- A first block that is not read: what its header announces, and so many bytes. -/
structure Skipped where
  header : Header
  reserved : Bytes
  block : Bytes
  fifteen : reserved.length = 15
  countable : ∀ count ∈ header.counts, Countable count
  announced : (block.length : Int) = header.blockSize

def ruleOf (line : Bytes) : Except Error (Option Yearly) :=
  if line.isEmpty then .ok none
  else if !Bytes.isAscii line then .error (.data .notText)
  else
    match Yearly.parse (Bytes.asciiText line) with
    | .ok rule => .ok (some rule)
    | .error fault => .error (.rule fault)

inductive File where
  | first (table : Table) (frame : Frame)
    (fits : ∀ switch ∈ table.switches, Bytes.Fits 4 switch.second)
  | later (skipped : Skipped) (table : Table) (frame : Frame) (line : Bytes)
    (known : 2 ≤ skipped.header.version ∧ skipped.header.version ≤ 9)
    (fits : ∀ switch ∈ table.switches, Bytes.Fits 8 switch.second)
    (oneLine : 10 ∉ line)

namespace File

def table : File -> Table
  | first table _ _ => table
  | later _ table _ _ _ _ _ => table

def line : File -> Bytes
  | first _ _ _ => []
  | later _ _ _ line _ _ _ => line

def bytes : File -> Bytes
  | first table frame _ =>
    (Header.ofTable 1 table frame).data frame.reserved ++ (table.data 4 ++ frame.data 4)
  | later skipped table frame line _ _ _ =>
    skipped.header.data skipped.reserved ++ (skipped.block
      ++ ((Header.ofTable skipped.header.version table frame).data frame.reserved
        ++ (table.data 8 ++ frame.closing line)))

end File

theorem reads_take {part : Bytes} {count : Int} (length : (part.length : Int) = count)
    (rest : Bytes) : Reads (take count) (part ++ rest) part rest := by
  have size : count.toNat = part.length := by omega
  have counted : ¬ count < 0 := by omega
  change take count (part ++ rest) = .ok (part, rest)
  rw [take, if_neg counted, size, List.take_left, List.drop_left]

theorem Countable.fits {count : Int} (countable : Countable count) : Bytes.Fits 4 count := by
  obtain ⟨first, last⟩ := countable
  constructor <;> norm_num <;> omega

theorem version_versionByte {header : Header}
    (known : 1 ≤ header.version ∧ header.version ≤ 9) :
    version [header.versionByte] = some header.version := by
  obtain ⟨first, last⟩ := known
  unfold Header.versionByte
  generalize header.version = number at first last
  interval_cases number <;> rfl

theorem reads_header {header : Header} (known : 1 ≤ header.version ∧ header.version ≤ 9)
    (countable : ∀ count ∈ header.counts, Countable count) {reserved : Bytes}
    (fifteen : reserved.length = 15) (rest : Bytes) :
    Reads Tzif.header (header.data reserved ++ rest) header rest := by
  have length := Bytes.length_flatMap (Bytes.written_length 4) header.counts
  have pieces := Bytes.chunks_flatMap (by decide) (Bytes.written_length 4) header.counts
  have values : (header.counts.map (Bytes.written 4)).map
      (fun piece => (piece.length, piece.signedBigEndian)) = header.counts.map fun n => (4, n) := by
    rw [List.map_map]
    apply List.map_congr_left
    intro count member
    have read := Bytes.signedBigEndian_written (countable count member).fits
    simp [read]
  have four : (magic.length : Int) = 4 := rfl
  have one : (([header.versionByte] : Bytes).length : Int) = 1 := rfl
  have filled : (reserved.length : Int) = 15 := by omega
  have all : ((header.counts.flatMap (Bytes.written 4)).length : Int) = 24 := by
    rw [length]
    rfl
  unfold Header.data Tzif.header
  simp only [List.append_assoc]
  apply (reads_take four _).bind
  rw [if_neg (by simp)]
  apply (reads_take one _).bind
  rw [version_versionByte known]
  apply (reads_take filled _).bind
  apply (reads_take all _).bind
  rw [pieces, values]
  exact .pure _ _

section

variable {version timeSize : Nat} {table : Table} {frame : Frame}

def Table.kinds (table : Table) : List Kind :=
  table.types.map fun type => ⟨type.offset, type.nameAt.toNat⟩

theorem Switch.clampSecond_second {types : Nat} (switch : Switch types) :
    Rules.clampSecond switch.second = switch.start := by
  unfold Rules.clampSecond Rules.firstSecond Rules.lastSecond Switch.start
  split <;> omega

def Table.block (table : Table) : Block where
  times := table.switches.map Switch.start
  indices := table.switches.map fun switch => switch.index.toNat
  kinds := table.kinds
  chars := table.chars

theorem kind_record {type : LocalType} (fits : Bytes.Fits 4 type.offset) :
    kind type.record = ⟨type.offset, type.nameAt.toNat⟩ := by
  have four := Bytes.written_length 4 type.offset
  have offset : type.record.take 4 = Bytes.written 4 type.offset := List.take_left' four
  have nameAt : type.record.drop 5 = [type.nameAt] := by
    have split : type.record =
        (Bytes.written 4 type.offset ++ [type.daylight]) ++ [type.nameAt] := by
      simp [LocalType.record]
    rw [split]
    apply List.drop_left'
    simp
  rw [kind, offset, nameAt, Bytes.signedBigEndian_written fits]
  simp [Bytes.bigEndian]

theorem record_length (type : LocalType) : type.record.length = 6 := by
  simp [LocalType.record]

theorem reads_block (positive : 0 < timeSize)
    (fits : ∀ switch ∈ table.switches, Bytes.Fits timeSize switch.second) (rest : Bytes) :
    Reads (Tzif.block (.ofTable version table frame) timeSize) (table.data timeSize ++ rest)
      table.block rest := by
  have width (switch : Switch (table.otherTypes.length + 1)) :
      (Bytes.written timeSize switch.second).length = timeSize := Bytes.written_length _ _
  have timesLength := Bytes.length_flatMap width table.switches
  have typesLength := Bytes.length_flatMap record_length table.types
  have times : (Bytes.chunks timeSize (table.switches.flatMap fun switch =>
      Bytes.written timeSize switch.second)).map
        (fun piece => Rules.clampSecond piece.signedBigEndian) = table.block.times := by
    rw [Bytes.chunks_flatMap positive width, List.map_map]
    apply List.map_congr_left
    intro switch member
    have read := Bytes.signedBigEndian_written (fits switch member)
    simp [read, switch.clampSecond_second]
  have kinds : (Bytes.chunks 6 (table.types.flatMap LocalType.record)).map kind =
      table.block.kinds := by
    rw [Bytes.chunks_flatMap (by decide) record_length, List.map_map]
    exact List.map_congr_left fun type member => kind_record (table.offsets type member)
  have allTimes : ((table.switches.flatMap fun switch =>
      Bytes.written timeSize switch.second).length : Int) =
        timeSize * (Header.ofTable version table frame).timeCount := by
    rw [timesLength, Nat.cast_mul]
    rfl
  have allIndices : ((table.switches.map Switch.index).length : Int) =
      (Header.ofTable version table frame).timeCount := by
    rw [List.length_map]
    rfl
  have allTypes : ((table.types.flatMap LocalType.record).length : Int) =
      6 * (Header.ofTable version table frame).typeCount := by
    rw [typesLength, Nat.cast_mul]
    rfl
  have allChars : (table.chars.length : Int) = (Header.ofTable version table frame).charCount := rfl
  have complete := not_or.mpr ⟨not_not.mpr allIndices,
    not_or.mpr ⟨not_not.mpr allTypes, not_not.mpr allChars⟩⟩
  unfold Table.data Tzif.block
  simp only [List.append_assoc]
  apply (reads_take allTimes _).bind
  rw [if_neg (not_not.mpr allTimes)]
  apply (reads_take allIndices _).bind
  apply (reads_take allTypes _).bind
  apply (reads_take allChars _).bind
  rw [if_neg complete, times, kinds, List.map_map]
  exact .pure _ _

theorem takeWhile_before {stop : UInt8} {part : Bytes} (without : stop ∉ part) (rest : Bytes) :
    (part ++ stop :: rest).takeWhile (· != stop) = part := by
  have others : ∀ byte ∈ part, (byte != stop) = true := by
    intro byte member
    rw [bne_iff_ne]
    rintro rfl
    exact without member
  rw [List.takeWhile_append_of_pos others]
  simp

theorem nameIn_designated {chars : Bytes} {place : Nat} {name : Bytes}
    (designated : Designates chars place name) : nameIn chars place = Bytes.asciiText name := by
  obtain ⟨before, after, rfl, length, noZero⟩ := designated
  rw [nameIn, List.drop_left' length, takeWhile_before noZero]

theorem period_named {type : LocalType} (member : type ∈ table.types) :
    period table.chars ⟨type.offset, type.nameAt.toNat⟩ = type.period := by
  rw [period, nameIn_designated (table.named type member)]
  rfl

theorem transitions_block (table : Table) : transitions? table.block = some table.transitions := by
  have found (switch : Switch (table.otherTypes.length + 1)) :
      (table.kinds[switch.index.toNat]?).map (fun kind =>
        (switch.start, period table.chars kind)) =
          some (switch.start, (table.typeOf switch).period) := by
    have listed : table.types[switch.index.toNat]? = some (table.typeOf switch) :=
      List.getElem?_eq_getElem switch.inside
    have named := period_named (List.get_mem table.types ⟨switch.index.toNat, switch.inside⟩)
    rw [Table.kinds, List.getElem?_map, listed]
    simp only [Option.map_some]
    exact congrArg (fun shown => some (switch.start, shown)) named
  unfold transitions? Table.block
  rw [List.zip_map', List.mapM_map]
  exact (congrArg (fun f => table.switches.mapM f) (funext found)).trans List.mapM_pure

theorem run_map {α β : Type} (scan : ByteScan α) (f : α -> β) (bytes : Bytes) :
    (do return f (<- scan) : ByteScan β).run bytes =
      (scan.run bytes).map fun found => (f found.1, found.2) := by
  rw [StateT.run_bind]
  cases scan.run bytes with
  | ok found => rfl
  | error error => rfl

/-- The block of a table decodes to its rules, with the yearly rule that is found after it. -/
theorem run_body (version : Nat) (frame : Frame) (key : Option Text) (positive : 0 < timeSize)
    (fits : ∀ switch ∈ table.switches, Bytes.Fits timeSize switch.second) (rest : Bytes) :
    (body key (.ofTable version table frame) timeSize).run (table.data timeSize ++ rest) =
      ((if 2 ≤ version then footer (.ofTable version table frame) else pure none).run rest).map
        fun found => (.ofTransitions key table.firstType.period table.transitions found.1,
          found.2) := by
  have read : Reads (Tzif.block (.ofTable version table frame) timeSize)
      (table.data timeSize ++ rest) table.block rest := reads_block positive fits rest
  have first : period table.chars ⟨table.firstType.offset, table.firstType.nameAt.toNat⟩ =
      table.firstType.period := period_named (List.mem_cons_self : table.firstType ∈ table.types)
  unfold Reads at read
  unfold body
  rw [StateT.run_bind, read, ok_bind, transitions_block]
  simp only [Table.block, Table.kinds, Table.types, List.map_cons, first]
  change StateT.run (if 2 ≤ version then _ else _) rest = _
  split
  next => exact run_map _ _ rest
  next => rfl

theorem run_footer {line : Bytes} (oneLine : 10 ∉ line) :
    (footer (.ofTable version table frame)).run (frame.closing line) =
      (ruleOf line).map fun found => (found, line ++ [10]) := by
  have length : ((frame.data 8 ++ [10]).length : Int) =
      (Header.ofTable version table frame).utcCount
        + (Header.ofTable version table frame).standardCount
        + (Header.ofTable version table frame).leapCount * 12 + 1 := by
    have leaps (leap : Int × Int) :
        (Bytes.written 8 leap.1 ++ Bytes.written 4 leap.2).length = 12 := by
      simp
    have leapBytes := Bytes.length_flatMap leaps frame.leaps
    simp only [Frame.data, Header.ofTable, List.length_append, List.length_singleton, leapBytes]
    omega
  have taken : (line ++ [10]).takeWhile (· != 10) = line := takeWhile_before oneLine []
  have skipped := reads_take length (line ++ [10])
  unfold Reads at skipped
  rw [List.append_assoc] at skipped
  unfold footer ruleOf Frame.closing
  rw [StateT.run_bind, skipped, ok_bind, StateT.run_bind]
  simp only [StateT.run_get, pure_eq_ok, ok_bind, taken]
  by_cases empty : line.isEmpty = true
  next =>
    simp only [empty, if_true]
    rfl
  next =>
    by_cases ascii : Bytes.isAscii line = true
    next =>
      simp only [empty, ascii]
      cases Yearly.parse (Bytes.asciiText line) with
      | ok rule => rfl
      | error fault => rfl
    next =>
      simp only [empty, ascii]
      rfl

end

theorem countable_ofTable (version : Nat) (table : Table) (frame : Frame) :
    ∀ count ∈ (Header.ofTable version table frame).counts, Countable count := by
  simp only [Header.counts, List.forall_mem_cons]
  exact ⟨frame.utcCount, frame.standardCount, frame.leapCount, table.switchCount, table.typeCount,
    table.charCount, List.forall_mem_nil _⟩

theorem reads_ofTable {version : Nat} (known : 1 ≤ version ∧ version ≤ 9) (table : Table)
    (frame : Frame) (rest : Bytes) :
    Reads Tzif.header ((Header.ofTable version table frame).data frame.reserved ++ rest)
      (.ofTable version table frame) rest :=
  reads_header known (countable_ofTable version table frame) frame.fifteen rest

theorem parse_layout (key : Option Text) (file : File) :
    parse key file.bytes = (ruleOf file.line).map
      (.ofTransitions key file.table.firstType.period file.table.transitions) := by
  cases file with
  | first table frame fits =>
    have one : 1 ≤ 1 ∧ 1 ≤ 9 := by decide
    have early : ¬ 2 ≤ (Header.ofTable 1 table frame).version := by
      change ¬ 2 ≤ 1
      decide
    have header := reads_ofTable one table frame (table.data 4 ++ frame.data 4)
    unfold Reads at header
    unfold parse rules File.bytes
    rw [StateT.run_bind, header, ok_bind, if_neg early, run_body 1 frame key (by decide) fits]
    rfl
  | later skipped table frame line known fits oneLine =>
    -- Being of the announced size, the first block is taken to its end, where the second header is.
    have late : 1 ≤ skipped.header.version ∧ skipped.header.version ≤ 9 := by omega
    have outer := reads_header late skipped.countable skipped.fifteen (skipped.block
      ++ ((Header.ofTable skipped.header.version table frame).data frame.reserved
        ++ (table.data 8 ++ frame.closing line)))
    have block := reads_take skipped.announced
      ((Header.ofTable skipped.header.version table frame).data frame.reserved
        ++ (table.data 8 ++ frame.closing line))
    have header := reads_ofTable late table frame (table.data 8 ++ frame.closing line)
    have body := run_body skipped.header.version frame key (by decide) fits (frame.closing line)
    rw [if_pos known.1, run_footer oneLine] at body
    unfold Reads at outer block header
    unfold parse rules File.bytes
    rw [StateT.run_bind, outer, ok_bind, if_pos known.1, StateT.run_bind, block, ok_bind,
      StateT.run_bind, header, ok_bind, body]
    change _ = (ruleOf line).map _
    cases ruleOf line with
    | ok rule => rfl
    | error error => rfl

def winter : LocalType := ⟨3600, 0, 5, [67, 69, 84]⟩

def summer : LocalType := ⟨7200, 1, 0, [67, 69, 83, 84]⟩

/-- One summer in central Europe, where the names are `CET` and `CEST`. -/
def central : Table where
  firstType := winter
  otherTypes := [summer]
  switches := [⟨796784400, 1, by decide⟩, ⟨812509200, 0, by decide⟩]
  chars := [67, 69, 83, 84, 0, 67, 69, 84, 0]
  offsets := by decide
  named := by
    have summerNamed : Designates [67, 69, 83, 84, 0, 67, 69, 84, 0] 0 summer.name :=
      ⟨[], [67, 69, 84, 0], rfl, rfl, by decide⟩
    have winterNamed : Designates [67, 69, 83, 84, 0, 67, 69, 84, 0] 5 winter.name :=
      ⟨[67, 69, 83, 84, 0], [], rfl, rfl, by decide⟩
    simp only [List.forall_mem_cons]
    exact ⟨winterNamed, summerNamed, List.forall_mem_nil _⟩
  typeCount := ⟨by decide, by decide⟩
  switchCount := ⟨by decide, by decide⟩
  charCount := ⟨by decide, by decide⟩

def bare : Frame where
  reserved := List.replicate 15 0
  leaps := []
  standard := []
  utc := []
  fifteen := rfl
  leapCount := ⟨by decide, by decide⟩
  standardCount := ⟨by decide, by decide⟩
  utcCount := ⟨by decide, by decide⟩

def File.lasting (offset : Int) (name : Bytes) (fits : Bytes.Fits 4 offset) (solid : 0 ∉ name)
    (short : name.length < 256) : File :=
  let table : Table := {
    firstType := ⟨offset, 0, 0, name⟩
    otherTypes := []
    switches := []
    chars := name ++ [0]
    offsets := by simpa using fits
    named := by
      have whole : Designates (name ++ [0]) 0 name := ⟨[], [], rfl, rfl, solid⟩
      simpa using whole
    typeCount := ⟨by decide, by decide⟩
    switchCount := ⟨by decide, by decide⟩
    charCount := by
      rw [List.length_append, List.length_singleton]
      constructor <;> omega }
  .first table bare (List.forall_mem_nil _)

theorem parse_lasting (key : Option Text) {offset : Int} {name : Bytes}
    (fits : Bytes.Fits 4 offset) (solid : 0 ∉ name) (short : name.length < 256) :
    parse key (File.lasting offset name fits solid short).bytes =
      .ok (.ofTransitions key ⟨offset, Bytes.asciiText name⟩ [] none) := by
  rw [parse_layout]
  rfl

end ZonedTime.Tzif
