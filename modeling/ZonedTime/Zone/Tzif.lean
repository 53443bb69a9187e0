import ZonedTime.Bytes.Basic
import ZonedTime.Zone.Rules
import ZonedTime.Zone.Yearly.Reader

/-!
Zone files in the TZif format: a header with six counts, a block of transitions with 32-bit times
and, from version 2 on, a second header, a block with 64-bit times and a line with a yearly rule.
A file of a later version is read from its second block alone.
-/

set_option autoImplicit false

namespace ZonedTime.Tzif

abbrev ByteScan := StateT Bytes (Except Error)

def refuse {α : Type} (fault : DataFault) : ByteScan α := fun _ => .error (.data fault)

/-- The next `count` bytes or as many as there are, all of them for a negative count. -/
def take (count : Int) : ByteScan Bytes := fun bytes =>
  if count < 0 then .ok (bytes, []) else .ok (bytes.take count.toNat, bytes.drop count.toNat)

structure Header where
  version : Nat
  utcCount : Int
  standardCount : Int
  leapCount : Int
  timeCount : Int
  typeCount : Int
  charCount : Int
  deriving DecidableEq, Repr

def Header.blockSize (header : Header) : Int :=
  header.timeCount * 5 + header.typeCount * 6 + header.charCount + header.leapCount * 8
    + header.standardCount + header.utcCount

def magic : Bytes := [84, 90, 105, 102]

def version : Bytes -> Option Nat
  | [0] => some 1
  | [byte] => if 48 ≤ byte && byte ≤ 57 then some (byte.toNat - 48) else none
  | _ => none

def header : ByteScan Header := do
  if (<- take 4) != magic then refuse .header
  match version (<- take 1) with
  | none => refuse .header
  | some version =>
    let _ <- take 15
    match (Bytes.chunks 4 (<- take 24)).map fun piece => (piece.length, piece.signedBigEndian) with
    | [(_, utcCount), (_, standardCount), (_, leapCount), (_, timeCount), (_, typeCount),
        (4, charCount)] =>
      return { version, utcCount, standardCount, leapCount, timeCount, typeCount, charCount }
    | _ => refuse .header

structure Kind where
  offset : Int
  nameAt : Nat
  deriving DecidableEq, Repr

def kind (bytes : Bytes) : Kind where
  offset := Bytes.signedBigEndian (bytes.take 4)
  nameAt := Bytes.bigEndian (bytes.drop 5)

def nameIn (chars : Bytes) (start : Nat) : Text :=
  Bytes.asciiText ((chars.drop start).takeWhile (· != 0))

def period (chars : Bytes) (kind : Kind) : Period := ⟨kind.offset, nameIn chars kind.nameAt⟩

structure Block where
  times : List Int
  indices : List Nat
  kinds : List Kind
  chars : Bytes
  deriving DecidableEq, Repr

def block (header : Header) (timeSize : Nat) : ByteScan Block := do
  let times <- take (timeSize * header.timeCount)
  if (times.length : Int) ≠ timeSize * header.timeCount then refuse .truncated
  let indices <- take header.timeCount
  let kinds <- take (6 * header.typeCount)
  let chars <- take header.charCount
  if (indices.length : Int) ≠ header.timeCount ∨ (kinds.length : Int) ≠ 6 * header.typeCount
      ∨ (chars.length : Int) ≠ header.charCount then refuse .truncated
  return {
    times := (Bytes.chunks timeSize times).map fun piece => Rules.clampSecond piece.signedBigEndian
    indices := indices.map UInt8.toNat
    kinds := (Bytes.chunks 6 kinds).map kind
    chars := chars }

def footer (header : Header) : ByteScan (Option Yearly) := do
  let _ <- take (header.utcCount + header.standardCount + header.leapCount * 12 + 1)
  let line := (<- get).takeWhile (· != 10)
  if line.isEmpty then return none
  if !Bytes.isAscii line then refuse .notText
  match Yearly.parse (Bytes.asciiText line) with
  | .ok rule => return some rule
  | .error fault => throw (.rule fault)

def transitions? (block : Block) : Option (List Transition) :=
  (block.times.zip block.indices).mapM fun (second, index) =>
    (block.kinds[index]?).map fun kind => (second, period block.chars kind)

def body (key : Option Text) (header : Header) (timeSize : Nat) : ByteScan Rules := do
  let block <- block header timeSize
  match block.kinds with
  | [] => refuse .noTypes
  | first :: _ =>
    match transitions? block with
    | none => refuse .typeIndex
    | some transitions =>
      let footer <- if 2 ≤ header.version then footer header else pure none
      return .ofTransitions key (period block.chars first) transitions footer

def rules (key : Option Text) : ByteScan Rules := do
  let outer <- header
  if 2 ≤ outer.version then
    let _ <- take outer.blockSize
    body key (<- header) 8
  else body key outer 4

def parse (key : Option Text) (bytes : Bytes) : Except Error Rules :=
  ((rules key).run bytes).map Prod.fst

end ZonedTime.Tzif
