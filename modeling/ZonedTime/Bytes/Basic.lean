set_option autoImplicit false

namespace ZonedTime

abbrev Bytes := List UInt8

namespace Bytes

def bigEndian (bytes : Bytes) : Nat :=
  bytes.foldl (fun total byte => 256 * total + byte.toNat) 0

def signedBigEndian (bytes : Bytes) : Int :=
  Int.bmod (bigEndian bytes) (Nat.pow 256 bytes.length)

def littleEndian : Nat -> Nat -> Bytes
  | 0, _ => []
  | width + 1, n => UInt8.ofNat (n % 256) :: littleEndian width (n / 256)

def ofLittleEndian : Bytes -> Nat
  | [] => 0
  | byte :: rest => byte.toNat + 256 * ofLittleEndian rest

def signedLittleEndian (width : Nat) (n : Int) : Bytes :=
  littleEndian width (n % (Nat.pow 256 width)).toNat

def ofSignedLittleEndian (bytes : Bytes) : Int :=
  Int.bmod (ofLittleEndian bytes) (Nat.pow 256 bytes.length)

def chunks (size : Nat) (bytes : Bytes) : List Bytes :=
  match bytes with
  | [] => []
  | byte :: rest => (byte :: rest.take (size - 1)) :: chunks size (rest.drop (size - 1))
termination_by bytes.length
decreasing_by simp only [List.length_cons, List.length_drop]; omega

def isAscii (bytes : Bytes) : Bool := bytes.all (· < 128)

def asciiChar (byte : UInt8) : Char := if byte < 128 then Char.ofNat byte.toNat else '\uFFFD'

def asciiText (bytes : Bytes) : List Char := bytes.map asciiChar

end Bytes

end ZonedTime
