import ZonedTime.Bytes.Basic

set_option autoImplicit false

namespace ZonedTime.Bytes

def hexDigits : List Char := "0123456789abcdef".toList

def toHex (bytes : Bytes) : List Char :=
  bytes.flatMap fun byte =>
    [hexDigits.getD (byte.toNat / 16) '0', hexDigits.getD (byte.toNat % 16) '0']

def ofHex? : List Char -> Option Bytes
  | [] => some []
  | [_] => none
  | high :: low :: rest => do
    let h <- hexDigits.findIdx? (· == high)
    let l <- hexDigits.findIdx? (· == low)
    let tail <- ofHex? rest
    return UInt8.ofNat (16 * h + l) :: tail

end ZonedTime.Bytes
