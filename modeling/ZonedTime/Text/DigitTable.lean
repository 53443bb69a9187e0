import ZonedTime.Text.Basic

/-!
The digits of all scripts. A script's ten decimal digits are ten code points in a row, so that its
zero stands for all of them, and `numeral?` reads numerals in any script or mix of scripts. Raised,
lowered and circled digits count as digits too but have no place in a numeral.
-/

set_option autoImplicit false

namespace ZonedTime.Text

def zeros : List Nat :=
  [0x30, 0x660, 0x6F0, 0x7C0, 0x966, 0x9E6, 0xA66, 0xAE6, 0xB66, 0xBE6, 0xC66, 0xCE6, 0xD66,
    0xDE6, 0xE50, 0xED0, 0xF20, 0x1040, 0x1090, 0x17E0, 0x1810, 0x1946, 0x19D0, 0x1A80, 0x1A90,
    0x1B50, 0x1BB0, 0x1C40, 0x1C50, 0xA620, 0xA8D0, 0xA900, 0xA9D0, 0xA9F0, 0xAA50, 0xABF0,
    0xFF10, 0x104A0, 0x10D30, 0x11066, 0x110F0, 0x11136, 0x111D0, 0x112F0, 0x11450, 0x114D0,
    0x11650, 0x116C0, 0x11730, 0x118E0, 0x11950, 0x11C50, 0x11D50, 0x11DA0, 0x16A60, 0x16AC0,
    0x16B50, 0x1D7CE, 0x1D7D8, 0x1D7E2, 0x1D7EC, 0x1D7F6, 0x1E140, 0x1E2F0, 0x1E950, 0x1FBF0]

def signDigits : List (Nat × Nat) :=
  [(0xB2, 0xB3), (0xB9, 0xB9), (0x1369, 0x1371), (0x19DA, 0x19DA), (0x2070, 0x2070),
    (0x2074, 0x2079), (0x2080, 0x2089), (0x2460, 0x2468), (0x2474, 0x247C), (0x2488, 0x2490),
    (0x24EA, 0x24EA), (0x24F5, 0x24FD), (0x24FF, 0x24FF), (0x2776, 0x277E), (0x2780, 0x2788),
    (0x278A, 0x2792), (0x10A40, 0x10A43), (0x10E60, 0x10E68), (0x11052, 0x1105A),
    (0x1F100, 0x1F10A)]

def decimalValue? (c : Char) : Option Nat :=
  (zeros.find? fun first => first ≤ c.toNat && c.toNat < first + 10).map (c.toNat - ·)

def isDecimalDigit (c : Char) : Bool := (decimalValue? c).isSome

def isAnyDigit (c : Char) : Bool :=
  isDecimalDigit c || signDigits.any fun (low, high) => low ≤ c.toNat && c.toNat ≤ high

theorem decimalValue?_of_isDigit {c : Char} (digit : c.isDigit) :
    decimalValue? c = some (digitValue c) := by
  have bounds : 48 ≤ c.toNat ∧ c.toNat ≤ 57 := by
    simpa [Char.isDigit, UInt32.le_iff_toNat_le] using digit
  simp [decimalValue?, zeros, digitValue, bounds.1, Nat.lt_succ_of_le bounds.2]

theorem isAnyDigit_of_lt {c : Char} (ascii : c.toNat < 128) : isAnyDigit c = c.isDigit := by
  have low : c.isDigit = (decide (48 ≤ c.toNat) && decide (c.toNat < 58)) := by
    simp [Char.isDigit, UInt32.le_iff_toNat_le, Nat.lt_succ_iff]
  by_cases digit : c.isDigit
  next => simp [isAnyDigit, isDecimalDigit, decimalValue?_of_isDigit digit, digit]
  next =>
    rw [Bool.not_eq_true] at digit
    rw [digit]
    simp only [low, Bool.and_eq_false_iff, decide_eq_false_iff_not] at digit
    simp [isAnyDigit, isDecimalDigit, decimalValue?, zeros, signDigits]
    omega

def numeral? (digits : Text) : Option Nat :=
  digits.foldlM (fun total c => (decimalValue? c).map (10 * total + ·)) 0

end ZonedTime.Text
