/-!
# Factbase.Text.Hex

Hexadecimal digits. They are written with small letters and read with letters of either case.
-/

namespace Factbase.Text

/-- The digits of a number to base sixteen. -/
def hexDigits (n : Nat) : List Char :=
  Nat.toDigits 16 n

def hexByte (b : UInt8) : List Char :=
  [Nat.digitChar (b.toNat / 16), Nat.digitChar (b.toNat % 16)]

def hexValue? (c : Char) : Option Nat :=
  if c.isDigit then some (c.toNat - '0'.toNat)
  else if 'a' ≤ c && c ≤ 'f' then some (c.toNat - 'a'.toNat + 10)
  else if 'A' ≤ c && c ≤ 'F' then some (c.toNat - 'A'.toNat + 10)
  else none

end Factbase.Text
