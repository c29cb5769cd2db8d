import Factbase.Binary64

/-!
# Factbase.Decimal

Decimal numerals, and the doubles they are read as.
-/

namespace Factbase

/-- The number `digits * 10 ^ exponent`. -/
structure Decimal where
  digits : Nat
  exponent : Int
  deriving DecidableEq

namespace Decimal

/-! ### Digits -/

def digitValue (c : Char) : Nat := c.toNat - '0'.toNat

/-- The number a run of digits denotes; leading zeros do not matter. -/
def ofDigits (cs : List Char) : Nat :=
  cs.foldl (fun n c => 10 * n + digitValue c) 0

/-- The digits of a number, most significant first. -/
def digitsOf (n : Nat) : List Char :=
  Nat.toDigits 10 n

def digitCount (n : Nat) : Nat := (digitsOf n).length

/-- The numeral `whole.fraction` times a power of ten. -/
def ofParts (whole fraction : List Char) (exponent : Int) : Decimal :=
  ⟨ofDigits (whole ++ fraction), exponent - fraction.length⟩

/-! ### Reading -/

/-- The double nearest to a numeral of either sign. The two bounds on the leading digit's place lie
well outside the range of doubles, and keep the powers of ten small. -/
def toBinary64 (negative : Bool) (d : Decimal) : Binary64 :=
  let top := digitCount d.digits + d.exponent
  if d.digits = 0 then Binary64.zero negative
  else if 310 < top then Binary64.infinity negative
  else if top < -330 then Binary64.zero negative
  else if 0 ≤ d.exponent then
    Binary64.ofRatio negative (d.digits * Nat.pow 10 d.exponent.toNat) 1
  else
    Binary64.ofRatio negative d.digits (Nat.pow 10 (-d.exponent).toNat)

end Decimal

end Factbase
