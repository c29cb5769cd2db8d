/-!
# Factbase.Binary64

Double-precision numbers, kept as their 64 bits and computed in exact natural-number arithmetic.

Every finite magnitude is a whole number of *units*, the unit being the least positive number
`2 ^ -1074`. A quotient is therefore rounded once, on the scale of units, and the carry into the
next exponent falls out of the layout of the bits.
-/

namespace Factbase

/-- A double-precision number. Two of them are equal when their bits are. -/
structure Binary64 where
  bits : UInt64
  deriving DecidableEq, Hashable, Inhabited

namespace Binary64

/-! ### Sign and magnitude -/

/-- Whether the sign bit is set; it may be set on a zero and on a number that is none. -/
def isNegative (x : Binary64) : Bool :=
  decide (1 <<< 63 ≤ x.bits.toNat)

/-- The bits without the sign. They grow with the absolute value. -/
def magnitude (x : Binary64) : Nat :=
  x.bits.toNat % (1 <<< 63)

/-- The magnitude of an infinity; those beyond it belong to no number. -/
def infiniteMagnitude : Nat := 2047 <<< 52

def isNaN (x : Binary64) : Bool :=
  decide (infiniteMagnitude < x.magnitude)

def isInfinite (x : Binary64) : Bool :=
  x.magnitude == infiniteMagnitude

def isFinite (x : Binary64) : Bool :=
  decide (x.magnitude < infiniteMagnitude)

def ofMagnitude (negative : Bool) (magnitude : Nat) : Binary64 :=
  ⟨UInt64.ofNat (if negative then 1 <<< 63 + magnitude else magnitude)⟩

def withSign (negative : Bool) (x : Binary64) : Binary64 := ofMagnitude negative x.magnitude

def zero (negative : Bool) : Binary64 := ofMagnitude negative 0

def infinity (negative : Bool) : Binary64 := ofMagnitude negative infiniteMagnitude

/-! ### Units -/

def unitsPerOne : Nat := 1 <<< 1074

/-- The absolute value in units. An infinity counts as `2 ^ 1024`, which is beyond every finite
number, so that comparing units compares infinities rightly too. -/
def units (x : Binary64) : Nat :=
  let exponent := x.magnitude >>> 52
  let fraction := x.magnitude % (1 <<< 52)
  if exponent = 0 then fraction else (1 <<< 52 + fraction) <<< (exponent - 1)

/-- The value in units, with its sign. Both zeros are zero. -/
def signedUnits (x : Binary64) : Int :=
  if x.isNegative then -(x.units : Int) else x.units

/-! ### Rounding -/

/-- The whole number nearest to a quotient; a half goes to the even neighbour. -/
def roundQuotient (num den : Nat) : Nat :=
  let below := num / den
  let rest := num % den
  if 2 * rest < den then below
  else if den < 2 * rest then below + 1
  else below + below % 2

/-- The number nearest to `num / den`, ties to even. A quotient too large becomes an infinity and
one too small a zero of the sign. -/
def ofRatio (negative : Bool) (num den : Nat) : Binary64 :=
  let scaled := num * unitsPerOne
  let exponent := (scaled / den).log2 - 52
  let significand := roundQuotient scaled (den <<< exponent)
  ofMagnitude negative (min (exponent <<< 52 + significand) infiniteMagnitude)

def ofInt (n : Int) : Binary64 :=
  ofRatio (decide (n < 0)) n.natAbs 1

/-- The rounded product of two finite numbers. -/
def mul (x y : Binary64) : Binary64 :=
  ofRatio (x.isNegative != y.isNegative) (x.units * y.units) (unitsPerOne * unitsPerOne)

/-- The rounded quotient of two finite numbers, the second not zero. -/
def div (x y : Binary64) : Binary64 :=
  ofRatio (x.isNegative != y.isNegative) x.units y.units

/-! ### Order -/

/-- The place of a number in the total order of all bit patterns, in which `-0.0` comes right
before `0.0` and what is no number comes at the two ends. -/
def orderKey (x : Binary64) : Int :=
  if x.isNegative then -(x.magnitude : Int) - 1 else x.magnitude

end Binary64

end Factbase
