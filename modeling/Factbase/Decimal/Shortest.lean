import Factbase.Decimal

/-!
# Factbase.Decimal.Shortest

The shortest numeral of a double: the one with the fewest digits that reads back, and of those the
nearest one.
-/

namespace Factbase.Decimal

/-- The absolute value of `x` over `10 ^ k`, as numerator and denominator. -/
def overPower (x : Binary64) (k : Int) : Nat × Nat :=
  if 0 ≤ k then (x.units, Binary64.unitsPerOne * Nat.pow 10 k.toNat)
  else (x.units * Nat.pow 10 (-k).toNat, Binary64.unitsPerOne)

/-- Whether the numeral `n * 10 ^ k` is read as the absolute value of `x`. -/
def readsBack (x : Binary64) (k : Int) (n : Nat) : Bool :=
  (Decimal.mk n k).toBinary64 x.isNegative == x

/-- The numeral on the grid of multiples of `10 ^ k` that reads back as `x`, if there is one. Only
the two neighbours of `x` on the grid can; the nearer is taken, and of two equally near ones the
upper. -/
def onGrid? (x : Binary64) (k : Int) : Option Decimal :=
  let (num, den) := overPower x k
  let below := num / den
  let nearer := if 2 * (num % den) < den then below else below + 1
  let farther := if 2 * (num % den) < den then below + 1 else below
  if readsBack x k nearer then some ⟨nearer, k⟩
  else if readsBack x k farther then some ⟨farther, k⟩
  else none

/-- The place of the decimal point: the least `p` such that `x` lies below `10 ^ p`. -/
def pointOf (x : Binary64) : Int :=
  digitCount (x.units * Nat.pow 10 324 / Binary64.unitsPerOne) - 324

def exact (x : Binary64) : Decimal :=
  ⟨x.units * Nat.pow 5 1074, -1074⟩

/-- The numeral with the fewest digits that reads back as the finite number `x`. Seventeen digits
are enough for every double. -/
def shortest (x : Binary64) : Decimal :=
  let top := pointOf x
  ((List.range 17).findSome? fun (i : Nat) => onGrid? x (top - 1 - i)).getD (exact x)

end Factbase.Decimal
