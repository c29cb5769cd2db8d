import Factbase.Decimal.Shortest

/-!
# Factbase.Decimal.Style

The texts of doubles. Their shortest numerals are laid out with the decimal point in its place, or
with a power of ten.
-/

namespace Factbase

namespace Decimal

/-- The digits without the zeros at their end, and the place of the decimal point: the value is
`0.digits` times ten to that place. -/
def layout (d : Decimal) : List Char × Int :=
  let digits := digitsOf d.digits
  ((digits.reverse.dropWhile (· == '0')).reverse, digits.length + d.exponent)

/-- Digits with the decimal point in its place and zeros filling the gaps. A point at the end is
left out. -/
def positional : List Char × Int → List Char
  | (digits, point) =>
    if point ≤ 0 then
      '0' :: '.' :: (List.replicate (-point).toNat '0' ++ digits)
    else if (digits.length : Int) ≤ point then
      digits ++ List.replicate (point.toNat - digits.length) '0'
    else
      digits.take point.toNat ++ '.' :: digits.drop point.toNat

/-- Digits with the point after the first one, and a power of ten. -/
def scientific : List Char × Int → List Char
  | (digits, point) =>
    let tail := digits.drop 1
    digits.take 1 ++ (if tail.isEmpty then [] else '.' :: tail) ++
      'e' :: (toString (point - 1)).toList

end Decimal

/-! ### Styles -/

structure NumberStyle where
  /-- Whether a whole number is written with `.0` at its end. -/
  keepsPoint : Bool
  /-- The places of the decimal point that are written without a power of ten; all, if absent. -/
  positional : Option (Int × Int)

namespace NumberStyle

/-- Whether digits with the point at this place are written without a power of ten. -/
def isPositional (style : NumberStyle) (point : Int) : Bool :=
  match style.positional with
  | none => true
  | some (low, high) => decide (low ≤ point) && decide (point ≤ high)

def magnitudeChars (style : NumberStyle) (x : Binary64) : List Char :=
  if x.units = 0 then
    if style.keepsPoint then "0.0".toList else "0".toList
  else
    let laid := (Decimal.shortest x).layout
    if style.isPositional laid.2 then
      let text := Decimal.positional laid
      if style.keepsPoint && !text.contains '.' then text ++ ".0".toList else text
    else
      Decimal.scientific laid

/-- The text of a number. The sign of a zero shows; what is no number has no sign. -/
def render (style : NumberStyle) (x : Binary64) : String :=
  if x.isNaN then "NaN"
  else
    let text := if x.isInfinite then "inf".toList else style.magnitudeChars x
    String.ofList (if x.isNegative then '-' :: text else text)

/-- Plain digits without a power of ten; a whole number shows no point. -/
def plain : NumberStyle := ⟨false, none⟩

/-- A whole number shows `.0`, and a power of ten is written from `1e16` on and below `1e-4`. -/
def marked : NumberStyle := ⟨true, some (-3, 16)⟩

end NumberStyle

end Factbase
