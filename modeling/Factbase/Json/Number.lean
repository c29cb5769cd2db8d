import Factbase.Decimal
import Factbase.Text.Quoted

/-!
# Factbase.Json.Number

The numbers of JSON texts. A number without fraction and power of ten is an integer if it fits 64
bits. Any other is kept as the digits that fit 64 bits and a power of ten, and is scaled in double
arithmetic; its last bits can differ from those of the nearest double.
-/

namespace Factbase.Json

/-- A number, as an integer if it can be one. -/
inductive Number where
  | int (n : Int)
  | float (x : Binary64)

namespace Number

structure Spelling where
  negative : Bool
  whole : List Char
  fraction : List Char
  /-- The sign and digits of the power of ten, if there is one. -/
  power : Option (Bool × List Char)
  /-- Whether there is neither a fraction nor a power of ten. -/
  isWhole : Bool

def Spelling.ofChars (cs : List Char) : Spelling :=
  let (negative, cs) :=
    match cs with
    | '-' :: rest => (true, rest)
    | cs => (false, cs)
  let whole := cs.takeWhile Char.isDigit
  let cs := cs.dropWhile Char.isDigit
  let (fraction, rest) :=
    match cs with
    | '.' :: rest => (rest.takeWhile Char.isDigit, rest.dropWhile Char.isDigit)
    | cs => ([], cs)
  let power :=
    match rest with
    | _ :: '-' :: digits => some (true, digits)
    | _ :: '+' :: digits => some (false, digits)
    | _ :: digits => some (false, digits)
    | [] => none
  ⟨negative, whole, fraction, power, cs.isEmpty⟩

/-- Appends digits to a number as long as it stays below `2 ^ 64`, and yields the digits left. -/
def absorb (n : Nat) : List Char → Nat × List Char
  | [] => (n, [])
  | c :: rest =>
    let next := 10 * n + Decimal.digitValue c
    if next < UInt64.size then absorb next rest else (n, c :: rest)

def maxPower : Nat := 308

def powerOfTen (n : Nat) : Binary64 := Binary64.ofRatio false (Nat.pow 10 n) 1

def scaleDown (x : Binary64) (n : Nat) : Binary64 :=
  if n ≤ maxPower then x.div (powerOfTen n)
  else if x.units = 0 then x
  else scaleDown (x.div (powerOfTen maxPower)) (n - maxPower)
termination_by n
decreasing_by simp [maxPower] at *; omega

/-- A significand times a power of ten. What is out of range is no number. -/
def scale (significand : Nat) (exponent : Int) : Option Binary64 :=
  let x := Binary64.ofInt significand
  if exponent < 0 then some (scaleDown x (-exponent).toNat)
  else if exponent ≤ maxPower then
    let y := x.mul (powerOfTen exponent.toNat)
    if y.isInfinite then none else some y
  else if significand = 0 then some x
  else none

/-- The greatest power of ten that is read in full. -/
def maxExponent : Nat := 0x7fffffff

/-- A significand times two powers of ten, of which the second is as written. -/
def scaleBy (significand : Nat) (exponent : Int) : Option (Bool × List Char) → Option Binary64
  | none => scale significand exponent
  | some (negative, digits) =>
    let power := Decimal.ofDigits digits
    if power ≤ maxExponent then
      scale significand (if negative then exponent - power else exponent + power)
    else if significand ≠ 0 && !negative then none
    else some (Binary64.zero false)

/-- An integer that is read in full. Minus zero is no integer. -/
def ofSignificand (negative : Bool) (n : Nat) : Number :=
  if !negative then .int n
  else if n = 0 || 1 <<< 63 < n then .float ((Binary64.ofInt n).withSign true)
  else .int (-(n : Int))

def ofSpelling (s : Spelling) : Option Number :=
  let (significand, left) := absorb 0 s.whole
  if s.isWhole && left.isEmpty then some (ofSignificand s.negative significand)
  else
    let (significand, ignored) := absorb significand s.fraction
    let exponent : Int := left.length - (s.fraction.length - ignored.length : Nat)
    (scaleBy significand exponent s.power).map fun x => .float (x.withSign s.negative)

def ofChars (cs : List Char) : Option Number :=
  ofSpelling (Spelling.ofChars cs)

end Number

end Factbase.Json
