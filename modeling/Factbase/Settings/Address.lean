import Factbase.Decimal
import Factbase.Settings.Line

/-!
# Factbase.Settings.Address

Addresses of settings. An outermost name can be an address in itself: `log.filter` leads into a
table and `log[0]` to a place in a list, counted from the end if it is negative. What is no address
is a plain name, whatever its characters.
-/

namespace Factbase.Settings

/-- A step into a tree of settings. -/
inductive Step where
  | key (name : String)
  | place (n : Int)
  deriving DecidableEq

namespace Step

/-- A place between brackets, behind the opening one, and what follows it. It fits 64 bits. -/
def place? (cs : List Char) : Option (Int × List Char) :=
  let (negative, cs) :=
    match skipBlanks cs with
    | '-' :: rest => (true, rest)
    | cs => (false, cs)
  let digits := cs.takeWhile Char.isDigit
  let size : Int := Decimal.ofDigits digits
  let n := if negative then -size else size
  match skipBlanks (cs.dropWhile Char.isDigit) with
  | ']' :: rest =>
    if digits.isEmpty || n < Int64.minValue.toInt || Int64.maxValue.toInt < n then none
    else some (n, rest)
  | _ => none

def within : Nat → List Char → Option (List Step)
  | _, [] => some []
  | 0, _ => none
  | bound + 1, '.' :: rest => do
    let (name, rest) ← plainName? rest
    return key name :: (← within bound rest)
  | bound + 1, '[' :: rest => do
    let (n, rest) ← place? rest
    return place n :: (← within bound rest)
  | _ + 1, _ => none

/-- The steps of an address, if a name is one. Every step takes at least one character. -/
def ofAddress? (name : String) : Option (List Step) := do
  let (first, rest) ← plainName? name.toList
  return key first :: (← within rest.length rest)

/-- The steps that an outermost name stands for. -/
def ofName (name : String) : List Step :=
  (ofAddress? name).getD [key name]

end Step

end Factbase.Settings
