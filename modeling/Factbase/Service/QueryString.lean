import Factbase.Fact.Listing
import Factbase.Text.Hex

/-!
# Factbase.Service.QueryString

The query string of a resource: pairs of names and values between ampersands, in which a plus sign
stands for a space and a percent sign with two digits for a byte.
-/

namespace Factbase.Service.QueryString

/-- The bytes that characters stand for. A percent sign without two digits stands for itself. -/
def decodeBytes : List Char → List UInt8
  | [] => []
  | '%' :: a :: b :: rest =>
    match Text.hexValue? a, Text.hexValue? b with
    | some m, some n => UInt8.ofNat (16 * m + n) :: decodeBytes rest
    | _, _ => '%'.toUInt8 :: decodeBytes (a :: b :: rest)
  | c :: rest =>
    if c = '+' then ' '.toUInt8 :: decodeBytes rest
    else (String.singleton c).toUTF8.toList ++ decodeBytes rest

/-- The text of a name or a value. Bytes that are no text stand for no name and no value. -/
def decode (cs : List Char) : Option String :=
  String.fromUTF8? (ByteArray.mk (decodeBytes cs).toArray)

def splitAt (separator : Char) : List Char → List (List Char)
  | [] => [[]]
  | c :: rest =>
    if c = separator then [] :: splitAt separator rest
    else
      match splitAt separator rest with
      | part :: parts => (c :: part) :: parts
      | [] => [[c]]

/-- The name and the value of a pair. A missing value is empty. -/
def pair (cs : List Char) : Option String × Option String :=
  (decode (cs.takeWhile (· != '=')), decode ((cs.dropWhile (· != '=')).drop 1))

/-- The pairs of a query string. Empty ones are skipped. -/
def pairs (text : String) : List (Option String × Option String) :=
  ((splitAt '&' text.toList).filter fun part => !part.isEmpty).map pair

/-- A number below `2 ^ 64` in decimal digits, which a plus sign may precede. -/
def number? (text : String) : Option Nat :=
  let digits :=
    match text.toList with
    | '+' :: rest => rest
    | cs => cs
  if digits.isEmpty || !digits.all Char.isDigit then none
  else
    let n := Decimal.ofDigits digits
    if n < UInt64.size then some n else none

/-- Sets a place that has not been set before. -/
def set {α : Type} (place : Option α) (read : String → Option α) (value : Option String) :
    Option (Option α) := do
  if place.isSome then none
  let value ← value
  let x ← read value
  return some x

/-- Takes one more pair into account. Other names than those of a listing are ignored. -/
def addPair (listing : Listing) : Option String × Option String → Option Listing
  | (some "sort", value) => do
    return { listing with sort := ← set listing.sort Column.ofLetter? value }
  | (some "direction", value) => do
    return { listing with direction := ← set listing.direction Direction.ofWord? value }
  | (some "offset", value) => do
    return { listing with offset := ← set listing.offset number? value }
  | (some "limit", value) => do
    return { listing with limit := ← set listing.limit number? value }
  | _ => some listing

/-- The listing that a query string asks for, if it is well formed. -/
def listing? (text : String) : Option Listing :=
  (pairs text).foldlM addPair Listing.all

end Factbase.Service.QueryString
