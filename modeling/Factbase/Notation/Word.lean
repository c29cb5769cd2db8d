import Factbase.Form

/-!
# Factbase.Notation.Word

Words of the notation. A word is a maximal run of symbol characters; what it denotes depends on the
whole run, so `nilly` is a symbol and `1.5e` is nothing.
-/

namespace Factbase.Notation

/-! ### Characters -/

def isBlank (c : Char) : Bool :=
  c == ' ' || c == '\t' || c == '\r' || c == '\n' || c == ','

def endsLine (c : Char) : Bool :=
  c == '\n' || c == '\r'

/-- The marks that a symbol can start with. -/
def isMark (c : Char) : Bool :=
  "*+!-_?$%&=<>/.".toList.contains c

/-- The characters a symbol can start with: ASCII letters and some marks. -/
def startsSymbol (c : Char) : Bool :=
  c.isAlpha || isMark c

def isSymbolChar (c : Char) : Bool :=
  startsSymbol c || c.isDigit || c == ':' || c == '#' || c == '\''

/-! ### Words -/

inductive Word where
  | form (f : Form)
  /-- An integer that does not fit 64 bits. -/
  | oversized (digits : String)
  | none

def isDigits (cs : List Char) : Bool :=
  !cs.isEmpty && cs.all Char.isDigit

/-- Whether a numeral starts with a minus sign, and what follows the sign. -/
def unsign : List Char → Bool × List Char
  | '-' :: rest => (true, rest)
  | '+' :: rest => (false, rest)
  | cs => (false, cs)

def signed (cs : List Char) : Option Int :=
  let (negative, digits) := unsign cs
  if isDigits digits then
    let n : Int := Decimal.ofDigits digits
    some (if negative then -n else n)
  else none

def isExponentMark (c : Char) : Bool := c == 'e' || c == 'E'

/-- The power of ten at the end of a numeral: nothing, or a mark and an integer. -/
def exponent? : List Char → Option Int
  | [] => some 0
  | c :: rest => if isExponentMark c then signed rest else none

/-- The number of digits, a fraction and a power of ten, of which one may be missing. -/
def unsignedFloat? (cs : List Char) : Option Decimal :=
  let whole := cs.takeWhile Char.isDigit
  if whole.isEmpty then none
  else
    match cs.dropWhile Char.isDigit with
    | [] => none
    | '.' :: rest =>
      let fraction := rest.takeWhile Char.isDigit
      if fraction.isEmpty then none
      else (exponent? (rest.dropWhile Char.isDigit)).map (Decimal.ofParts whole fraction)
    | rest => (exponent? rest).map (Decimal.ofParts whole [])

/-- The float that a word denotes. It has a fraction or a power of ten. -/
def float? (cs : List Char) : Option Binary64 :=
  let (negative, rest) := unsign cs
  (unsignedFloat? rest).map (Decimal.toBinary64 negative)

def fitsInt64 (n : Int) : Bool :=
  decide (Int64.minValue.toInt ≤ n) && decide (n ≤ Int64.maxValue.toInt)

def integer? (cs : List Char) : Option Word :=
  (signed cs).map fun n =>
    if fitsInt64 n then .form (.int (Int64.ofInt n)) else .oversized (String.ofList cs)

def name (cs : List Char) : Word :=
  match cs with
  | ':' :: rest => if rest.isEmpty then .none else .form (Form.ofName (String.ofList cs))
  | c :: _ => if startsSymbol c then .form (.symbol (String.ofList cs)) else .none
  | [] => .none

def classify (cs : List Char) : Word :=
  if cs = "nil".toList then .form .nil
  else if cs = "true".toList then .form (.bool true)
  else if cs = "false".toList then .form (.bool false)
  else
    match float? cs with
    | some x => .form (.float x)
    | none => (integer? cs).getD (name cs)

end Factbase.Notation
