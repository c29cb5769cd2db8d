import Factbase.Notation.Token

/-!
# Factbase.Notation.Reader

Reading a text of the notation, which holds a single form.

`read` goes through the tokens once and keeps the brackets that are still open on a stack. It fails
at the first token at which neither a form nor the right closing bracket stands. Only a text that is
well formed is faulted for an integer that does not fit.
-/

namespace Factbase.Notation

/-! ### Positions -/

/-- Lines and columns are counted from one, columns in characters. -/
structure Position where
  line : Nat
  column : Nat
  deriving DecidableEq

namespace Position

def start : Position := ⟨1, 1⟩

/-- The position after a character. Only a line feed starts a new line. -/
def advance (p : Position) (c : Char) : Position :=
  if c = '\n' then ⟨p.line + 1, 1⟩ else ⟨p.line, p.column + 1⟩

/-- The position of the character that has `offset` characters before it. -/
def ofOffset (cs : List Char) (offset : Nat) : Position :=
  (cs.take offset).foldl advance start

end Position

/-! ### Errors -/

inductive Problem where
  | noText
  /-- There is no form, nor the end of a sequence, where one of them has to be. -/
  | noForm
  | trailing
  | oversized (digits : String)
  deriving DecidableEq

structure SyntaxError where
  problem : Problem
  position : Position
  deriving DecidableEq

def Problem.message : Problem → String
  | .noText => "expected notation"
  | .noForm =>
    "expected vector, list, map, nil, boolean, float, integer, string, keyword, or symbol"
  | .trailing => "expected EOI"
  | .oversized digits => "malformed integer '" ++ digits ++ "'"

/-! ### Forms -/

/-- Every two forms as a key and its value; nothing for an odd number of them. -/
def pairUp : List Form → Option (List (Form × Form))
  | [] => some []
  | [_] => none
  | key :: value :: rest => (pairUp rest).map ((key, value) :: ·)

def enclose (b : Bracket) (items : List Form) : Option Form :=
  match b with
  | .square | .round => some (.list items)
  | .curly => (pairUp items).map .map

/-- An open bracket and the forms after it, the last one first. -/
structure Frame where
  bracket : Bracket
  items : List Form

/-- The first form of some tokens and the tokens after it, or the offset at which reading fails; a
text that ends too early fails at its end. -/
def read (ending : Nat) : List Token → List Frame → Except Nat (Form × List Token)
  | [], _ => .error ending
  | ⟨offset, lexeme⟩ :: rest, frames =>
    match lexeme, frames with
    | .stray, _ => .error offset
    | .opening b, frames => read ending rest (⟨b, []⟩ :: frames)
    | .form f, [] => .ok (f, rest)
    | .form f, ⟨b, items⟩ :: outer => read ending rest (⟨b, f :: items⟩ :: outer)
    | .oversized _, [] => .ok (.nil, rest)
    | .oversized _, ⟨b, items⟩ :: outer => read ending rest (⟨b, .nil :: items⟩ :: outer)
    | .closing _, [] => .error offset
    | .closing c, ⟨b, items⟩ :: outer =>
      if c = b then
        match enclose b items.reverse, outer with
        | none, _ => .error offset
        | some f, [] => .ok (f, rest)
        | some f, ⟨b', items'⟩ :: outer' => read ending rest (⟨b', f :: items'⟩ :: outer')
      else .error offset

/-- The first integer that does not fit, with its offset. -/
def firstOversized? (ts : List Token) : Option (Nat × String) :=
  ts.findSome? fun t =>
    match t.lexeme with
    | .oversized digits => some (t.offset, digits)
    | _ => none

/-- The form of a text, or what is wrong with it and at which offset. -/
def parseChars (cs : List Char) : Except (Problem × Nat) Form :=
  let ts := tokens cs
  match read cs.length ts [] with
  | .error offset => .error (if offset = 0 then .noText else .noForm, offset)
  | .ok (_, t :: _) => .error (.trailing, t.offset)
  | .ok (form, []) =>
    match firstOversized? ts with
    | some (offset, digits) => .error (.oversized digits, offset)
    | none => .ok form

def parse (text : String) : Except SyntaxError Form :=
  match parseChars text.toList with
  | .ok form => .ok form
  | .error (problem, offset) => .error ⟨problem, Position.ofOffset text.toList offset⟩

end Factbase.Notation
