import Factbase.Notation.Word

/-!
# Factbase.Notation.Token

Tokens of the notation. Commas count as blanks and a comment runs from a semicolon to the end of its
line. `scan` reads a text in one pass. Where no form can start it leaves a stray token and stops.
-/

namespace Factbase.Notation

/-- The three kinds of bracket. Square and round ones enclose the same lists. -/
inductive Bracket where
  | square
  | round
  | curly
  deriving DecidableEq

inductive Lexeme where
  | opening (b : Bracket)
  | closing (b : Bracket)
  | form (f : Form)
  | oversized (digits : String)
  | stray

/-- A lexeme and the number of characters before it. -/
structure Token where
  offset : Nat
  lexeme : Lexeme

def opening? (c : Char) : Option Bracket :=
  if c = '[' then some .square else if c = '(' then some .round
  else if c = Text.openBrace then some .curly else none

def closing? (c : Char) : Option Bracket :=
  if c = ']' then some .square else if c = ')' then some .round
  else if c = Text.closeBrace then some .curly else none

/-- What the scanner is in the middle of. What it has read of a word or text is kept in reverse. -/
inductive Scan where
  | between
  | comment
  | word (start : Nat) (read : List Char)
  /-- Inside a text; `kept` tells whether the last character was a backslash. -/
  | text (start : Nat) (read : List Char) (kept : Bool)

/-- The token of a word that has been read in reverse. -/
def wordToken (start : Nat) (read : List Char) : Token :=
  match classify read.reverse with
  | .form f => ⟨start, .form f⟩
  | .oversized digits => ⟨start, .oversized digits⟩
  | .none => ⟨start, .stray⟩

/-- The token of a text that has been read in reverse, without its quotes. -/
def textToken (start : Nat) (read : List Char) : Token :=
  ⟨start, .form (.text (String.ofList (Text.unescape read.reverse)))⟩

/-- What a character between tokens is: the token it makes by itself, if any, and what it starts.
Nothing goes on where no form can start. -/
def start (offset : Nat) (c : Char) : Option Token × Option Scan :=
  if isBlank c then (none, some .between)
  else if c = ';' then (none, some .comment)
  else if c = '"' then (none, some (.text offset [] false))
  else if isSymbolChar c then (none, some (.word offset [c]))
  else
    match opening? c, closing? c with
    | some b, _ => (some ⟨offset, .opening b⟩, some .between)
    | none, some b => (some ⟨offset, .closing b⟩, some .between)
    | none, none => (some ⟨offset, .stray⟩, none)

/-- The tokens of a text that is read from the given offset on. -/
def scan : List Char → Nat → Scan → List Token
  | [], _, .between => []
  | [], _, .comment => []
  | [], _, .word start read => [wordToken start read]
  | [], _, .text start _ _ => [⟨start, .stray⟩]
  | c :: rest, offset, .between =>
    match start offset c with
    | (token, some next) => token.toList ++ scan rest (offset + 1) next
    | (token, none) => token.toList
  | c :: rest, offset, .comment =>
    scan rest (offset + 1) (if endsLine c then .between else .comment)
  | c :: rest, offset, .word begin read =>
    if isSymbolChar c then scan rest (offset + 1) (.word begin (c :: read))
    else
      wordToken begin read ::
        match start offset c with
        | (token, some next) => token.toList ++ scan rest (offset + 1) next
        | (token, none) => token.toList
  | c :: rest, offset, .text begin read kept =>
    if kept then scan rest (offset + 1) (.text begin (c :: read) false)
    else if c = '\\' then scan rest (offset + 1) (.text begin (c :: read) true)
    else if c = '"' then textToken begin read :: scan rest (offset + 1) .between
    else scan rest (offset + 1) (.text begin (c :: read) false)

def tokens (cs : List Char) : List Token :=
  scan cs 0 .between

end Factbase.Notation
