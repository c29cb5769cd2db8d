import Factbase.Text.Hex

/-!
# Factbase.Settings.Line

Lines of a file of settings. A line opens a table, or gives the value of a key, or says nothing. A
key is a path of one or more names, with dots between them. `line?` refuses what is no line of
settings, and every line with a control character other than the tab.
-/

namespace Factbase.Settings

/-! ### Characters -/

def isBlank (c : Char) : Bool := c == ' ' || c == '\t'

def isNameChar (c : Char) : Bool := c.isAlphanum || c == '_' || c == '-'

/-- Whether a character may stand in a line: the tab may, but no other control character of
ASCII. -/
def isLineChar (c : Char) : Bool :=
  c == '\t' || (decide (0x20 ≤ c.toNat) && c.toNat != 0x7F)

def skipBlanks (cs : List Char) : List Char := cs.dropWhile isBlank

/-- Whether only blanks and a comment are left of a line. -/
def isSpent (cs : List Char) : Bool :=
  match skipBlanks cs with
  | [] => true
  | c :: _ => c == '#'

/-! ### Texts -/

def charOfHex (digits : List Char) : Option Char := do
  let values ← digits.mapM Text.hexValue?
  let n := values.foldl (fun n d => 16 * n + d) 0
  if n.isValidChar then some (Char.ofNat n) else none

/-- What a backslash and a letter stand for. -/
def escaped? (c : Char) : Option Char :=
  if c = '"' || c = '\\' then some c
  else if c = 'b' then some '\x08'
  else if c = 'e' then some '\x1b'
  else if c = 'f' then some '\x0c'
  else if c = 'n' then some '\n'
  else if c = 'r' then some '\r'
  else if c = 't' then some '\t'
  else none

/-- The text up to the closing quote, in reverse behind what is read already, and the rest of the
line. Two, four or eight digits give a character by its code point. -/
def quoted (read : List Char) : List Char → Option (String × List Char)
  | [] => none
  | ['\\'] => none
  | '\\' :: 'x' :: a :: b :: rest =>
    match charOfHex [a, b] with
    | some x => quoted (x :: read) rest
    | none => none
  | '\\' :: 'u' :: a :: b :: c :: d :: rest =>
    match charOfHex [a, b, c, d] with
    | some x => quoted (x :: read) rest
    | none => none
  | '\\' :: 'U' :: a :: b :: c :: d :: e :: f :: g :: h :: rest =>
    match charOfHex [a, b, c, d, e, f, g, h] with
    | some x => quoted (x :: read) rest
    | none => none
  | '\\' :: c :: rest =>
    match escaped? c with
    | some x => quoted (x :: read) rest
    | none => none
  | c :: rest =>
    if c = '"' then some (String.ofList read.reverse, rest)
    else quoted (c :: read) rest

/-- A text between double quotes, or between single ones, which keep everything as it is. -/
def text? : List Char → Option (String × List Char)
  | '"' :: rest => quoted [] rest
  | '\'' :: rest =>
    match rest.dropWhile (· != '\'') with
    | _ :: after => some (String.ofList (rest.takeWhile (· != '\'')), after)
    | [] => none
  | _ => none

/-! ### Keys -/

def plainName? (cs : List Char) : Option (String × List Char) :=
  let name := cs.takeWhile isNameChar
  if name.isEmpty then none else some (String.ofList name, cs.dropWhile isNameChar)

/-- A name, plain or between quotes, and the rest of the line. -/
def name? (cs : List Char) : Option (String × List Char) :=
  match text? cs with
  | some found => some found
  | none => plainName? cs

/-- Where a setting stands: the names of its tables and its own, from the outside in. -/
abbrev Path := List String

/-- A path of at most `bound` names, and the rest of the line after the blanks behind it. -/
def pathWithin : Nat → List Char → Option (Path × List Char)
  | 0, _ => none
  | bound + 1, cs => do
    let (name, rest) ← name? (skipBlanks cs)
    match skipBlanks rest with
    | '.' :: rest =>
      let (names, rest) ← pathWithin bound rest
      return (name :: names, rest)
    | rest => return ([name], rest)

def maxNames : Nat := 80

def path? (cs : List Char) : Option (Path × List Char) :=
  pathWithin maxNames cs

/-! ### Lines -/

inductive Line where
  | nothing
  | table (path : Path)
  | entry (key : Path) (value : String)

/-- The line of a table, behind its opening bracket. -/
def tableLine? (cs : List Char) : Option Line := do
  let (path, rest) ← path? cs
  match rest with
  | ']' :: rest => if isSpent rest then some (.table path) else none
  | _ => none

/-- The line of an entry. -/
def entryLine? (cs : List Char) : Option Line := do
  let (key, rest) ← path? cs
  match rest with
  | '=' :: rest =>
    let (value, rest) ← text? (skipBlanks rest)
    if isSpent rest then some (.entry key value) else none
  | _ => none

/-- What a line says, if it is well formed. -/
def line? (cs : List Char) : Option Line :=
  if !cs.all isLineChar then none
  else if isSpent cs then some .nothing
  else
    match skipBlanks cs with
    | '[' :: rest => tableLine? rest
    | cs => entryLine? cs

/-- The lines of a text, without what ends them: a line feed, alone or behind a carriage return. -/
def lines : List Char → List (List Char)
  | [] => [[]]
  | '\r' :: '\n' :: rest => [] :: lines rest
  | c :: rest =>
    if c = '\n' then [] :: lines rest
    else
      match lines rest with
      | line :: more => (c :: line) :: more
      | [] => [[c]]

end Factbase.Settings
