import Factbase.Json.Number

/-!
# Factbase.Json.Token

Tokens of JSON texts. `scan` reads a text in one pass and stops with a stray token where none can
stand. A number out of range and a text with an unpaired surrogate are well formed, yet stand for
nothing; they are tokens without a content.
-/

namespace Factbase.Json

inductive Token where
  | openList
  | closeList
  | openObject
  | closeObject
  | comma
  | colon
  | null
  | bool (b : Bool)
  | number (n : Option Number)
  | text (s : Option String)
  | stray

def isBlank (c : Char) : Bool :=
  c == ' ' || c == '\t' || c == '\r' || c == '\n'

/-! ### Numbers -/

inductive NumberState where
  | sign
  | zero
  | whole
  | point
  | fraction
  | mark
  | markSign
  | power
  deriving DecidableEq

namespace NumberState

def isEnd : NumberState → Bool
  | zero | whole | fraction | power => true
  | _ => false

/-- What follows the digits before a power of ten. -/
def afterDigits (c : Char) (allowPoint : Bool) : Option NumberState :=
  if c = '.' && allowPoint then some point
  else if c = 'e' || c = 'E' then some mark
  else none

def step (state : NumberState) (c : Char) : Option NumberState :=
  match state with
  | sign => if c = '0' then some zero else if c.isDigit then some whole else none
  | zero => afterDigits c true
  | whole => if c.isDigit then some whole else afterDigits c true
  | point => if c.isDigit then some fraction else none
  | fraction => if c.isDigit then some fraction else afterDigits c false
  | mark =>
    if c = '+' || c = '-' then some markSign else if c.isDigit then some power else none
  | markSign => if c.isDigit then some power else none
  | power => if c.isDigit then some power else none

/-- Whether a number can end before a character. No digit follows a leading zero. -/
def endsBefore (state : NumberState) (c : Char) : Bool :=
  state.isEnd && !(state == zero && c.isDigit)

end NumberState

/-! ### Texts -/

def isHighSurrogate (n : Nat) : Bool := decide (0xD800 ≤ n) && decide (n < 0xDC00)

def isLowSurrogate (n : Nat) : Bool := decide (0xDC00 ≤ n) && decide (n < 0xE000)

/-- The characters of code points and surrogates, in which surrogates have to come in pairs. -/
def pairSurrogates : List Nat → Option (List Char)
  | [] => some []
  | [n] => if isHighSurrogate n || isLowSurrogate n then none else some [Char.ofNat n]
  | n :: m :: rest =>
    if isHighSurrogate n then
      if isLowSurrogate m then
        (pairSurrogates rest).map
          (Char.ofNat (0x10000 + (n - 0xD800) * 0x400 + (m - 0xDC00)) :: ·)
      else none
    else if isLowSurrogate n then none
    else (pairSurrogates (m :: rest)).map (Char.ofNat n :: ·)

/-- What a backslash and a letter stand for. -/
def escaped? (c : Char) : Option Nat :=
  if c = '"' || c = '\\' || c = '/' then some c.toNat
  else if c = 'b' then some 8
  else if c = 'f' then some 12
  else if c = 'n' then some 10
  else if c = 'r' then some 13
  else if c = 't' then some 9
  else none

/-! ### Scanning -/

/-- What the scanner is in the middle of. What it has read is kept in reverse. -/
inductive Scan where
  | between
  /-- The letters that are still missing from a word. -/
  | word (missing : List Char) (token : Token)
  | number (state : NumberState) (read : List Char)
  | text (read : List Nat)
  | escape (read : List Nat)
  /-- The digits that are still missing from a code unit, and its value so far. -/
  | hex (missing : Nat) (value : Nat) (read : List Nat)

def numberToken (read : List Char) : Token := .number (Number.ofChars read.reverse)

def textToken (read : List Nat) : Token :=
  .text ((pairSurrogates read.reverse).map String.ofList)

/-- What a character between tokens is: the token it makes by itself, if any, and what it starts.
Nothing goes on after a stray character. -/
def start (c : Char) : Option Token × Option Scan :=
  if isBlank c then (none, some .between)
  else if c = '[' then (some .openList, some .between)
  else if c = ']' then (some .closeList, some .between)
  else if c = Text.openBrace then (some .openObject, some .between)
  else if c = Text.closeBrace then (some .closeObject, some .between)
  else if c = ',' then (some .comma, some .between)
  else if c = ':' then (some .colon, some .between)
  else if c = '"' then (none, some (.text []))
  else if c = 'n' then (none, some (.word "ull".toList .null))
  else if c = 't' then (none, some (.word "rue".toList (.bool true)))
  else if c = 'f' then (none, some (.word "alse".toList (.bool false)))
  else if c = '-' then (none, some (.number .sign [c]))
  else
    match NumberState.sign.step c with
    | some state => (none, some (.number state [c]))
    | none => (some .stray, none)

/-- What a character inside a token does. None if it does not belong to the token, which may be at
its end then. -/
def inside (c : Char) : Scan → Option (Option Token × Scan)
  | .between => none
  | .word [] token => some (some token, .between)
  | .word (m :: missing) token =>
    if c = m then
      if missing.isEmpty then some (some token, .between) else some (none, .word missing token)
    else none
  | .number state read => (state.step c).map fun next => (none, .number next (c :: read))
  | .text read =>
    if c = '"' then some (some (textToken read), .between)
    else if c = '\\' then some (none, .escape read)
    else if c.toNat < 0x20 then none
    else some (none, .text (c.toNat :: read))
  | .escape read =>
    if c = 'u' then some (none, .hex 4 0 read)
    else (escaped? c).map fun n => (none, .text (n :: read))
  | .hex missing value read =>
    (Text.hexValue? c).map fun digit =>
      let value := 16 * value + digit
      if missing ≤ 1 then (none, .text (value :: read)) else (none, .hex (missing - 1) value read)

/-- The number that ends before a character, if the scanner is in the middle of one. -/
def endOfNumber? (c : Char) : Scan → Option Token
  | .number state read => if state.endsBefore c then some (numberToken read) else none
  | _ => none

def scan : List Char → Scan → List Token
  | [], .between => []
  | [], .number state read => if state.isEnd then [numberToken read] else [.stray]
  | [], _ => [.stray]
  | c :: rest, .between =>
    match start c with
    | (token, some next) => token.toList ++ scan rest next
    | (token, none) => token.toList
  | c :: rest, state =>
    match inside c state with
    | some (token, next) => token.toList ++ scan rest next
    | none =>
      match endOfNumber? c state with
      | none => [.stray]
      | some number =>
        number ::
          match start c with
          | (token, some next) => token.toList ++ scan rest next
          | (token, none) => token.toList

def tokens (text : String) : List Token := scan text.toList .between

end Factbase.Json
