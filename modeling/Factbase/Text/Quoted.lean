import Factbase.Text.Hex
import Factbase.Text.Hidden

/-!
# Factbase.Text.Quoted

Quoted text. `quote` shows every text on one line; `unescape` reads what stands between the quotes
of a text in the notation, where a backslash keeps the character after it.
-/

namespace Factbase.Text

def openBrace : Char := '\x7b'

def closeBrace : Char := '\x7d'

/-- A character as it stands inside quotes. Hidden characters show their code point. -/
def escape (c : Char) : List Char :=
  if c = '\x00' then ['\\', '0']
  else if c = '\t' then ['\\', 't']
  else if c = '\r' then ['\\', 'r']
  else if c = '\n' then ['\\', 'n']
  else if c = '"' then ['\\', '"']
  else if c = '\\' then ['\\', '\\']
  else if isHidden c then '\\' :: 'u' :: openBrace :: (hexDigits c.toNat ++ [closeBrace])
  else [c]

/-- The characters of a text between double quotes. -/
def quotedChars (cs : List Char) : List Char :=
  '"' :: (cs.flatMap escape ++ ['"'])

def quote (s : String) : String :=
  String.ofList (quotedChars s.toList)

/-- What a backslash followed by `c` stands for. -/
def escaped (c : Char) : Char :=
  if c = 'n' then '\n' else if c = 't' then '\t' else if c = 'r' then '\r' else c

/-- The text that stands between quotes in the notation. -/
def unescape : List Char → List Char
  | [] => []
  | ['\\'] => []
  | '\\' :: c :: rest => escaped c :: unescape rest
  | c :: rest => c :: unescape rest

end Factbase.Text
