/-!
# Factbase.Service.MediaType

Media types as they stand in a header. Letter case does not matter, and parameters only have to be
well formed.
-/

namespace Factbase.Service.MediaType

/-- The characters of the names and plain values in a media type. -/
def isTokenChar (c : Char) : Bool :=
  c.isAlphanum || "!#$%&'*+-.^_`|~".toList.contains c

/-- The printable characters that can stand between quotes. -/
def isQuotable (c : Char) : Bool :=
  decide (0x20 ≤ c.toNat) && decide (c.toNat < 0x7F)

/-- How far the parameters have been read. -/
inductive Parameters where
  | between
  | name
  /-- Right after the equals sign. -/
  | opening
  | value
  | quoted (isEmpty : Bool)
  | afterQuote
  deriving DecidableEq

namespace Parameters

/-- The state after one more character, if the parameters are well formed so far. -/
def step (state : Parameters) (c : Char) : Option Parameters :=
  match state with
  | between => if c = ' ' then some between else if isTokenChar c then some name else none
  | name => if c = '=' then some opening else if isTokenChar c then some name else none
  | opening =>
    if c = '"' then some (quoted true) else if isTokenChar c then some value else none
  | value => if c = ';' then some between else if isTokenChar c then some value else none
  | quoted isEmpty =>
    if c = '"' && !isEmpty then some afterQuote
    else if isQuotable c then some (quoted false)
    else none
  | afterQuote =>
    if c = ';' then some between else if c = ' ' then some afterQuote else none

def isEnd : Parameters → Bool
  | name | quoted _ => false
  | _ => true

def areWellFormed (cs : List Char) : Bool :=
  match cs.foldlM step between with
  | some state => state.isEnd
  | none => false

end Parameters

/-- A list before and after its last plus sign that is not its first character, if it has one. -/
def splitSuffix (cs : List Char) : List Char × Option (List Char) :=
  let suffix := (cs.reverse.takeWhile (· != '+')).reverse
  let kept := cs.length - suffix.length
  if kept ≤ 1 then (cs, none) else (cs.take (kept - 1), some suffix)

/-- Whether a header names a type of JSON documents: `application/json`, or a type of applications
with the suffix `+json`. -/
def isJson (header : String) : Bool :=
  let cs := header.toLower.toList
  let type := cs.takeWhile isTokenChar
  match cs.dropWhile isTokenChar with
  | '/' :: rest =>
    let (subtype, suffix) := splitSuffix (rest.takeWhile isTokenChar)
    let json := "json".toList
    let parametersFit :=
      match rest.dropWhile isTokenChar with
      | [] => true
      | ';' :: parameters => !subtype.isEmpty && Parameters.areWellFormed parameters
      | _ => false
    type == "application".toList && (subtype == json || suffix == some json) && parametersFit
  | _ => false

end Factbase.Service.MediaType
