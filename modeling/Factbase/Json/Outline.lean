import Factbase.Json
import Factbase.Json.Token

/-!
# Factbase.Json.Outline

The outline of a JSON text: its values in the order of the text, up to the place where the text
stops being JSON, which is marked in the outline. A reader that goes through an outline in order
meets faults of content and faults of form in the order in which they stand in the text.
-/

namespace Factbase.Json

/-- The values of a text as far as they can be read. -/
inductive Outline where
  | null
  | bool (b : Bool)
  /-- A number, unless it is out of range. -/
  | number (n : Option Number)
  /-- A text, unless it has an unpaired surrogate. -/
  | text (s : Option String)
  | list (items : List Outline)
  /-- Entries in order. A key that stands for nothing is missing. -/
  | object (entries : List (Option String × Outline))
  /-- The place where the text stops being JSON. -/
  | broken

namespace Outline

/-! ### From a text -/

/-- A list or object that is still open. What it holds is kept in reverse. -/
inductive Frame where
  | list (items : List Outline)
  | object (entries : List (Option String × Outline))
  /-- An object whose last key has no value yet. -/
  | member (entries : List (Option String × Outline)) (key : Option String)

inductive Expect where
  | value
  | firstItem
  | key
  | firstKey
  | colon
  | separator

/-- What a token does to the values read so far. -/
inductive Step where
  | broken
  | done (value : Outline)
  | go (expect : Expect) (frames : List Frame)

def attach (value : Outline) : List Frame → Step
  | [] => .done value
  | .list items :: outer => .go .separator (.list (value :: items) :: outer)
  | .member entries key :: outer => .go .separator (.object ((key, value) :: entries) :: outer)
  | .object _ :: _ => .broken

def stepValue (frames : List Frame) : Token → Step
  | .null => attach .null frames
  | .bool b => attach (.bool b) frames
  | .number n => attach (.number n) frames
  | .text s => attach (.text s) frames
  | .openList => .go .firstItem (.list [] :: frames)
  | .openObject => .go .firstKey (.object [] :: frames)
  | _ => .broken

def stepKey (frames : List Frame) (token : Token) : Step :=
  match token, frames with
  | .text s, .object entries :: outer => .go .colon (.member entries s :: outer)
  | _, _ => .broken

def stepClose (frames : List Frame) (token : Token) : Step :=
  match token, frames with
  | .closeList, .list items :: outer => attach (.list items.reverse) outer
  | .closeObject, .object entries :: outer => attach (.object entries.reverse) outer
  | _, _ => .broken

def stepSeparator (frames : List Frame) (token : Token) : Step :=
  match token, frames with
  | .comma, .list _ :: _ => .go .value frames
  | .comma, .object _ :: _ => .go .key frames
  | _, _ => stepClose frames token

def step (expect : Expect) (frames : List Frame) (token : Token) : Step :=
  match expect, token with
  | .value, _ => stepValue frames token
  | .firstItem, .closeList => stepClose frames token
  | .firstItem, _ => stepValue frames token
  | .key, _ => stepKey frames token
  | .firstKey, .closeObject => stepClose frames token
  | .firstKey, _ => stepKey frames token
  | .colon, .colon => .go .value frames
  | .colon, _ => .broken
  | .separator, _ => stepSeparator frames token

/-- The outline of what is open when the text breaks. -/
def collapse (value : Outline) : List Frame → Outline
  | [] => value
  | .list items :: outer => collapse (.list (value :: items).reverse) outer
  | .object entries :: outer => collapse (.object ((none, value) :: entries).reverse) outer
  | .member entries key :: outer => collapse (.object ((key, value) :: entries).reverse) outer

/-- The outline of the first value of some tokens, and the tokens after it. -/
def build (expect : Expect) (frames : List Frame) : List Token → Outline × List Token
  | [] => (collapse .broken frames, [])
  | token :: rest =>
    match step expect frames token with
    | .broken => (collapse .broken frames, [])
    | .done value => (value, rest)
    | .go expect frames => build expect frames rest

def ofText (text : String) : Outline :=
  (build .value [] (tokens text)).1

/-! ### Reading -/

mutual

/-- Whether the text goes on after this value. -/
def isWhole : Outline → Bool
  | broken => false
  | list items => allWhole items
  | object entries => allWholeEntries entries
  | _ => true

def allWhole : List Outline → Bool
  | [] => true
  | item :: rest => item.isWhole && allWhole rest

def allWholeEntries : List (Option String × Outline) → Bool
  | [] => true
  | (_, value) :: rest => value.isWhole && allWholeEntries rest

end

/-- Why an outline stands for no value. -/
inductive Flaw where
  /-- The text stops being JSON, is nested too deep, or has a number or a text that stands for
  nothing. -/
  | form
  | content
  deriving DecidableEq

/-- The flaw of a value of the wrong kind. It has to be readable itself; what a list or an object
holds does not matter. -/
def wrongKind : Outline → Flaw
  | .broken | .number none | .text none => .form
  | _ => .content

def asText : Outline → Except Flaw String
  | .text (some s) => .ok s
  | o => .error o.wrongKind

/-- The key of an object that stands for the value of the JSON text under it. It counts only as the
first key of its object, and no other may follow it. -/
def embeddingKey : String := "$serde_json::private::RawValue"

/-- The value of a JSON text that stands under the embedding key before some other entries. -/
def embedded (parse : String → Option Json) (value : Outline)
    (others : List (Option String × Outline)) : Except Flaw Json := do
  let source ← value.asText
  match parse source with
  | none => .error .content
  | some json => if others.isEmpty then .ok json else .error .form

mutual

/-- The value of an outline, in which lists and objects are nested no deeper than `depth`; embedded
texts are read by `parse`. Keys are put in order, and the last of equal ones counts. -/
def toJson (parse : String → Option Json) (depth : Nat) : Outline → Except Flaw Json
  | null => .ok .null
  | bool b => .ok (.bool b)
  | number (some (.int n)) => .ok (.int n)
  | number (some (.float x)) => .ok (.float x)
  | number none => .error .form
  | text (some s) => .ok (.text s)
  | text none => .error .form
  | list items =>
    if depth = 0 then .error .form else (itemsToJson parse (depth - 1) items).map .list
  | object entries => if depth = 0 then .error .form else objectToJson parse (depth - 1) entries
  | broken => .error .form

def itemsToJson (parse : String → Option Json) (depth : Nat) :
    List Outline → Except Flaw (List Json)
  | [] => .ok []
  | item :: rest => do
    let item ← item.toJson parse depth
    let rest ← itemsToJson parse depth rest
    return item :: rest

def objectToJson (parse : String → Option Json) (depth : Nat) :
    List (Option String × Outline) → Except Flaw Json
  | [] => .ok (.object [])
  | (none, _) :: _ => .error .form
  | (some key, value) :: rest =>
    if key = embeddingKey then embedded parse value rest
    else do
      let value ← value.toJson parse depth
      (entriesToJson parse depth [(key, value)] rest).map .object

/-- The entries after the given ones, all in the order of their keys. -/
def entriesToJson (parse : String → Option Json) (depth : Nat) (before : List (String × Json)) :
    List (Option String × Outline) → Except Flaw (List (String × Json))
  | [] => .ok before
  | (none, _) :: _ => .error .form
  | (some key, value) :: rest => do
    let value ← value.toJson parse depth
    entriesToJson parse depth (Json.insertKey key value before) rest

end

end Outline

/-- How deep lists and objects can be nested in a text. -/
def maxDepth : Nat := 127

/-- The value that a whole text holds, where texts are embedded less than `bound` times. -/
def parseWithin : Nat → String → Option Json
  | 0, _ => none
  | bound + 1, source =>
    match Outline.build .value [] (tokens source) with
    | (outline, []) => (outline.toJson (parseWithin bound) maxDepth).toOption
    | (_, _ :: _) => none

/-- The value that a whole text holds. An embedded text is shorter than the text around it, so the
bound is never met. -/
def parse (source : String) : Option Json :=
  parseWithin (source.length + 1) source

end Factbase.Json
