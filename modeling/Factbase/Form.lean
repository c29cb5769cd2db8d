import Factbase.Value

/-!
# Factbase.Form

The forms that requests and queries are made of, and their text. A map keeps its entries in order
and keeps duplicates; looking a name up finds the first entry.
-/

namespace Factbase

/-- What a request or a query is made of. -/
inductive Form where
  | nil
  | bool (b : Bool)
  | int (n : Int64)
  | float (x : Binary64)
  | text (s : String)
  /-- The name stands without its leading colon. -/
  | keyword (name : String)
  | symbol (name : String)
  | bytes (bs : List UInt8)
  | entity (e : EntityId)
  | list (items : List Form)
  | map (entries : List (Form × Form))
  deriving Inhabited

namespace Form

/-! ### Building -/

/-- The keyword of a name that may carry its colon. -/
def ofName (name : String) : Form :=
  match name.toList with
  | ':' :: rest => .keyword (String.ofList rest)
  | _ => .keyword name

/-! ### Reading -/

/-- The name a keyword or a text stands for. A keyword gets its colon back. -/
def asName? : Form → Option String
  | keyword name => some (":" ++ name)
  | text s => some s
  | _ => none

def asList? : Form → Option (List Form)
  | list items => some items
  | _ => none

/-- The first entry of a map whose key stands for a name. -/
def get? (form : Form) (name : String) : Option Form :=
  match form with
  | map entries => (entries.find? fun entry => entry.1.asName? == some name).map (·.2)
  | _ => none

/-- A form as the value of a fact. A keyword is kept as its full name and a symbol as text. -/
def toValue? : Form → Option Value
  | bool b => some (.bool b)
  | int n => some (.int n)
  | float x => some (.float x)
  | text s => some (.text s)
  | keyword name => some (.text (":" ++ name))
  | symbol name => some (.text name)
  | bytes bs => some (.bytes bs)
  | entity e => some (.ref e)
  | nil | list _ | map _ => none

/-! ### Text -/

mutual

/-- The text of a form. Both kinds of sequence are written with square brackets. -/
def render : Form → String
  | nil => "nil"
  | bool b => if b then "true" else "false"
  | int n => toString n.toInt
  | float x => NumberStyle.marked.render x
  | text s => Text.quote s
  | keyword name => ":" ++ name
  | symbol name => name
  | bytes bs => Value.renderBytes bs
  | entity e => Value.renderRef e
  | list items => "[" ++ renderItems items ++ "]"
  | map entries => "\x7b" ++ renderEntries entries ++ "\x7d"

def renderItems : List Form → String
  | [] => ""
  | [item] => render item
  | item :: rest => render item ++ " " ++ renderItems rest

def renderEntries : List (Form × Form) → String
  | [] => ""
  | [(key, value)] => render key ++ " " ++ render value
  | (key, value) :: rest => render key ++ " " ++ render value ++ " " ++ renderEntries rest

end

end Form

end Factbase
