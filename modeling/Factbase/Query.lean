import Factbase.Fault

/-!
# Factbase.Query

Queries as they are written: variables to find, input variables, and clauses of up to five terms
for entity, attribute, value, transaction and operation.
-/

namespace Factbase

structure Query where
  find : List String
  inputs : List String
  /-- The clauses, if there are usable ones. -/
  clauses : Option (List (List Form))

namespace Query

/-! ### Reading -/

/-- The name of a variable: a symbol or a text. -/
def asVariable? : Form → Option String
  | .symbol name => some name
  | .text s => some s
  | _ => none

/-- The variables listed under a key. What is no variable is skipped. -/
def listed (form : Form) (key : String) : List String :=
  match (form.get? key).bind Form.asList? with
  | some items => items.filterMap asVariable?
  | none => []

/-- A clause has at most five terms. -/
def clause? : Form → Option (List Form)
  | .list terms => if terms.length ≤ 5 then some terms else none
  | _ => none

/-- Takes a query apart. What is missing or malformed is left out; one malformed clause makes all
clauses unusable. -/
def ofForm (form : Form) : Query where
  find := listed form ":find"
  inputs := listed form ":in"
  clauses := ((form.get? ":where").bind Form.asList?).bind (·.mapM clause?)

def parse (text : String) : Except Fault Query :=
  match Notation.parse text with
  | .ok form => .ok (ofForm form)
  | .error error => .error (.illFormed error)

end Query

end Factbase
