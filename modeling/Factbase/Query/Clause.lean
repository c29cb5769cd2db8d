import Factbase.Query
import Factbase.Store
import Factbase.Vocabulary

/-!
# Factbase.Query.Clause

Clauses. The constants of a clause make the pattern of the facts it is about, and its variables
name what those facts hold.
-/

namespace Factbase.Query

/-! ### Terms -/

inductive Term where
  | variable (name : String)
  | ignored
  | constant (form : Form)

/-- A symbol that starts with a question mark is a variable, an underscore is ignored, and anything
else is a constant. -/
def Term.ofForm : Form → Term
  | .symbol name =>
    if name.toList.head? = some '?' then .variable name
    else if name = "_" then .ignored
    else .constant (.symbol name)
  | form => .constant form

abbrev Parameters := List (String × Form)

/-- A term with its parameter in its place, if it is an input variable. A parameter is a constant,
whatever it looks like. -/
def Term.substitute (ps : Parameters) : Term → Term
  | .variable name =>
    match ps.lookup name with
    | some form => .constant form
    | none => .variable name
  | term => term

/-- The parameters of a query. They are used only if there are as many as there are inputs. -/
def parameters (q : Query) (params : List Form) : Parameters :=
  if q.inputs.length = params.length then q.inputs.zip params else []

/-! ### Clauses -/

structure Clause where
  entity : Term
  attr : Term
  value : Term
  tx : Term
  op : Term

namespace Clause

/-- The term of a place in a clause; a missing one is ignored. -/
def termAt (ps : Parameters) (forms : List Form) (i : Nat) : Term :=
  match forms[i]? with
  | some form => (Term.ofForm form).substitute ps
  | none => .ignored

def ofForms (ps : Parameters) (forms : List Form) : Clause :=
  ⟨termAt ps forms 0, termAt ps forms 1, termAt ps forms 2, termAt ps forms 3, termAt ps forms 4⟩

def entityOf? : Form → Option EntityId
  | .int n => Value.entityOfInt? n
  | .entity e => some e
  | _ => none

/-- The name of an attribute, if a constant gives it by name. -/
def attrName? : Form → Option String
  | .symbol name => some name
  | form => form.asName?

/-- The place of a pattern that a term makes: open unless the term is a constant. There is none if
no fact can match the constant. -/
def place {α : Type} (read : Form → Option α) : Term → Option (Option α)
  | .constant form => (read form).map some
  | _ => some none

/-- The place of a pattern that an attribute term makes. A name must be known. -/
def attrPlace (s : Store) : Term → Except Fault (Option (Option EntityId))
  | .constant form =>
    match attrName? form with
    | some name => (s.entityOf name).map (some ∘ some)
    | none => .ok ((entityOf? form).map some)
  | _ => .ok (some none)

/-- The pattern of the constants of a clause, or none if no fact can match it. -/
def pattern (s : Store) (c : Clause) : Except Fault (Option Pattern) := do
  let attr ← attrPlace s c.attr
  return do
    let entity ← place entityOf? c.entity
    let attr ← attr
    let value ← place Form.toValue? c.value
    let tx ← place entityOf? c.tx
    let op ← place entityOf? c.op
    return ⟨entity, attr, value, tx, op⟩

end Clause

/-- The name of an attribute. The naming attribute has one even if no fact says so. -/
def attrName (v : Vocabulary) (s : Store) (attr : EntityId) : Option String :=
  if attr = nameAttribute then some v.identity else s.firstName attr

def Term.entry (value : Option Value) : Term → Option (String × Value)
  | .variable name => value.map (name, ·)
  | _ => none

/-- What the variables of a clause stand for in a fact. -/
def Clause.entries (v : Vocabulary) (s : Store) (c : Clause) (f : Fact) : List (String × Value) :=
  [c.entity.entry (some (.ref f.entity)),
    c.attr.entry ((attrName v s f.attr).map .text),
    c.value.entry (some f.value),
    c.tx.entry (some (.ref f.tx)),
    c.op.entry (some (.ref f.op))].filterMap id

end Factbase.Query
