import Factbase.Store
import Factbase.Transaction.Operation
import Factbase.Vocabulary

/-!
# Factbase.Transaction.Draft

Drafts of facts. Each operation of a request is taken apart into drafts, in which every name is
looked up already.

An entity that does not exist yet is a placeholder. All placeholders with one token are the same
entity; an operation that names no entity is about a new one of its own.
-/

namespace Factbase

/-- An entity that gets its number when the transaction is committed. -/
inductive Placeholder where
  | token (s : String)
  /-- The entity of the operation of that place in the request. -/
  | unnamed (operation : Nat)
  deriving DecidableEq

inductive Subject where
  | existing (e : EntityId)
  | new (p : Placeholder)

/-- A fact before its transaction is known. -/
structure Draft where
  subject : Subject
  attr : EntityId
  value : Value
  op : EntityId

namespace Transaction

def nameOf (form : Form) : Except Fault String :=
  match form.asName? with
  | some name => .ok name
  | none => .error (.notAName form)

def valueOf (form : Form) : Except Fault Value :=
  match form.toValue? with
  | some value => .ok value
  | none => .error (.notAValue form)

/-- The entity that a form refers to. A keyword is a token with its colon. -/
def subjectOf : Form → Except Fault Subject
  | .int n =>
    match Value.entityOfInt? n with
    | some e => .ok (.existing e)
    | none => .error (.negativeEntity n)
  | .entity e => .ok (.existing e)
  | .text s => .ok (.new (.token s))
  | .keyword name => .ok (.new (.token (":" ++ name)))
  | form => .error (.notAnEntity form)

/-- The draft about the value of an attribute that is known by name. -/
def draft (s : Store) (subject : Subject) (op : EntityId) (attr : String)
    (value : Except Fault Value) : Except Fault Draft := do
  let attr ← s.entityOf attr
  let value ← value
  return ⟨subject, attr, value, op⟩

/-- The draft about what a declaration says under a key, if it says anything there. -/
def optionalDraft (s : Store) (subject : Subject) (op : EntityId) (form : Form) (key : String) :
    Except Fault (List Draft) :=
  match form.get? key with
  | some value => (draft s subject op key (valueOf value)).map ([·])
  | none => .ok []

/-- The drafts of a declaration. One that lacks its name, kind or cardinality is dropped. -/
def declare (v : Vocabulary) (s : Store) (number : Nat) (form : Form) :
    Except Fault (List Draft) :=
  match form.get? v.identity, form.get? v.valueKind, form.get? v.cardinality with
  | some identity, some kind, some cardinality => do
    let subject := Subject.new (.unnamed number)
    let op ← s.entityOf v.assertOperation
    let name ←
      match identity.asName? with
      | some name => .ok name
      | none => .error (.notAValue identity)
    let named ← draft s subject op v.identity (.ok (.text name))
    let kindName ← nameOf kind
    let kind ← draft s subject op v.valueKind ((s.entityOf kindName).map .ref)
    let cardinalityName ← nameOf cardinality
    let cardinality ← draft s subject op v.cardinality ((s.entityOf cardinalityName).map .ref)
    let documentation ← optionalDraft s subject op form v.documentation
    let history ← optionalDraft s subject op form v.history
    return named :: kind :: cardinality :: (documentation ++ history)
  | _, _, _ => .ok []

def hasFacts (s : Store) : Subject → Except Fault Bool
  | .existing e => (s.count e).map (0 < ·)
  | .new _ => .ok false

/-- The draft of a tuple of operation, entity, attribute and value. Tuples of other lengths are
dropped, and so are retractions about entities without facts. -/
def ofTuple (v : Vocabulary) (s : Store) : List Form → Except Fault (List Draft)
  | [operation, entity, attr, value] => do
    let operation ← nameOf operation
    let subject ← subjectOf entity
    let keep ← if operation = v.retractOperation then hasFacts s subject else .ok true
    if keep then
      let attr ← nameOf attr
      let attr ← s.entityOf attr
      let value ← valueOf value
      let op ← s.entityOf operation
      return [⟨subject, attr, value, op⟩]
    else return []
  | _ => .ok []

/-- The entity a map is about, if an entry tells it, and its other entries. The last entry that
tells the entity counts. -/
def splitEntries (v : Vocabulary) :
    List (Form × Form) → Except Fault (Option Subject × List (String × Form))
  | [] => .ok (none, [])
  | (key, value) :: rest => do
    let key ← nameOf key
    if key = v.entityKey then
      let subject ← subjectOf value
      let (later, others) ← splitEntries v rest
      return (some (later.getD subject), others)
    else
      let (subject, others) ← splitEntries v rest
      return (subject, (key, value) :: others)

/-- The drafts of a map, which asserts each of its entries. -/
def ofEntries (v : Vocabulary) (s : Store) (number : Nat) (entries : List (Form × Form)) :
    Except Fault (List Draft) := do
  let (subject, others) ← splitEntries v entries
  let subject := subject.getD (.new (.unnamed number))
  let op ← s.entityOf v.assertOperation
  others.mapM fun (attr, value) => draft s subject op attr (valueOf value)

def Operation.drafts (v : Vocabulary) (s : Store) (number : Nat) :
    Operation → Except Fault (List Draft)
  | .declaration form => declare v s number form
  | .tuple items => ofTuple v s items
  | .entries es => ofEntries v s number es

def drafts (v : Vocabulary) (s : Store) (request : Form) : Except Fault (List Draft) := do
  let parts ← (operations request).zipIdx.mapM fun (operation, number) =>
    operation.drafts v s number
  return parts.flatten

end Transaction

end Factbase
