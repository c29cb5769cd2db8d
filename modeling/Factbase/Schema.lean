import Factbase.Fact
import Factbase.Fault
import Factbase.Vocabulary

/-!
# Factbase.Schema

The system's own attributes, and the first transaction of a database, which names and describes
them. Entities are numbered densely: the naming attribute, the attributes of the schema, their
members, and the transaction itself.
-/

namespace Factbase

structure AttributeSpec where
  key : String
  kind : String
  cardinality : String
  documentation : Option String
  members : List String

namespace Schema

/-- The attributes of every database, in the order of their numbers. -/
def system : List AttributeSpec := [
  ⟨"attribute", "enum", "one", some "Defines an attribute type",
    ["nil", "keyword", "string", "bytes", "boolean", "number", "class", "entity", "instant", "enum",
      "reference"]⟩,
  ⟨"cardinality", "enum", "one", some "Specifies if an attribute can contain one or many values",
    ["one", "many"]⟩,
  ⟨"operation", "enum", "one", some "Specifies the operation for an atom within a transaction",
    ["assert", "retract"]⟩,
  ⟨"history", "number", "one",
    some "Specifies how many histories to maintain for an attribute", []⟩,
  ⟨"enum", "entity", "many",
    some "Specifies that an attribute only contains certain entities as values", []⟩,
  ⟨"component", "entity", "one", none, []⟩,
  ⟨"unique", "enum", "one", none, ["identity", "value"]⟩,
  ⟨"feature/required", "class", "many",
    some "Points to an attribute which must be required for a class", []⟩,
  ⟨"feature/optional", "class", "many",
    some "Points to an attribute which is optional for a class", []⟩,
  ⟨"feature/prohibited", "class", "many",
    some "Points to an attribute which cannot be allowed for a class", []⟩,
  ⟨"class", "entity", "many", none, []⟩,
  ⟨"class/mode", "enum", "one", none, ["restricted", "strict", "relaxed", "exclusive"]⟩,
  ⟨"documentation", "string", "one", none, []⟩,
  ⟨"transaction/timestamp", "number", "one", some "Records the timestamp of the transaction", []⟩,
  ⟨"transaction/semantic-id", "bytes", "one",
    some "A value which represents the E,A,V values in this transaction", []⟩]

/-- The names of all entities of a schema, in the order of their numbers. -/
def allNames (v : Vocabulary) (schema : List AttributeSpec) : List String :=
  v.identity :: (schema.map (v.attributeName ·.key)
    ++ schema.flatMap fun spec => spec.members.map (v.memberName spec.key))

/-- The last entity that a name was given to. -/
def idOf (names : List String) (name : String) : Except Fault EntityId :=
  match names.zipIdx.findRev? (·.1 == name) with
  | some (_, e) => .ok e
  | none => .error (.unknownName name)

/-- What a fact says, before its transaction and operation are known. -/
abbrev Statement := EntityId × EntityId × Value

/-- The attributes that describe attributes. -/
structure Describing where
  valueKind : EntityId
  cardinality : EntityId
  members : EntityId
  documentation : EntityId

def describing (v : Vocabulary) (names : List String) : Except Fault Describing := do
  let valueKind ← idOf names v.valueKind
  let cardinality ← idOf names v.cardinality
  let members ← idOf names v.members
  let documentation ← idOf names v.documentation
  return ⟨valueKind, cardinality, members, documentation⟩

/-- The reference to a member of one of the schema's attributes. -/
def memberRef (v : Vocabulary) (names : List String) (key member : String) :
    Except Fault Value := do
  return .ref (← idOf names (v.memberName key member))

def describeIdentity (v : Vocabulary) (names : List String) (by_ : Describing) :
    Except Fault (List Statement) := do
  let kind ← memberRef v names "attribute" "string"
  let cardinality ← memberRef v names "cardinality" "one"
  return [(nameAttribute, by_.valueKind, kind), (nameAttribute, by_.cardinality, cardinality)]

/-- The description of an attribute: the kind of its values, its members if it has that kind, its
cardinality and its documentation. -/
def describe (v : Vocabulary) (names : List String) (by_ : Describing) (spec : AttributeSpec) :
    Except Fault (List Statement) := do
  let entity ← idOf names (v.attributeName spec.key)
  let kind ← memberRef v names "attribute" spec.kind
  let members ←
    if spec.kind = "enum" then spec.members.mapM (memberRef v names spec.key) else pure []
  let cardinality ← memberRef v names "cardinality" spec.cardinality
  return (entity, by_.valueKind, kind)
    :: (members.map fun member => (entity, by_.members, member))
    ++ (entity, by_.cardinality, cardinality)
    :: (spec.documentation.map fun text => (entity, by_.documentation, Value.text text)).toList

/-- The facts of the first transaction. The operation they are recorded with is declared by that
transaction itself: it is the first entity with the name of the assert operation. -/
def firstFacts (v : Vocabulary) (schema : List AttributeSpec) (timestamp : Int64) :
    Except Fault (List Fact) := do
  let names := allNames v schema
  let by_ ← describing v names
  let identity ← describeIdentity v names by_
  let attributes ← schema.mapM (describe v names by_)
  let op ←
    match names.zipIdx.find? (·.1 == v.assertOperation) with
    | some (_, e) => .ok e
    | none => .error .noAssertOperation
  let timestampAttr ← idOf names v.timestamp
  let tx := names.length
  let named : List Statement :=
    names.zipIdx.map fun (name, e) => (e, nameAttribute, Value.text name)
  let statements := named ++ identity ++ attributes.flatten
  return (statements ++ [(tx, timestampAttr, Value.int timestamp)]).map fun (e, a, value) =>
    ⟨e, a, value, tx, op⟩

/-! ### Describing the database -/

/-- The request that declares an attribute of one value. -/
def declaration (v : Vocabulary) (identity kind documentation : String) : Form :=
  .map [
    (.ofName v.identity, .ofName identity),
    (.ofName v.valueKind, .ofName (v.memberName "attribute" kind)),
    (.ofName v.cardinality, .ofName (v.memberName "cardinality" "one")),
    (.ofName v.documentation, .text documentation)]

/-- The request that declares the two attributes of a database as a whole. -/
def metadataAttributes (v : Vocabulary) : Form :=
  .map [(.ofName ":tx-attribute", .list [
    declaration v v.databaseId "string" "A unique identifier for the database",
    declaration v v.nextEntityId "number" "A unique identifier for the next entity"])]

/-- The request that records the database's identifier and its next free entity number, or the
greatest integer if that number is larger. -/
def metadataEntity (v : Vocabulary) (databaseId : String) (next : EntityId) : Form :=
  .map [(.ofName ":tx-data", .map [
    (.ofName v.identity, .text v.metadata),
    (.ofName v.databaseId, .text databaseId),
    (.ofName v.nextEntityId, .int (Int64.ofNat (min next maxEntityId)))])]

end Schema

end Factbase
