/-!
# Factbase.Vocabulary

The names of the system's own entities. They all start with one name space, `:db` unless another is
chosen.
-/

namespace Factbase

/-- The name space that the system's own names start with. -/
structure Vocabulary where
  space : String
  deriving DecidableEq

namespace Vocabulary

/-- The name space of a database for which none is chosen. -/
def standard : Vocabulary := ⟨":db"⟩

/-- A list with a dot for its first slash. -/
def dotFirstSlash : List Char → List Char
  | [] => []
  | '/' :: rest => '.' :: rest
  | c :: rest => c :: dotFirstSlash rest

/-- What the name of an attribute adds to the name space. -/
def attributeSuffix (key : String) : String :=
  (if key.toList.contains '/' then "." else "/") ++ key

/-- What the name of one of the values of an attribute adds to the name space. -/
def memberSuffix (key member : String) : String :=
  "." ++ String.ofList (dotFirstSlash key.toList) ++ "/" ++ member

def within (v : Vocabulary) (suffix : String) : String := v.space ++ suffix

/-- Names differ when what they add to the name space does. -/
theorem within_inj {v : Vocabulary} {s t : String} : v.within s = v.within t ↔ s = t := by
  simp [within]

/-- The name of an attribute: `attribute` is `:db/attribute`, `class/mode` is `:db.class/mode`. -/
def attributeName (v : Vocabulary) (key : String) : String :=
  v.within (attributeSuffix key)

/-- The name of one of the values of an attribute: `strict` for `class/mode` is
`:db.class.mode/strict`. -/
def memberName (v : Vocabulary) (key member : String) : String :=
  v.within (memberSuffix key member)

def identity (v : Vocabulary) : String := v.attributeName "identity"

/-- The attribute that says which kind of value another attribute takes. -/
def valueKind (v : Vocabulary) : String := v.attributeName "attribute"

def cardinality (v : Vocabulary) : String := v.attributeName "cardinality"

def documentation (v : Vocabulary) : String := v.attributeName "documentation"

def history (v : Vocabulary) : String := v.attributeName "history"

/-- The attribute that lists the values another attribute can take. -/
def members (v : Vocabulary) : String := v.attributeName "enum"

/-- The key under which a map names the entity it is about. -/
def entityKey (v : Vocabulary) : String := v.attributeName "e"

/-- The operation that adds a fact. -/
def assertOperation (v : Vocabulary) : String := v.memberName "operation" "assert"

/-- The operation that hides the earlier facts on an entity and attribute. -/
def retractOperation (v : Vocabulary) : String := v.memberName "operation" "retract"

/-- The attribute of a transaction's own time. -/
def timestamp (v : Vocabulary) : String := v.attributeName "transaction/timestamp"

def databaseId (v : Vocabulary) : String := v.attributeName "database-id"

def nextEntityId (v : Vocabulary) : String := v.attributeName "next-entity-id"

def metadata (v : Vocabulary) : String := v.attributeName "metadata"

end Vocabulary

end Factbase
