import Factbase.Notation.Reader
import Factbase.Value.Cell

/-!
# Factbase.Fault

Everything that can go wrong with a request, each by its cause. `Fault.message` words them and
`Fault.kind` sorts them.
-/

namespace Factbase

/-- The two ways of keeping facts. -/
inductive Backend where
  /-- A table with a row for each fact. -/
  | table
  /-- A log with hashed indexes beside it. -/
  | indexed
  deriving DecidableEq

def Backend.name : Backend → String
  | .table => "sqlite"
  | .indexed => "memory"

inductive Fault where
  | unknownName (name : String)
  /-- An entity is referred to by a name, which is reserved for later use. -/
  | reservedReference (name : String)
  | backendMismatch (source target : Backend)
  /-- The schema does not declare the operation that its own facts need. -/
  | noAssertOperation
  /-- A form cannot be the value of a fact. -/
  | notAValue (form : Form)
  | notAName (form : Form)
  | notAnEntity (form : Form)
  | negativeEntity (n : Int64)
  | unallocated (entity next : EntityId)
  | exhausted
  | illFormed (error : Notation.SyntaxError)
  | unknownColumn (name : String)
  | unknownDirection (name : String)
  | storage (fault : StorageFault)

/-- The sorts of fault that callers tell apart. -/
inductive Fault.Kind where
  | unknownIdentity
  | unsupportedReference
  | incompatibleBackends
  | missingBootstrapOperation
  | unsupportedValue
  | parse
  | persistence
  deriving DecidableEq

namespace Fault

def kind : Fault → Kind
  | unknownName _ => .unknownIdentity
  | reservedReference _ => .unsupportedReference
  | backendMismatch _ _ => .incompatibleBackends
  | noAssertOperation => .missingBootstrapOperation
  | notAValue _ | notAName _ | notAnEntity _ | negativeEntity _ | unallocated _ _ | exhausted =>
    .unsupportedValue
  | illFormed _ | unknownColumn _ | unknownDirection _ => .parse
  | storage _ => .persistence

/-- Where in a text the fault lies, if it lies in a text. -/
def position? : Fault → Option Notation.Position
  | illFormed error => some error.position
  | _ => none

def message : Fault → String
  | unknownName name => "Unknown identity: " ++ name
  | reservedReference name =>
    "Unsupported entity reference: " ++ name ++ " (unique keyword lookup is not implemented)"
  | backendMismatch source target =>
    "Cannot clone a " ++ source.name ++ " store into a " ++ target.name ++ " store"
  | noAssertOperation => "Bootstrap batch does not declare its own assert operation"
  | notAValue form => "Unsupported value: " ++ form.render
  | notAName form => "Unsupported value: expected a name, found " ++ form.render
  | notAnEntity form => "Unsupported value: cannot refer to an entity with " ++ form.render
  | negativeEntity n => "Unsupported value: negative entity id " ++ toString n.toInt
  | unallocated e next =>
    "Unsupported value: entity " ++ toString e ++ " has not been allocated; the next free id is "
      ++ toString next
  | exhausted => "Unsupported value: entity ids are exhausted"
  | illFormed error => "Parse error: " ++ error.problem.message
  | unknownColumn name => "Parse error: unknown atom column '" ++ name ++ "'"
  | unknownDirection name => "Parse error: unknown sort direction '" ++ name ++ "'"
  | storage fault => "Persistence error: " ++ fault.message

end Fault

end Factbase
