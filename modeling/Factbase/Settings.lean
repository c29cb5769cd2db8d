import Factbase.Fault
import Factbase.Settings.Tree

/-!
# Factbase.Settings

The settings of a service. Those that a file does not mention keep their defaults, and what is no
setting is ignored.
-/

namespace Factbase

/-- How a service keeps its facts and where it listens. -/
structure Settings where
  backend : Backend
  /-- The file of the table; without one the table lives in memory. -/
  path : Option String
  space : String
  bind : String
  /-- Which parts of the log are written. -/
  filter : String

namespace Settings

/-- The settings of a service that has no file. -/
def standard : Settings := ⟨.table, none, ":db", "127.0.0.1:8470", "info"⟩

/-! ### Reading -/

def backendOf (name : String) : Except Fault Backend :=
  match [Backend.table, .indexed].find? (·.name == name) with
  | some backend => .ok backend
  | none => .error (.unknownBackend name)

/-- One of the settings that belong together. In a table it stands under its name, or else has its
default; in a list it stands in its place and has none. -/
def field (part : Option Tree) (place : Nat) (name : String) (default : Tree) :
    Except Fault Tree :=
  match part with
  | none => .ok default
  | some (.table es) => .ok ((es.lookup name).getD default)
  | some (.list items) => .ok (items.getD place .nothing)
  | some _ => .error (.misshapen name)

def asText (name : String) : Tree → Except Fault String
  | .text s => .ok s
  | _ => .error (.misshapen name)

def asOptionalText (name : String) : Tree → Except Fault (Option String)
  | .nothing => .ok none
  | t => (asText name t).map some

/-- A setting that chooses a backend, by a text or by the one name in a table. -/
def asBackend : Tree → Except Fault Backend
  | .text name => backendOf name
  | .table [(name, _)] => backendOf name
  | _ => .error (.misshapen "backend")

def ofTree (t : Tree) : Except Fault Settings := do
  let database := t.entries.lookup "database"
  let server := t.entries.lookup "server"
  let log := t.entries.lookup "log"
  let backend ← field database 0 "backend" (.text standard.backend.name)
  let backend ← asBackend backend
  let path ← field database 1 "path" .nothing
  let path ← asOptionalText "path" path
  let space ← field database 2 "namespace" (.text standard.space)
  let space ← asText "namespace" space
  let bind ← field server 0 "bind" (.text standard.bind)
  let bind ← asText "bind" bind
  let filter ← field log 0 "filter" (.text standard.filter)
  let filter ← asText "filter" filter
  return ⟨backend, path, space, bind, filter⟩

/-- The settings of a text; without a text, the defaults. -/
def load : Option String → Except Fault Settings
  | none => .ok standard
  | some text => do ofTree (Tree.ofFile (← File.ofText text))

end Settings

end Factbase
