import Factbase.Store.Indexed
import Factbase.Store.Table

/-!
# Factbase.Store

A store of facts in either way of keeping them. Facts are only ever added; a store can be emptied
to take a copy of another.
-/

namespace Factbase

inductive Store where
  | indexed (s : Store.Indexed)
  | table (t : Store.Table)

namespace Store

def backend : Store → Backend
  | indexed _ => .indexed
  | table _ => .table

def empty : Backend → Store
  | .indexed => indexed .empty
  | .table => table .empty

def emptied (s : Store) : Store := empty s.backend

/-- A fault of the table as a fault of the store. -/
def ofStorage {α : Type} : Except StorageFault α → Except Fault α
  | .ok x => .ok x
  | .error fault => .error (.storage fault)

/-! ### Writing -/

/-- Adds all facts, or none of them. -/
def insertAll (s : Store) (fs : List Fact) : Except Fault Store :=
  match s with
  | indexed s => .ok (indexed (s.insertAll fs))
  | table t => (ofStorage (t.insertAll fs)).map table

def insert (s : Store) (f : Fact) : Except Fault Store :=
  s.insertAll [f]

/-! ### Reading -/

/-- The facts that match a pattern and were recorded by a transaction, or before it, in insertion
order. -/
def lookup (s : Store) (p : Pattern) (asOf : EntityId) : Except Fault (List Fact) :=
  match s with
  | indexed s => .ok (s.lookup p asOf)
  | table t => ofStorage (t.lookup p asOf)

def lastTx : Store → Option EntityId
  | indexed s => s.lastTx
  | table t => t.lastTx

def lastEntity : Store → Option EntityId
  | indexed s => s.lastEntity
  | table t => t.lastEntity

def size : Store → Nat
  | indexed s => s.size
  | table t => t.size

def firstName (s : Store) (e : EntityId) : Option String :=
  match s with
  | indexed s => s.nameOf e
  | table t => t.nameOf e

/-- An entity to ask about. A table cannot be asked about a number that it cannot hold. -/
def askable (s : Store) (e : EntityId) : Except Fault EntityId :=
  match s with
  | indexed _ => .ok e
  | table _ => ofStorage (Row.entityToWrite e)

/-- The first name given to an entity that may be any number. -/
def nameOf (s : Store) (e : EntityId) : Except Fault (Option String) :=
  (s.askable e).map s.firstName

/-- The first entity given a name, if there is one. -/
def entityOf? (s : Store) (name : String) : Option EntityId :=
  match s with
  | indexed s => s.entityOf name
  | table t => t.entityOf name

def entityOf (s : Store) (name : String) : Except Fault EntityId :=
  match s.entityOf? name with
  | some e => .ok e
  | none => .error (.unknownName name)

def count (s : Store) (e : EntityId) : Except Fault Nat :=
  (s.askable e).map fun e =>
    match s with
    | indexed s => s.count e
    | table t => t.count e

/-- Every entity that was given a name, with the name, in insertion order. -/
def identities : Store → List (EntityId × String)
  | indexed s => s.identities
  | table t => t.identities

def list (s : Store) (listing : Listing) : Except Fault (List Fact) :=
  match s with
  | indexed s => .ok (s.list listing)
  | table t => ofStorage (t.list listing)

/-! ### Copying -/

/-- Copies every fact of a store into another of the same kind, in place of what that one holds,
and yields the other store afterwards. It is emptied before the facts are read, and stays empty if
they cannot be read or written. -/
def copyInto (s target : Store) : Except Fault Unit × Store :=
  if target.backend = s.backend then
    match s.list Listing.all >>= target.emptied.insertAll with
    | .ok copy => (.ok (), copy)
    | .error fault => (.error fault, target.emptied)
  else (.error (.backendMismatch s.backend target.backend), target)

/-- A copy of a store that shares nothing with it. -/
def copy (s : Store) : Except Fault Store :=
  match s.copyInto s.emptied with
  | (.ok (), copy) => .ok copy
  | (.error fault, _) => .error fault

end Store

end Factbase
