import Factbase.Query.Answer
import Factbase.Schema
import Factbase.Transaction

/-!
# Factbase.Database

A store together with the vocabulary that its requests are read in. A store without facts is given
the system schema and a description of the database when it is opened.
-/

namespace Factbase

/-- A store and the vocabulary that requests to it are read in. -/
structure Database where
  store : Store
  vocabulary : Vocabulary

/-- What a new database takes from its surroundings: an identifier, and the time of each of its
first three transactions. -/
structure Founding where
  databaseId : String
  schemaTime : Int64
  attributesTime : Int64
  metadataTime : Int64

/-- Steps that follow one another as long as they succeed, and what they leave behind either way. -/
abbrev Store.Steps := ExceptT Fault (StateM Store)

namespace Store.Steps

/-- A change that leaves the store as it is if it fails. -/
def change {α : Type} (f : Store → Except Fault (α × Store)) : Store.Steps α :=
  fun s =>
    match f s with
    | .ok (x, s') => (.ok x, s')
    | .error fault => (.error fault, s)

/-- Three transactions: the schema, the attributes of the database as a whole, and its
description. -/
def found (v : Vocabulary) (founding : Founding) : Store.Steps Unit := do
  change fun s => do
    let facts ← Schema.firstFacts v Schema.system founding.schemaTime
    return ((), ← s.insertAll facts)
  let _ ← change fun s => s.transact v founding.attributesTime (Schema.metadataAttributes v)
  let next ← change fun s => do return (← Transaction.nextEntity s, s)
  let _ ← change fun s =>
    s.transact v founding.metadataTime (Schema.metadataEntity v founding.databaseId next)

end Store.Steps

namespace Database

/-! ### Opening -/

/-- Opens a store, founding a database in it if it holds no facts. The store afterwards is told in
any case. -/
def openStore (s : Store) (v : Vocabulary) (founding : Founding) : Except Fault Unit × Store :=
  if s.size = 0 then Store.Steps.found v founding s else (.ok (), s)

def ofStore (s : Store) (v : Vocabulary) (founding : Founding) : Except Fault Database :=
  match openStore s v founding with
  | (.ok (), s) => .ok ⟨s, v⟩
  | (.error fault, _) => .error fault

/-! ### Requests -/

/-- Carries out a request at a time. A request that fails leaves the database as it is. -/
def transact (db : Database) (now : Int64) (request : Form) : Except Fault (Receipt × Database) :=
  (db.store.transact db.vocabulary now request).map fun (receipt, s) =>
    (receipt, { db with store := s })

def transactText (db : Database) (now : Int64) (text : String) :
    Except Fault (Receipt × Database) :=
  match Notation.parse text with
  | .ok request => db.transact now request
  | .error error => .error (.illFormed error)

/-- Answers a query as of a transaction, or as of the last one. -/
def query (db : Database) (q : Query) (asOf : Option EntityId) (params : List Form) :
    Except Fault (Option (List Query.AnswerRow)) :=
  db.store.answer db.vocabulary q asOf params

def queryText (db : Database) (text : String) (asOf : Option EntityId) (params : List Form) :
    Except Fault (Option (List Query.AnswerRow)) := do
  db.query (← Query.parse text) asOf params

/-- The entity of a name. -/
def resolve (db : Database) (name : String) : Except Fault EntityId :=
  db.store.entityOf name

/-- The name of an entity. The naming attribute has one even if no fact says so. -/
def nameOf (db : Database) (e : EntityId) : Except Fault (Option String) :=
  if e = nameAttribute then .ok (some db.vocabulary.identity) else db.store.nameOf e

/-- A database with the same facts that shares nothing with this one. -/
def copy (db : Database) : Except Fault Database :=
  db.store.copy.map ({ db with store := · })

end Database

end Factbase
