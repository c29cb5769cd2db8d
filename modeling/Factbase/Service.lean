import Factbase.Service.MediaType
import Factbase.Service.QueryString
import Factbase.Service.Response
import Factbase.Service.Route

/-!
# Factbase.Service

A database behind a request protocol. Queries and transactions that can be read are numbered from
one, whether or not they succeed; a request that is rejected before it reaches the database has no
number.
-/

namespace Factbase

/-- A database and the number of requests that have reached it. -/
structure Service where
  database : Database
  /-- The last number given to a request. -/
  issued : Nat

namespace Service

def ofDatabase (db : Database) : Service := ⟨db, 0⟩

def issue (s : Service) : Nat × Service :=
  (s.issued + 1, { s with issued := s.issued + 1 })

/-- A request as it comes in. -/
structure Request where
  method : String
  /-- The path, and the query string behind a question mark. -/
  target : String
  mediaType : Option String
  body : String

/-- How many bytes the body of a request can have. -/
def maxBodySize : Nat := 2 * 1024 * 1024

/-- The body of a request as the outline of a JSON text. -/
def outlineOf (r : Request) : Except Rejection Json.Outline :=
  if !(r.mediaType.any MediaType.isJson) then .error .notJsonType
  else if maxBodySize < r.body.utf8ByteSize then .error .tooLong
  else .ok (Json.Outline.ofText r.body)

/-- Answers a query. Only a body that can be read gets a number. -/
def runQuery (s : Service) (r : Request) : Response × Service :=
  match outlineOf r >>= Body.query with
  | .error rejection => (reject rejection, s)
  | .ok body =>
    let (id, s) := s.issue
    let outcome := s.database.queryText body.query body.asOf (body.params.map Json.toForm)
    (queryResponse id outcome, s)

/-- Carries out a transaction. Only a body that can be read gets a number. -/
def runTransact (s : Service) (around : Surroundings) (r : Request) : Response × Service :=
  match outlineOf r >>= Body.transact with
  | .error rejection => (reject rejection, s)
  | .ok tx =>
    let (id, s) := s.issue
    match s.database.transactText around.now tx with
    | .ok (receipt, db) => (transactResponse around id (.ok receipt), { s with database := db })
    | .error fault => (transactResponse around id (.error fault), s)

def stats (s : Service) : Json :=
  let store := s.database.store
  .object [("max_transaction_id", jsonOfOption store.lastTx),
    ("max_entity_id", jsonOfOption store.lastEntity), ("atom_count", jsonOfNat store.size)]

def atoms (s : Service) (queryString : String) : Response :=
  match QueryString.listing? queryString with
  | none => reject .unreadable
  | some listing =>
    match s.database.store.list listing with
    | .ok facts => ⟨200, some (.list (facts.map jsonOfFact))⟩
    | .error fault => ⟨statusOf fault, none⟩

def serve (s : Service) (around : Surroundings) (route : Route) (queryString : String)
    (r : Request) : Response × Service :=
  match route with
  | .query => s.runQuery r
  | .transact => s.runTransact around r
  | .stats => (⟨200, some s.stats⟩, s)
  | .identities => (⟨200, some (.list (s.database.store.identities.map jsonOfIdentity))⟩, s)
  | .atoms => (s.atoms queryString, s)

/-- Handles a request. Options are granted at every path. -/
def handle (s : Service) (around : Surroundings) (r : Request) : Response × Service :=
  let (path, queryString) := splitTarget r.target
  if r.method = "OPTIONS" then (⟨200, none⟩, s)
  else
    match Route.ofPath? path with
    | none => (reject .noSuchPath, s)
    | some route =>
      if route.takes r.method then
        let (response, s) := s.serve around route queryString r
        (if r.method = "HEAD" then response.headOnly else response, s)
      else (reject .methodNotAllowed, s)

end Service

end Factbase
