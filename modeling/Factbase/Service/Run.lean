import Factbase.Service

/-!
# Factbase.Service.Run

Requests that come in one after another, and what those that are accepted ask of the database. The
same can be asked of a database directly.
-/

namespace Factbase

/-- The database after a request in the notation, carried out at a time or refused. -/
def Database.afterText (db : Database) (now : Int64) (text : String) : Database :=
  match db.transactText now text with
  | .ok (_, db) => db
  | .error _ => db

/-- The database after requests in the notation, each carried out at its time or refused. -/
def Database.afterTexts (db : Database) (requests : List (Int64 × String)) : Database :=
  requests.foldl (fun db (now, text) => db.afterText now text) db

namespace Service

/-- A request and the surroundings it comes into. -/
structure Arrival where
  request : Request
  around : Surroundings

/-- Handles requests one after another. -/
def handleAll (s : Service) : List Arrival → List Response × Service
  | [] => ([], s)
  | a :: rest =>
    let (response, s) := s.handle a.around a.request
    let (responses, s) := s.handleAll rest
    (response :: responses, s)

/-! ### What requests ask for -/

inductive Task where
  | query (body : Body.QueryBody)
  | transact (text : String)

/-- What a request that is accepted asks of the database: it is posted to the path of one of the two
engines and has a body that can be read. -/
def Request.task? (r : Request) : Option Task :=
  if r.method = "POST" then
    match Route.ofPath? (splitTarget r.target).1 with
    | some .query => (outlineOf r >>= Body.query).toOption.map .query
    | some .transact => (outlineOf r >>= Body.transact).toOption.map .transact
    | _ => none
  else none

/-- The time and the text of the transaction that is asked for. -/
def Arrival.text? (a : Arrival) : Option (Int64 × String) :=
  match a.request.task? with
  | some (.transact text) => some (a.around.now, text)
  | _ => none

/-- The tasks of those requests that are accepted. -/
def tasks (arrivals : List Arrival) : List Task :=
  arrivals.filterMap (·.request.task?)

end Service

end Factbase
