import Factbase.Json.Outline

/-!
# Factbase.Service.Body

The bodies of requests. A body is an object of known entries, or a list of their values in order.
It is read from its start, and the first fault in it decides how it is rejected.
-/

namespace Factbase.Service

/-- Why a request does not reach the database. -/
inductive Rejection where
  | noSuchPath
  | methodNotAllowed
  | notJsonType
  | tooLong
  /-- The body is no JSON, or the query string asks for no listing. -/
  | unreadable
  /-- The body is JSON of another shape. -/
  | misshapen
  deriving DecidableEq

def Rejection.status : Rejection → Nat
  | .noSuchPath => 404
  | .methodNotAllowed => 405
  | .notJsonType => 415
  | .tooLong => 413
  | .unreadable => 400
  | .misshapen => 422

namespace Body

open Json (Outline)

def ofFlaw : Outline.Flaw → Rejection
  | .form => .unreadable
  | .content => .misshapen

/-- What can be read of a body, with its flaw as a rejection. -/
def reading {α : Type} (outcome : Except Outline.Flaw α) : Except Rejection α :=
  outcome.mapError ofFlaw

def wrongKind (o : Outline) : Rejection := ofFlaw o.wrongKind

def text (o : Outline) : Except Rejection String := reading o.asText

def transaction : Outline → Except Rejection (Option Nat)
  | .null => .ok none
  | .number (some (.int n)) => if 0 ≤ n then .ok (some n.toNat) else .error .misshapen
  | o => .error (wrongKind o)

/-- A list of any values, the second level of nesting in a body. -/
def values : Outline → Except Rejection (List Json)
  | .list items => reading (Outline.itemsToJson Json.parse (Json.maxDepth - 2) items)
  | o => .error (wrongKind o)

/-- Skips the value of an unknown entry. -/
def skip (o : Outline) : Except Rejection Unit :=
  if o.isWhole then .ok () else .error .unreadable

/-- Sets a place that has not been set before. -/
def set {α : Type} (place : Option α) (read : Outline → Except Rejection α) (o : Outline) :
    Except Rejection (Option α) :=
  if place.isSome then .error .misshapen else (read o).map some

/-- Reads all entries of an object in order, by what each of them does. -/
def readEntries {σ : Type} (read : σ → String → Outline → Except Rejection σ) :
    σ → List (Option String × Outline) → Except Rejection σ
  | state, [] => .ok state
  | _, (none, _) :: _ => .error .unreadable
  | state, (some key, value) :: rest => do
    let state ← read state key value
    readEntries read state rest

/-! ### Queries -/

/-- The entries of a query that have been read so far. -/
structure QueryEntries where
  query : Option String
  asOf : Option (Option Nat)
  params : Option (List Json)

structure QueryBody where
  query : String
  asOf : Option Nat
  params : List Json

/-- Reads one entry of a query. No entry is repeated. -/
def queryEntry (entries : QueryEntries) (key : String) (value : Outline) :
    Except Rejection QueryEntries := do
  if key = "query" then
    return { entries with query := ← set entries.query text value }
  else if key = "as_of" then
    return { entries with asOf := ← set entries.asOf transaction value }
  else if key = "params" then
    return { entries with params := ← set entries.params values value }
  else
    skip value
    return entries

def query : Outline → Except Rejection QueryBody
  | .object entries => do
    let entries ← readEntries queryEntry ⟨none, none, none⟩ entries
    match entries.query with
    | none => .error .misshapen
    | some query => .ok ⟨query, entries.asOf.getD none, entries.params.getD []⟩
  | .list [] => .error .misshapen
  | .list (first :: rest) => do
    let query ← text first
    let asOf ← (rest.take 1).mapM transaction
    let params ← ((rest.drop 1).take 1).mapM values
    if rest.length ≤ 2 then return ⟨query, asOf.head?.getD none, params.flatten⟩
    else .error .unreadable
  | o => .error (wrongKind o)

/-! ### Transactions -/

/-- Reads one entry of a transaction. No entry is repeated. -/
def transactEntry (entry : Option String) (key : String) (value : Outline) :
    Except Rejection (Option String) := do
  if key = "tx" then set entry text value
  else
    skip value
    return entry

def transact : Outline → Except Rejection String
  | .object entries => do
    match ← readEntries transactEntry none entries with
    | none => .error .misshapen
    | some tx => .ok tx
  | .list [] => .error .misshapen
  | .list (first :: rest) => do
    let tx ← text first
    if rest.isEmpty then return tx else .error .unreadable
  | o => .error (wrongKind o)

end Body

end Factbase.Service
