import Factbase.Database
import Factbase.Service.Body

/-!
# Factbase.Service.Response

Responses. A value stands in them without its kind, and a float that is no finite number is left
out.
-/

namespace Factbase.Service

structure Response where
  status : Nat
  body : Option Json

def Response.headOnly (r : Response) : Response := { r with body := none }

/-- What a request takes from its surroundings: the time, and the tokens made up for entities that
have none. -/
structure Surroundings where
  now : Int64
  token : Nat → String

/-! ### Values in answers -/

/-- A value without its kind. A float that is no finite number is left out. -/
def jsonOfValue : Value → Json
  | .text s => .text s
  | .int n => .int n.toInt
  | .float x => if x.isFinite then .float x else .null
  | .bool b => .bool b
  | .bytes bs => .list (bs.map fun b => .int b.toNat)
  | .ref e => .int e

def jsonOfCell : Option Value → Json
  | some value => jsonOfValue value
  | none => .null

def jsonOfNat (n : Nat) : Json := .int n

def jsonOfOption : Option Nat → Json
  | some n => jsonOfNat n
  | none => .null

def jsonOfFact (f : Fact) : Json :=
  .object [("e", jsonOfNat f.entity), ("a", jsonOfNat f.attr), ("v", jsonOfValue f.value),
    ("t", jsonOfNat f.tx), ("o", jsonOfNat f.op)]

def jsonOfIdentity (entry : EntityId × String) : Json :=
  .object [("entity", jsonOfNat entry.1), ("identity", .text entry.2)]

/-- The token of a placeholder, made up if it has none. -/
def tokenOf (around : Surroundings) : Placeholder → String
  | .token s => s
  | .unnamed n => around.token n

def jsonOfGiven (around : Surroundings) (given : List (Placeholder × EntityId)) : Json :=
  .object (given.map fun (p, e) => (tokenOf around p, jsonOfNat e))

/-! ### Outcomes -/

/-- The status of a fault: 400 if the request is to blame, 500 otherwise. -/
def statusOf (fault : Fault) : Nat :=
  match fault.kind with
  | .parse | .unknownIdentity | .unsupportedReference | .unsupportedValue => 400
  | .incompatibleBackends | .missingBootstrapOperation | .persistence => 500

/-- The answer to a request that does not reach the database. -/
def reject (r : Rejection) : Response := ⟨r.status, none⟩

def queryResponse (id : Nat) (outcome : Except Fault (Option (List Query.AnswerRow))) : Response :=
  match outcome with
  | .ok none =>
    ⟨200, some (.object [("id", jsonOfNat id), ("status", .text "ok"), ("rows", .null)])⟩
  | .ok (some rows) =>
    ⟨200, some (.object [("id", jsonOfNat id), ("status", .text "ok"),
      ("row_count", jsonOfNat rows.length),
      ("rows", .list (rows.map fun row => .list (row.map jsonOfCell)))])⟩
  | .error fault =>
    ⟨statusOf fault, some (.object [("id", jsonOfNat id), ("status", .text "error"),
      ("rows", .null), ("error", .text fault.message)])⟩

def transactResponse (around : Surroundings) (id : Nat) (outcome : Except Fault Receipt) :
    Response :=
  match outcome with
  | .ok receipt =>
    ⟨200, some (.object [("id", jsonOfNat id), ("status", .text "ok"),
      ("tx_id", jsonOfNat receipt.tx), ("tempids", jsonOfGiven around receipt.given),
      ("atom_count", jsonOfNat receipt.count)])⟩
  | .error fault =>
    ⟨statusOf fault, some (.object [("id", jsonOfNat id), ("status", .text "error"),
      ("error", .text fault.message)])⟩

end Factbase.Service
