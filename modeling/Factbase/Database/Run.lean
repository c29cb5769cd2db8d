import Factbase.Database
import Factbase.Store.Write

/-!
# Factbase.Database.Run

Runs of a database: calls that follow one another, each on what the one before has left behind. A
transaction reads the store in several steps and writes at its end, and any of these steps may fail.
-/

namespace Factbase

namespace Store.Steps

/-- Asks the store and leaves it as it is. -/
def ask {α : Type} (question : Store → Except Fault α) : Store.Steps α :=
  fun s => (question s, s)

def writeBatch (fs : List Fact) : Store.Steps Unit :=
  fun s => s.writeBatch fs

/-- Records drafts under a new transaction, with a last fact about its time. -/
def commit (v : Vocabulary) (now : Int64) (ds : List Draft) : Store.Steps Receipt := do
  let tx ← ask Transaction.nextEntity
  if ds.isEmpty then return ⟨tx, [], 0⟩
  else
    let timestamp ← ask (·.entityOf v.timestamp)
    let op ← ask (·.entityOf v.assertOperation)
    let (facts, a) ← ask fun _ => Transaction.settle tx ds ⟨tx, []⟩
    let facts := facts ++ [⟨tx, timestamp, .int now, tx, op⟩]
    writeBatch facts
    return ⟨tx, a.given, facts.length⟩

def transact (v : Vocabulary) (now : Int64) (request : Form) : Store.Steps Receipt := do
  let ds ← ask (Transaction.drafts v · request)
  commit v now ds

end Store.Steps

inductive Call where
  | transact (now : Int64) (request : Form)
  | query (q : Query) (asOf : Option EntityId) (params : List Form)

inductive Reply where
  | transacted (outcome : Except Fault Receipt)
  | answered (outcome : Except Fault (Option (List Query.AnswerRow)))

/-- The receipt of a transaction that recorded something. -/
def Reply.effect? : Reply → Option Receipt
  | .transacted (.ok receipt) => if receipt.count = 0 then none else some receipt
  | _ => none

namespace Database

/-- Carries out a request at a time, and tells the database afterwards in any case. -/
def carryOut (db : Database) (now : Int64) (request : Form) : Except Fault Receipt × Database :=
  let (outcome, s) := Store.Steps.transact db.vocabulary now request db.store
  (outcome, { db with store := s })

def call (db : Database) : Call → Reply × Database
  | .transact now request =>
    let (outcome, db) := db.carryOut now request
    (.transacted outcome, db)
  | .query q asOf params => (.answered (db.query q asOf params), db)

def run (db : Database) (calls : List Call) : Database :=
  calls.foldl (fun db c => (db.call c).2) db

def replies (db : Database) : List Call → List Reply
  | [] => []
  | c :: rest => (db.call c).1 :: (db.call c).2.replies rest

/-- A database that some run has made of a new one. -/
def Reachable (db : Database) : Prop :=
  ∃ backend v founding first calls,
    ofStore (Store.empty backend) v founding = .ok first ∧ db = first.run calls

end Database

end Factbase
