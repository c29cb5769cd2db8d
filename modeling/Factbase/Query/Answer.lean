import Factbase.Fact.Retraction
import Factbase.Query.Bindings
import Factbase.Query.Clause

/-!
# Factbase.Query.Answer

Answers. A clause yields a row of bindings for every fact that matches its constants and stands as
of a transaction; the rows of all clauses are joined from left to right.
-/

namespace Factbase

namespace Query

/-- The bindings of a clause at a fact; none if a variable would stand for two values. -/
def Clause.bindings (v : Vocabulary) (s : Store) (c : Clause) (f : Fact) : Option Bindings :=
  Bindings.merge [] (c.entries v s f)

/-- A clause and the pattern of its constants. -/
abbrev Compiled := Clause × Option Pattern

def compile (s : Store) (ps : Parameters) (forms : List Form) : Except Fault Compiled := do
  let clause := Clause.ofForms ps forms
  return (clause, ← clause.pattern s)

def rows (v : Vocabulary) (s : Store) (retract asOf : EntityId) (c : Compiled) :
    Except Fault (List Bindings) :=
  match c.2 with
  | none => .ok []
  | some pattern => do
    let facts ← s.lookup pattern asOf
    return (Fact.standing retract facts).filterMap (c.1.bindings v s)

/-- Joins the rows of clauses to some rows, until none are left. -/
def joinAll (evaluate : Compiled → Except Fault (List Bindings)) :
    List Compiled → List Bindings → Except Fault (List Bindings)
  | [], joined => .ok joined
  | c :: rest, joined =>
    if joined.isEmpty then .ok []
    else do
      let next ← evaluate c
      joinAll evaluate rest (Bindings.join joined next)

/-- A row of an answer: the value of each variable to find, where it has one. -/
abbrev AnswerRow := List (Option Value)

/-- The transaction as of which a query is answered: the given one, but no later than any can be,
or the last one. -/
def effectiveTx (s : Store) : Option EntityId → EntityId
  | some tx => min tx maxEntityId
  | none => s.lastTx.getD 0

end Query

/-- Answers a query. A query without clauses has no answer. All attributes are looked up before the
first clause is evaluated, so that an unknown one is always a fault. -/
def Store.answer (s : Store) (v : Vocabulary) (q : Query) (asOf : Option EntityId)
    (params : List Form) : Except Fault (Option (List Query.AnswerRow)) :=
  match q.clauses with
  | none => .ok none
  | some clauses => do
    let retract ← s.entityOf v.retractOperation
    let compiled ← clauses.mapM (Query.compile s (q.parameters params))
    if compiled.isEmpty then return none
    else
      let joined ← Query.joinAll (Query.rows v s retract (Query.effectiveTx s asOf)) compiled [[]]
      return some (joined.map fun row => q.find.map fun name => row.lookup name)

end Factbase
