import Factbase.Transaction.Draft

/-!
# Factbase.Transaction

Transactions. The drafts of a request are committed together under one transaction number, and
placeholders get their numbers as they are met.
-/

namespace Factbase

structure Receipt where
  tx : EntityId
  /-- The entity of each placeholder, in the order in which they got their numbers. -/
  given : List (Placeholder × EntityId)
  count : Nat

namespace Transaction

/-- A number, if an entity can have it. -/
def allocatable (e : EntityId) : Except Fault EntityId :=
  if e ≤ maxEntityId then .ok e else .error .exhausted

def nextEntity (s : Store) : Except Fault EntityId :=
  match s.lastEntity with
  | none => .ok 1
  | some last => allocatable (last + 1)

/-- The numbers given to placeholders so far, and the last number given. -/
structure Allocation where
  last : EntityId
  given : List (Placeholder × EntityId)

/-- Whether a placeholder is one of those that are reserved for later use. -/
def reserved? : Placeholder → Option String
  | .token s => if s.toList.head? = some ':' then some s else none
  | .unnamed _ => none

/-- The number of a placeholder: the one it has, or the next one. -/
def Allocation.number (a : Allocation) (p : Placeholder) : Except Fault (EntityId × Allocation) :=
  match reserved? p with
  | some token => .error (.reservedReference token)
  | none =>
    match a.given.lookup p with
    | some e => .ok (e, a)
    | none => do
      let e ← allocatable (a.last + 1)
      return (e, ⟨e, a.given ++ [(p, e)]⟩)

/-- The number of a subject. Only a number below the transaction's own has been given before. -/
def Allocation.entity (a : Allocation) (tx : EntityId) :
    Subject → Except Fault (EntityId × Allocation)
  | .existing e => if tx ≤ e then .error (.unallocated e tx) else .ok (e, a)
  | .new p => a.number p

/-- The facts of some drafts under a transaction. -/
def settle (tx : EntityId) : List Draft → Allocation → Except Fault (List Fact × Allocation)
  | [], a => .ok ([], a)
  | d :: rest, a => do
    let (e, a) ← a.entity tx d.subject
    let (facts, a) ← settle tx rest a
    return (⟨e, d.attr, d.value, tx, d.op⟩ :: facts, a)

/-- Records drafts under a new transaction, with a last fact about its time. Where there is nothing
to record, nothing happens. -/
def commit (v : Vocabulary) (now : Int64) (s : Store) (ds : List Draft) :
    Except Fault (Receipt × Store) := do
  let tx ← nextEntity s
  if ds.isEmpty then return (⟨tx, [], 0⟩, s)
  else
    let timestamp ← s.entityOf v.timestamp
    let op ← s.entityOf v.assertOperation
    let (facts, a) ← settle tx ds ⟨tx, []⟩
    let facts := facts ++ [⟨tx, timestamp, .int now, tx, op⟩]
    let s ← s.insertAll facts
    return (⟨tx, a.given, facts.length⟩, s)

end Transaction

/-- Carries out a request at a time, and yields what it did and the store afterwards. -/
def Store.transact (s : Store) (v : Vocabulary) (now : Int64) (request : Form) :
    Except Fault (Receipt × Store) := do
  Transaction.commit v now s (← Transaction.drafts v s request)

end Factbase
