import Factbase.Proofs.Indexed
import Factbase.Proofs.Table
import Factbase.Database.Run

/-!
# Factbase.Proofs.Write

Writing is all or nothing. A batch that fails part of the way leaves the table as it was, and so a
request that fails at any of its steps leaves the store as it was: taking the steps one after
another does what `Store.transact` says.
-/

namespace Factbase

namespace Store

/-! ### Batches -/

/-- A batch writes the rows of its facts, in their order, as far as they can be written, and keeps
what was there before. -/
theorem Batch.writeAll_eq (b : Batch) (fs : List Fact) :
    match fs.mapM Row.ofFact with
    | .ok rows => b.writeAll fs = (.ok (), { b with written := b.written ++ rows })
    | .error fault => (b.writeAll fs).1 = .error fault ∧ (b.writeAll fs).2.kept = b.kept := by
  -- the batch grows with each row, so the claim is about any batch
  induction fs generalizing b with
  | nil => simp [Batch.writeAll, pure, Except.pure]
  | cons f rest ih =>
    rw [List.mapM_cons]
    cases first : Row.ofFact f with
    | error fault => simp [Batch.writeAll, Batch.write, first, bind, Except.bind]
    | ok row =>
      have others := ih { b with written := b.written ++ [row] }
      cases rows : rest.mapM Row.ofFact with
      | error fault =>
        simpa [Batch.writeAll, Batch.write, first, rows, bind, Except.bind] using others
      | ok rows' =>
        simpa [Batch.writeAll, Batch.write, first, rows, bind, Except.bind, pure, Except.pure]
          using others

/-- A batch becomes part of the table as a whole, or leaves it as it was. -/
theorem Table.writeBatch_eq (t : Table) (fs : List Fact) :
    t.writeBatch fs =
      match t.insertAll fs with
      | .ok t' => (.ok (), t')
      | .error fault => (.error fault, t) := by
  have taken := Batch.writeAll_eq (Batch.start t) fs
  unfold Table.writeBatch Table.insertAll
  cases rows : fs.mapM Row.ofFact with
  | ok rows' =>
    rw [rows] at taken
    rw [taken]
    simp [Batch.start, Batch.commit, bind, Except.bind, pure, Except.pure]
  | error fault =>
    rw [rows] at taken
    obtain ⟨outcome, kept⟩ := taken
    cases whole : (Batch.start t).writeAll fs with
    | mk result b =>
      rw [whole] at outcome kept
      subst outcome
      show (Except.error fault, b.rollback) = (Except.error fault, t)
      rw [Batch.rollback, show b.kept = t.rows from kept]

theorem writeBatch_eq (s : Store) (fs : List Fact) :
    s.writeBatch fs =
      match s.insertAll fs with
      | .ok s' => (.ok (), s')
      | .error fault => (.error fault, s) := by
  cases s with
  | indexed s => rfl
  | table t =>
    rw [writeBatch, Table.writeBatch_eq, insertAll]
    cases t.insertAll fs <;> rfl

/-! ### Steps -/

namespace Steps

variable {α β : Type}

/-- A question is answered on the store as it is, and a fault ends the steps there. -/
theorem ask_bind (question : Store → Except Fault α) (next : α → Store.Steps β) (s : Store) :
    (ask question >>= next) s =
      match question s with
      | .ok x => next x s
      | .error fault => (.error fault, s) := by
  show ExceptT.bindCont next (question s) s = _
  cases question s <;> rfl

/-- A batch is written before the steps go on, and a fault ends them on the store as it was. -/
theorem writeBatch_bind (fs : List Fact) (next : Unit → Store.Steps β) (s : Store) :
    (writeBatch fs >>= next) s =
      match s.insertAll fs with
      | .ok s' => next () s'
      | .error fault => (.error fault, s) := by
  show ExceptT.bindCont next (s.writeBatch fs).1 (s.writeBatch fs).2 = _
  rw [writeBatch_eq]
  cases s.insertAll fs <;> rfl

/-- Recording drafts step by step records all of them or none. -/
theorem commit_eq (v : Vocabulary) (now : Int64) (ds : List Draft) :
    commit v now ds = change fun s => Transaction.commit v now s ds := by
  funext s
  -- step by step: a fault at any of them leaves the store as it was
  unfold commit change Transaction.commit
  beta_reduce
  rw [ask_bind]
  cases Transaction.nextEntity s with
  | error fault => rfl
  | ok tx =>
    rw [Outcome.ok_bind]
    dsimp only
    split
    · rfl
    · rw [ask_bind]
      cases s.entityOf v.timestamp with
      | error fault => rfl
      | ok timestamp =>
        rw [Outcome.ok_bind]
        dsimp only
        rw [ask_bind]
        cases s.entityOf v.assertOperation with
        | error fault => rfl
        | ok op =>
          rw [Outcome.ok_bind]
          dsimp only
          rw [ask_bind]
          cases Transaction.settle tx ds ⟨tx, []⟩ with
          | error fault => rfl
          | ok settled =>
            rw [Outcome.ok_bind]
            dsimp only
            rw [writeBatch_bind]
            cases s.insertAll (settled.1 ++ [⟨tx, timestamp, .int now, tx, op⟩]) <;> rfl

/-- Carrying out a request step by step does what the request does as a whole, or nothing. -/
theorem transact_eq (v : Vocabulary) (now : Int64) (request : Form) :
    transact v now request = change fun s => s.transact v now request := by
  funext s
  unfold transact change Store.transact
  beta_reduce
  rw [ask_bind]
  cases Transaction.drafts v s request with
  | error fault => rfl
  | ok ds =>
    dsimp only
    rw [commit_eq]
    rfl

end Steps

end Store

namespace Database

/-- A request that succeeds is carried out as a whole. -/
theorem carryOut_eq (db : Database) (now : Int64) (request : Form) :
    db.carryOut now request =
      match db.store.transact db.vocabulary now request with
      | .ok (receipt, s) => (.ok receipt, { db with store := s })
      | .error fault => (.error fault, db) := by
  rw [carryOut, Store.Steps.transact_eq, Store.Steps.change]
  cases db.store.transact db.vocabulary now request <;> rfl

end Database

end Factbase
