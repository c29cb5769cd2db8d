import Factbase.Store

/-!
# Factbase.Store.Write

Writes, and what each leaves behind whether or not it succeeds. A table takes a batch row by row;
the rows become part of it together when the last one is written, and are given up when one of them
cannot be.
-/

namespace Factbase

namespace Store

/-! ### Batches -/

/-- A table while it takes a batch: the rows it keeps, and those written since the batch began. -/
structure Batch where
  kept : List Row
  written : List Row

namespace Batch

def start (t : Table) : Batch := ⟨t.rows, []⟩

def write (b : Batch) (f : Fact) : Except StorageFault Unit × Batch :=
  match Row.ofFact f with
  | .ok row => (.ok (), { b with written := b.written ++ [row] })
  | .error fault => (.error fault, b)

/-- Writes facts one after another, up to the first that cannot be written. -/
def writeAll (b : Batch) : List Fact → Except StorageFault Unit × Batch
  | [] => (.ok (), b)
  | f :: rest =>
    match b.write f with
    | (.ok (), b) => b.writeAll rest
    | (.error fault, b) => (.error fault, b)

def commit (b : Batch) : Table := ⟨b.kept ++ b.written⟩

def rollback (b : Batch) : Table := ⟨b.kept⟩

end Batch

def Table.writeBatch (t : Table) (fs : List Fact) : Except StorageFault Unit × Table :=
  match (Batch.start t).writeAll fs with
  | (.ok (), b) => (.ok (), b.commit)
  | (.error fault, b) => (.error fault, b.rollback)

/-- Writes facts as a batch, in either way of keeping them. -/
def writeBatch (s : Store) (fs : List Fact) : Except Fault Unit × Store :=
  match s with
  | indexed s => (.ok (), indexed (s.insertAll fs))
  | table t =>
    let (outcome, t) := t.writeBatch fs
    (ofStorage outcome, table t)

/-! ### Runs of writes -/

inductive Write where
  | insert (f : Fact)
  | insertAll (fs : List Fact)
  | reset

def write (s : Store) : Write → Except Fault Unit × Store
  | .insert f => s.writeBatch [f]
  | .insertAll fs => s.writeBatch fs
  | .reset => (.ok (), s.emptied)

/-- Makes changes one after another, whichever of them fail. -/
def writeAll (s : Store) : List Write → List (Except Fault Unit) × Store
  | [] => ([], s)
  | w :: rest =>
    let (outcome, s) := s.write w
    let (outcomes, s) := s.writeAll rest
    (outcome :: outcomes, s)

end Store

end Factbase
