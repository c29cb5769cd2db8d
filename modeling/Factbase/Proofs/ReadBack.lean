import Factbase.Proofs.FullScan
import Factbase.Proofs.Write

/-!
# Factbase.Proofs.ReadBack

A table gives back what it has accepted, number for number and bit for bit. The exception is a
double that is no number: its row is accepted, but keeps nothing of the value, and from then on no
read that comes upon the row succeeds.
-/

namespace Factbase

namespace Store

/-! ### What a run of changes was accepted for -/

/-- The facts that a change adds. -/
def Write.facts : Write → List Fact
  | .insert f => [f]
  | .insertAll fs => fs
  | .reset => []

/-- The log after a change that may have been refused. -/
def Write.logIfOk (fs : List Fact) (w : Write) : Except Fault Unit → List Fact
  | .ok () => w.log fs
  | .error _ => fs

/-- What the changes that were accepted have written since the last time the store was emptied. -/
def Write.accepted (ws : List Write) (outcomes : List (Except Fault Unit)) : List Fact :=
  (ws.zip outcomes).foldl (fun fs (w, outcome) => w.logIfOk fs outcome) []

/-- A change is accepted exactly when its facts fit the rows of a table. -/
def Write.AcceptedIfFits (w : Write) (outcome : Except Fault Unit) : Prop :=
  outcome = .ok () ↔ ∀ f ∈ w.facts, f.Writable

namespace Table

variable {t : Table} {fs : List Fact} (holds : t.Holds fs)

include holds

/-- A batch that fits is held behind the facts before it; any other is refused as a whole. -/
theorem Holds.writeBatch (gs : List Fact) :
    (∃ t' : Table, (table t).writeBatch gs = (.ok (), table t') ∧ t'.Holds (fs ++ gs) ∧
        ∀ g ∈ gs, g.Writable) ∨
      (∃ fault, (table t).writeBatch gs = (.error fault, table t) ∧ ¬ ∀ g ∈ gs, g.Writable) := by
  rw [Store.writeBatch_eq, Store.insertAll]
  cases result : t.insertAll gs with
  | ok t' => exact .inl ⟨t', rfl, holds.insertAll result, (insertAll_eq_ok.mp result).1⟩
  | error fault =>
    -- facts that fit would have been written
    refine .inr ⟨.storage fault, rfl, fun fits => ?_⟩
    have written : t.insertAll gs = .ok ⟨t.rows ++ gs.map Fact.row⟩ :=
      insertAll_eq_ok.mpr ⟨fits, rfl⟩
    rw [result] at written
    cases written

theorem Holds.write (w : Write) :
    ∃ outcome, ∃ t' : Table, (table t).write w = (outcome, table t') ∧
      t'.Holds (w.logIfOk fs outcome) ∧ w.AcceptedIfFits outcome := by
  -- single facts are batches of one
  have batch : ∀ w : Write, (table t).write w = (table t).writeBatch w.facts →
      w.log fs = fs ++ w.facts → ∃ outcome, ∃ t' : Table, (table t).write w = (outcome, table t') ∧
        t'.Holds (w.logIfOk fs outcome) ∧ w.AcceptedIfFits outcome := by
    intro w same grown
    rw [same]
    obtain ⟨t', written, holds', fits⟩ | ⟨fault, refused, unfit⟩ := holds.writeBatch w.facts
    · exact ⟨.ok (), t', written, by rwa [Write.logIfOk, grown], fun _ => fits, fun _ => rfl⟩
    · exact ⟨.error fault, t, refused, holds, nofun, fun fits => absurd fits unfit⟩
  cases w with
  | insert f => exact batch (.insert f) rfl rfl
  | insertAll gs => exact batch (.insertAll gs) rfl rfl
  | reset => exact ⟨.ok (), .empty, rfl, holds_empty, fun _ => nofun, fun _ => rfl⟩

theorem Holds.writeAll (ws : List Write) :
    ∃ outcomes, ∃ t' : Table, (table t).writeAll ws = (outcomes, table t') ∧
      t'.Holds ((ws.zip outcomes).foldl (fun fs (w, outcome) => w.logIfOk fs outcome) fs) ∧
      List.Forall₂ Write.AcceptedIfFits ws outcomes := by
  -- each change hands a table on that holds what was accepted so far
  induction ws generalizing t fs with
  | nil => exact ⟨[], t, rfl, holds, .nil⟩
  | cons w rest ih =>
    obtain ⟨outcome, between, written, holds', fits⟩ := holds.write w
    obtain ⟨outcomes, last, others, holds'', others_fit⟩ := ih holds'
    refine ⟨outcome :: outcomes, last, ?_, holds'', .cons fits others_fit⟩
    simp only [Store.writeAll, written, others]

end Table

/-! ### Reads -/

/-- A store that gives facts back as they are, in every read that comes upon no value that is no
number. -/
structure ReadsBack (s : Store) (fs : List Fact) : Prop where
  all : s.list .all = ofStorage (Table.readBack fs)
  list : ∀ listing, s.list listing =
    ofStorage (Table.readBack ((listing.atMost maxCellInt).arrange Fact.rowOrder fs))
  /-- A search that can be made at all finds the facts whose rows match. -/
  lookup : ∀ p asOf, s.lookup p asOf = ofStorage (Table.Search.ofPattern p asOf >>= fun search =>
    Table.readBack (fs.filter fun f => search.isMatch f.row))
  /-- A copy reads every fact, and is the same table again. -/
  copy : s.copy = (ofStorage (Table.readBack fs)).map fun _ => s

namespace Table

variable {t : Table} {fs : List Fact} (holds : t.Holds fs)

include holds

theorem Holds.list_all : t.list .all = readBack fs := holds.list_readBack .all

theorem Holds.lookup_readBack (p : Pattern) (asOf : EntityId) :
    t.lookup p asOf = (Search.ofPattern p asOf >>= fun search =>
      readBack (fs.filter fun f => search.isMatch f.row)) := by
  rw [lookup]
  congr 1
  funext search
  rw [holds.rows, List.filter_map]
  apply readAll_row
  intro f member
  exact holds.writable f (List.mem_of_mem_filter member)

/-- What was read back is written again row by row. -/
theorem Holds.insertAll_empty : Table.empty.insertAll fs = .ok t := by
  rw [insertAll_eq_ok]
  exact ⟨holds.writable, holds.rows⟩

/-- Copied into another table, whatever that one held, it is the same table again. -/
theorem Holds.copyInto_eq {target : Store} (kind : target.backend = .table) :
    (table t).copyInto target =
      match readBack fs with
      | .ok _ => (.ok (), table t)
      | .error fault => (.error (.storage fault), target.emptied) := by
  have listed : (table t).list .all = ofStorage (readBack fs) :=
    congrArg ofStorage holds.list_all
  have again : target.emptied.insertAll fs = .ok (table t) := by
    rw [emptied, kind, Store.empty, Store.insertAll, holds.insertAll_empty]
    rfl
  -- the facts are read before any is written, so a fault leaves no part of a copy
  rw [copyInto, if_pos (show target.backend = (table t).backend from kind), listed]
  cases readBack_cases fs with
  | inl read => rw [read, ofStorage, Outcome.ok_bind, again]
  | inr unread => rw [unread]; rfl

theorem Holds.copy_eq : (table t).copy = (ofStorage (readBack fs)).map fun _ => table t := by
  rw [copy, holds.copyInto_eq rfl]
  cases readBack fs <;> rfl

theorem Holds.readsBack : (table t).ReadsBack fs where
  all := congrArg ofStorage holds.list_all
  list listing := congrArg ofStorage (holds.list_readBack listing)
  lookup p asOf := congrArg ofStorage (holds.lookup_readBack p asOf)
  copy := holds.copy_eq

end Table

/-- Whatever changes were made to an empty table, the ones that fit were accepted, and every read
gives back what was accepted, unless it comes upon a value that is no number. -/
theorem table_reads_back (ws : List Write) :
    ∃ outcomes s, (empty .table).writeAll ws = (outcomes, s) ∧
      List.Forall₂ Write.AcceptedIfFits ws outcomes ∧
      s.ReadsBack (Write.accepted ws outcomes) := by
  obtain ⟨outcomes, t, written, holds, fits⟩ := Table.holds_empty.writeAll ws
  exact ⟨outcomes, table t, written, fits, holds.readsBack⟩

/-- Not all that a table accepts can be read back: it accepts a value that is no number, and then
cannot list its facts. -/
theorem table_reads_back_not_always :
    ¬ ∀ ws, ((empty .table).writeAll ws).2.list .all =
      .ok (Write.accepted ws ((empty .table).writeAll ws).1) := by
  intro reads
  have shown := congrArg Except.isOk (reads [.insert ⟨5, 3, .float ⟨0x7ff8000000000000⟩, 4, 2⟩])
  exact absurd shown (by decide +kernel)

end Store

end Factbase
