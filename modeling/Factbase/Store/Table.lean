import Factbase.Fact.Listing
import Factbase.Value.Cell

/-!
# Factbase.Store.Table

A table with one row for each fact, in insertion order. Its columns hold integers up to
`maxCellInt` and values as cells, so writing can fail, and a search for what no column can hold
fails too. Values are searched for and sorted as cells.
-/

namespace Factbase.Store

structure Row where
  entity : EntityId
  attr : EntityId
  cell : Cell
  tag : Value.Tag
  tx : EntityId
  op : EntityId

namespace Row

def entityToWrite (e : EntityId) : Except StorageFault EntityId :=
  if e ≤ maxCellInt then .ok e else .error .tooLarge

def ofFact (f : Fact) : Except StorageFault Row := do
  let entity ← entityToWrite f.entity
  let attr ← entityToWrite f.attr
  let cell ← Cell.toWrite f.value
  let tx ← entityToWrite f.tx
  let op ← entityToWrite f.op
  return ⟨entity, attr, cell.kept, f.value.tag, tx, op⟩

/-- The fact of a row, if its cell holds a value of its tag. -/
def toFact (r : Row) : Except StorageFault Fact := do
  let value ← r.cell.toValue r.tag
  return ⟨r.entity, r.attr, value, r.tx, r.op⟩

def name? (r : Row) : Option String :=
  if r.attr = nameAttribute ∧ r.tag = Value.Tag.text then
    match r.cell with
    | .text s => some s
    | _ => none
  else none

def order (column : Column) (x y : Row) : Ordering :=
  match column with
  | .entity => compare x.entity y.entity
  | .attr => compare x.attr y.attr
  | .value => x.cell.order y.cell
  | .tx => compare x.tx y.tx
  | .op => compare x.op y.op

end Row

/-- Rows in insertion order. -/
structure Table where
  rows : List Row

namespace Table

def empty : Table := ⟨[]⟩

/-! ### Writing -/

/-- Writes all facts, or none if one of them cannot be written. -/
def insertAll (t : Table) (fs : List Fact) : Except StorageFault Table := do
  let rows ← fs.mapM Row.ofFact
  return ⟨t.rows ++ rows⟩

/-! ### Searching -/

/-- What to look for: a pattern in the terms of the table. -/
structure Search where
  asOf : EntityId
  entity : Option EntityId
  attr : Option EntityId
  tx : Option EntityId
  op : Option EntityId
  value : Option (Cell × List Value.Tag)

namespace Search

/-- The value to look for, as a cell and the tags it may have. -/
def valueToFind (v : Value) : Except StorageFault (Cell × List Value.Tag) := do
  return (← Cell.toFind v, v.matchingTags)

/-- Places are put into terms of the table one after another; the first that does not fit is the
fault. -/
def ofPattern (p : Pattern) (asOf : EntityId) : Except StorageFault Search := do
  let asOf ← Cell.entityToFind asOf
  let entity ← p.entity.mapM Cell.entityToFind
  let attr ← p.attr.mapM Cell.entityToFind
  let tx ← p.tx.mapM Cell.entityToFind
  let op ← p.op.mapM Cell.entityToFind
  let value ← p.value.mapM valueToFind
  return ⟨asOf, entity, attr, tx, op, value⟩

def isMatch (q : Search) (r : Row) : Bool :=
  decide (r.tx ≤ q.asOf) && Pattern.fits q.entity r.entity && Pattern.fits q.attr r.attr
    && Pattern.fits q.tx r.tx && Pattern.fits q.op r.op &&
    match q.value with
    | none => true
    | some (sought, tags) => r.cell.answers sought && tags.contains r.tag

end Search

/-! ### Reading -/

/-- The facts of some rows. A row that holds no value is the fault. -/
def readAll (rows : List Row) : Except StorageFault (List Fact) :=
  rows.mapM Row.toFact

def lookup (t : Table) (p : Pattern) (asOf : EntityId) : Except StorageFault (List Fact) := do
  let search ← Search.ofPattern p asOf
  readAll (t.rows.filter search.isMatch)

def greatest (column : Row → EntityId) (t : Table) : Option EntityId :=
  (t.rows.map column).max?

def lastEntity (t : Table) : Option EntityId := t.greatest Row.entity

def lastTx (t : Table) : Option EntityId := t.greatest Row.tx

def nameOf (t : Table) (e : EntityId) : Option String :=
  t.rows.findSome? fun r => if r.entity = e then r.name? else none

def entityOf (t : Table) (name : String) : Option EntityId :=
  (t.rows.find? fun r => r.name? == some name).map Row.entity

def count (t : Table) (e : EntityId) : Nat :=
  t.rows.countP (·.entity == e)

def size (t : Table) : Nat := t.rows.length

def identities (t : Table) : List (EntityId × String) :=
  t.rows.filterMap fun r => r.name?.map (r.entity, ·)

/-- A page of the facts, sorted as rows. An offset or a limit that no integer of a cell can tell
counts as the largest one. -/
def list (t : Table) (listing : Listing) : Except StorageFault (List Fact) :=
  readAll ((listing.atMost maxCellInt).arrange Row.order t.rows)

end Table

end Factbase.Store
