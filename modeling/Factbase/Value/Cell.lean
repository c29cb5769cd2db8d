import Factbase.Value

/-!
# Factbase.Value.Cell

Cells of a table. A value is kept as an untyped cell and its tag; `Cell.ofValue?` writes it and
`Cell.toValue` reads it back. Cells have an order of their own, in which numbers are compared
exactly.
-/

namespace Factbase

/-- The largest integer a cell holds. -/
def maxCellInt : Nat := 0x7fffffffffffffff

/-- What a table keeps of a value. -/
inductive Cell where
  | null
  | int (n : Int64)
  | real (x : Binary64)
  | text (s : String)
  | blob (bs : List UInt8)
  deriving DecidableEq, Inhabited

/-- What can go wrong between values and a table. -/
inductive StorageFault where
  | tooLarge
  /-- A number to look for does not fit a cell. -/
  | outOfRange (entity : EntityId)
  /-- A cell holds nothing that its tag allows. -/
  | mismatch (cell : Cell) (tag : Value.Tag)
  | negativeReference (n : Int64)

namespace Cell

/-! ### Values as cells -/

/-- An entity's number as the integer of a cell. -/
def intOfEntity? (e : EntityId) : Option Int64 :=
  if e ≤ maxCellInt then some (Int64.ofNat e) else none

/-- The cell of a value. Only a reference can be too large for it. -/
def ofValue? : Value → Option Cell
  | .text s => some (.text s)
  | .int n => some (.int n)
  | .float x => some (.real x)
  | .bool b => some (.int (if b then 1 else 0))
  | .bytes bs => some (.blob bs)
  | .ref e => (intOfEntity? e).map .int

def toWrite (v : Value) : Except StorageFault Cell :=
  match ofValue? v with
  | some cell => .ok cell
  | none => .error .tooLarge

def entityToFind (e : EntityId) : Except StorageFault EntityId :=
  if e ≤ maxCellInt then .ok e else .error (.outOfRange e)

def toFind : Value → Except StorageFault Cell
  | .text s => .ok (.text s)
  | .int n => .ok (.int n)
  | .float x => .ok (.real x)
  | .bool b => .ok (.int (if b then 1 else 0))
  | .bytes bs => .ok (.blob bs)
  | .ref e => (entityToFind e).map fun e => .int (Int64.ofNat e)

/-- What a table keeps of a cell: a real that is no number is kept as nothing. -/
def kept : Cell → Cell
  | .real x => if x.isNaN then .null else .real x
  | cell => cell

def toValue (cell : Cell) (tag : Value.Tag) : Except StorageFault Value :=
  if tag = Value.Tag.text then
    match cell with
    | .text s => .ok (.text s)
    | _ => .error (.mismatch cell tag)
  else if tag = Value.Tag.int then
    match cell with
    | .int n => .ok (.int n)
    | _ => .error (.mismatch cell tag)
  else if tag = Value.Tag.float then
    match cell with
    | .real x => .ok (.float x)
    | .int n => .ok (.float (Binary64.ofInt n.toInt))
    | _ => .error (.mismatch cell tag)
  else if tag = Value.Tag.bool then
    match cell with
    | .int n => .ok (.bool (n != 0))
    | _ => .error (.mismatch cell tag)
  else if tag = Value.Tag.bytes then
    match cell with
    | .blob bs => .ok (.bytes bs)
    | _ => .error (.mismatch cell tag)
  else if tag = Value.Tag.ref then
    match cell with
    | .int n =>
      match Value.entityOfInt? n with
      | some e => .ok (.ref e)
      | none => .error (.negativeReference n)
    | _ => .error (.mismatch cell tag)
  else .error (.mismatch cell tag)

/-! ### Order -/

/-- A numeric cell in units of the least positive double, which makes comparison exact. -/
def units? : Cell → Option Int
  | .int n => some (n.toInt * Binary64.unitsPerOne)
  | .real x => some x.signedUnits
  | _ => none

/-- Nothing comes first, then numbers, text and bytes. -/
def rank : Cell → Nat
  | .null => 0
  | .int _ | .real _ => 1
  | .text _ => 2
  | .blob _ => 3

def order (x y : Cell) : Ordering :=
  match x, y with
  | .text s, .text t => compare s t
  | .blob as, .blob bs => compare as bs
  | _, _ =>
    match x.units?, y.units? with
    | some m, some n => compare m n
    | _, _ => compare x.rank y.rank

/-- Whether a kept cell answers a search for another. Nothing answers a search for what is no
number, and an empty cell answers no search. -/
def answers (cell sought : Cell) : Bool :=
  match cell.kept, sought.kept with
  | .null, _ | _, .null => false
  | x, y => x.order y == .eq

/-! ### Text -/

def render : Cell → String
  | .null => "Null"
  | .int n => "Integer(" ++ toString n.toInt ++ ")"
  | .real x => "Real(" ++ NumberStyle.marked.render x ++ ")"
  | .text s => "Text(" ++ Text.quote s ++ ")"
  | .blob bs => "Blob([" ++ ", ".intercalate (bs.map fun b => toString b.toNat) ++ "])"

end Cell

def StorageFault.message : StorageFault → String
  | .tooLarge => "number too large to fit in target type"
  | .outOfRange e => "entity id " ++ toString e ++ " exceeds the storable range"
  | .mismatch cell tag =>
    "stored value " ++ cell.render ++ " does not match value tag " ++ toString tag.toNat
  | .negativeReference n => "negative entity reference " ++ toString n.toInt

end Factbase
