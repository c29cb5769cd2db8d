import Factbase.Fault
import Factbase.Fact

/-!
# Factbase.Fact.Listing

Orders and pages of facts. Sorting keeps facts that compare equal in their given order, whichever
the direction.
-/

namespace Factbase

inductive Column where
  | entity
  | attr
  | value
  | tx
  | op
  deriving DecidableEq

namespace Column

def letter : Column → String
  | entity => "e"
  | attr => "a"
  | value => "v"
  | tx => "t"
  | op => "o"

def ofLetter? (s : String) : Option Column :=
  [entity, attr, value, tx, op].find? (·.letter == s)

/-- The column of a letter of either case. -/
def ofName (s : String) : Except Fault Column :=
  let lower := s.toLower
  match ofLetter? lower with
  | some c => .ok c
  | none => .error (.unknownColumn lower)

end Column

/-- Which end of an order comes first. -/
inductive Direction where
  | ascending
  | descending
  deriving DecidableEq

namespace Direction

def word : Direction → String
  | ascending => "asc"
  | descending => "desc"

def ofWord? (s : String) : Option Direction :=
  [ascending, descending].find? (·.word == s)

/-- The direction of a word in letters of either case. -/
def ofName (s : String) : Except Fault Direction :=
  let lower := s.toLower
  match ofWord? lower with
  | some d => .ok d
  | none => .error (.unknownDirection lower)

end Direction

/-- What part of a list to show and in which order. Without a column the order stays as it is. -/
structure Listing where
  sort : Option Column
  direction : Option Direction
  offset : Option Nat
  limit : Option Nat

namespace Listing

def all : Listing := ⟨none, none, none, none⟩

/-- The same listing with no offset and no limit above a bound. -/
def atMost (bound : Nat) (listing : Listing) : Listing :=
  { listing with
    offset := listing.offset.map (min bound)
    limit := listing.limit.map (min bound) }

/-- Whether the first of two things may come before the second. -/
def before {α : Type} (direction : Direction) (order : α → α → Ordering) (x y : α) : Bool :=
  match direction with
  | .ascending => order x y != .gt
  | .descending => order y x != .gt

/-- The part of a list that an offset and a limit leave. -/
def page {α : Type} (listing : Listing) (xs : List α) : List α :=
  let rest := xs.drop (listing.offset.getD 0)
  match listing.limit with
  | none => rest
  | some n => rest.take n

/-- The page of a list after sorting it by one of its columns. -/
def arrange {α : Type} (listing : Listing) (order : Column → α → α → Ordering) (xs : List α) :
    List α :=
  match listing.sort with
  | none => listing.page xs
  | some column =>
    listing.page (xs.mergeSort (before (listing.direction.getD .ascending) (order column)))

end Listing

def Fact.order (column : Column) (x y : Fact) : Ordering :=
  match column with
  | .entity => compare x.entity y.entity
  | .attr => compare x.attr y.attr
  | .value => x.value.order y.value
  | .tx => compare x.tx y.tx
  | .op => compare x.op y.op

end Factbase
