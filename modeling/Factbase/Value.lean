import Factbase.Decimal.Style
import Factbase.Text.Quoted

/-!
# Factbase.Value

What a fact can say: text, integers, floating-point numbers, truth values, bytes, and references to
entities.

Equality of values is the equality of their keys. It identifies an integer with the reference of
the same number, so that an entity bound in one place joins with a plain number in another, and it
tells floating-point numbers apart by their bits.
-/

namespace Factbase

abbrev EntityId := Nat

/-- The highest number an entity can get. -/
def maxEntityId : EntityId := 0x7fffffffffffffff

inductive Value where
  | text (s : String)
  | int (n : Int64)
  | float (x : Binary64)
  | bool (b : Bool)
  | bytes (bs : List UInt8)
  | ref (entity : EntityId)
  deriving Inhabited

namespace Value

/-! ### Equality -/

/-- What equality of values looks at. -/
inductive Key where
  | text (s : String)
  | number (n : Int)
  | float (x : Binary64)
  | bool (b : Bool)
  | bytes (bs : List UInt8)
  deriving DecidableEq, Hashable

/-- The key of a value. References are keyed as integers. -/
def key : Value → Key
  | text s => .text s
  | int n => .number n.toInt
  | float x => .float x
  | bool b => .bool b
  | bytes bs => .bytes bs
  | ref e => .number e

instance : BEq Value where
  beq x y := x.key == y.key

instance : Hashable Value where
  hash x := hash x.key

theorem beq_iff_key_eq {x y : Value} : (x == y) = true ↔ x.key = y.key := by
  simp [BEq.beq]

instance : EquivBEq Value where
  rfl := beq_iff_key_eq.2 rfl
  symm h := beq_iff_key_eq.2 (beq_iff_key_eq.1 h).symm
  trans h₁ h₂ := beq_iff_key_eq.2 ((beq_iff_key_eq.1 h₁).trans (beq_iff_key_eq.1 h₂))

instance : LawfulHashable Value where
  hash_eq x y h := by
    show hash x.key = hash y.key
    rw [beq_iff_key_eq.1 h]

/-! ### Kinds -/

/-- The number a kind of value is known by in storage. -/
abbrev Tag := UInt8

namespace Tag

def text : Tag := 1
def int : Tag := 2
def float : Tag := 3
def bool : Tag := 4
def bytes : Tag := 5
def ref : Tag := 6

end Tag

def tag : Value → Tag
  | text _ => Tag.text
  | int _ => Tag.int
  | float _ => Tag.float
  | bool _ => Tag.bool
  | bytes _ => Tag.bytes
  | ref _ => Tag.ref

/-- The tags of the values that can equal this one. -/
def matchingTags : Value → List Tag
  | text _ => [Tag.text]
  | int _ | ref _ => [Tag.int, Tag.ref]
  | float _ => [Tag.float]
  | bool _ => [Tag.bool]
  | bytes _ => [Tag.bytes]

def kindName : Value → String
  | text _ => "text"
  | int _ => "integer"
  | float _ => "float"
  | bool _ => "boolean"
  | bytes _ => "bytes"
  | ref _ => "ref"

def asText? : Value → Option String
  | text s => some s
  | _ => none

/-- The entity an integer names; no entity has a negative number. -/
def entityOfInt? (n : Int64) : Option EntityId :=
  if n.toInt < 0 then none else some n.toInt.toNat

/-- The entity a value names, if it is a reference or an integer that can be one. -/
def asEntity? : Value → Option EntityId
  | ref e => some e
  | int n => entityOfInt? n
  | _ => none

/-! ### Order -/

/-- A numeric value as a double; truth values count as one and zero. -/
def approx? : Value → Option Binary64
  | int n => some (Binary64.ofInt n.toInt)
  | ref e => some (Binary64.ofInt e)
  | float x => some x
  | bool b => some (Binary64.ofInt (if b then 1 else 0))
  | text _ | bytes _ => none

/-- Numbers come first, then text, then bytes. -/
def rank : Value → Nat
  | text _ => 1
  | bytes _ => 2
  | _ => 0

/-- The order of values in a listing: numbers as doubles in their total order, texts by code point
and bytes one by one. -/
def order (x y : Value) : Ordering :=
  match x, y with
  | text s, text t => compare s t
  | bytes as, bytes bs => compare as bs
  | _, _ =>
    match x.approx?, y.approx? with
    | some a, some b => compare a.orderKey b.orderKey
    | _, _ => compare x.rank y.rank

/-! ### Text -/

/-- Bytes as hexadecimal digits behind a marker. -/
def renderBytes (bs : List UInt8) : String :=
  "#bytes " ++ String.ofList (bs.flatMap Text.hexByte)

def renderRef (e : EntityId) : String :=
  "#" ++ toString e

def render : Value → String
  | text s => s
  | int n => toString n.toInt
  | float x => NumberStyle.plain.render x
  | bool b => if b then "true" else "false"
  | bytes bs => renderBytes bs
  | ref e => renderRef e

end Value

end Factbase
