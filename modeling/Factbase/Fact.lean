import Factbase.Value

/-!
# Factbase.Fact

Facts and patterns. A fact says a value about an entity under an attribute; it carries the
transaction that recorded it and the operation, assert or retract, that it was recorded with.
-/

namespace Factbase

/-- The attribute whose value is the name of an entity. -/
def nameAttribute : EntityId := 0

/-- A value that a transaction asserted, or retracted, about an entity under an attribute. -/
structure Fact where
  entity : EntityId
  attr : EntityId
  value : Value
  tx : EntityId
  op : EntityId
  deriving Inhabited

namespace Fact

def name? (f : Fact) : Option String :=
  if f.attr = nameAttribute then f.value.asText? else none

def render (f : Fact) : String :=
  "[" ++ toString f.entity ++ " " ++ toString f.attr ++ " " ++ f.value.render ++ "::<"
    ++ f.value.kindName ++ "> " ++ toString f.tx ++ " " ++ toString f.op ++ "]"

end Fact

/-- A fact with some places left open. -/
structure Pattern where
  entity : Option EntityId
  attr : Option EntityId
  value : Option Value
  tx : Option EntityId
  op : Option EntityId

namespace Pattern

def any : Pattern := ⟨none, none, none, none, none⟩

/-- Whether something fills a place: an open place takes anything. -/
def fits {α : Type} [BEq α] (place : Option α) (x : α) : Bool :=
  match place with
  | none => true
  | some y => y == x

def isMatch (p : Pattern) (f : Fact) : Bool :=
  fits p.entity f.entity && fits p.attr f.attr && fits p.value f.value
    && fits p.tx f.tx && fits p.op f.op

end Pattern

end Factbase
