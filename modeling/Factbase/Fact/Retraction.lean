import Factbase.Fact
import Std.Data.HashMap

/-!
# Factbase.Fact.Retraction

What retractions hide. A retraction hides every earlier fact on its entity and attribute, whatever
value it carries; it hides nothing of its own transaction or of a later one.
-/

namespace Factbase.Fact

/-- The latest retraction of each entity and attribute. -/
abbrev Latest := Std.HashMap (EntityId × EntityId) EntityId

def recordRetraction (latest : Latest) (f : Fact) : Latest :=
  let place := (f.entity, f.attr)
  latest.insert place (max (latest.getD place f.tx) f.tx)

/-- The latest transaction of the retractions among some facts, by entity and attribute. -/
def latestRetractions (retract : EntityId) (facts : List Fact) : Latest :=
  (facts.filter (·.op == retract)).foldl recordRetraction {}

/-- Whether a fact is no retraction and no later retraction hides it. -/
def stands (retract : EntityId) (latest : Latest) (f : Fact) : Bool :=
  f.op != retract &&
    match latest[(f.entity, f.attr)]? with
    | none => true
    | some t => decide (t ≤ f.tx)

/-- The facts that stand among some facts, in their order. -/
def standing (retract : EntityId) (facts : List Fact) : List Fact :=
  facts.filter (stands retract (latestRetractions retract facts))

end Factbase.Fact
