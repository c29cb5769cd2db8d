import Factbase.Value

/-!
# Factbase.Query.Bindings

Rows of bindings, and their join on shared variables.
-/

namespace Factbase.Query

/-- The values of variables, each variable once. -/
abbrev Bindings := List (String × Value)

namespace Bindings

/-- Binds a variable, unless it is bound to a different value. -/
def bind (row : Bindings) (entry : String × Value) : Option Bindings :=
  match row.lookup entry.1 with
  | some value => if value == entry.2 then some row else none
  | none => some (row ++ [entry])

/-- Both rows together, if they agree. -/
def merge (left right : Bindings) : Option Bindings :=
  right.foldlM bind left

/-- Every row of the first list with every row of the second that agrees with it. -/
def join (left right : List Bindings) : List Bindings :=
  left.flatMap fun l => right.filterMap (merge l)

end Bindings

end Factbase.Query
