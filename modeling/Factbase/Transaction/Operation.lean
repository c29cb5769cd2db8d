import Factbase.Form

/-!
# Factbase.Transaction.Operation

The operations of a request, as they are written. A request is a map with a section of attribute
declarations and a section of operations on data.
-/

namespace Factbase.Transaction

inductive Operation where
  | declaration (form : Form)
  | tuple (items : List Form)
  | entries (entries : List (Form × Form))

/-- The declarations in a section of a request: the items of a list, or a map by itself. -/
def declarations : Form → List Operation
  | .list items => items.map .declaration
  | .map entries => [.declaration (.map entries)]
  | _ => []

def dataOperation? : Form → Option Operation
  | .list items => some (.tuple items)
  | .map es => some (.entries es)
  | _ => none

/-- The operations on data in a section of a request. A list of lists and maps holds several; any
other list is a tuple by itself. -/
def dataOperations (part : Form) : List Operation :=
  match part with
  | .list items =>
    match items.mapM dataOperation? with
    | some operations => operations
    | none => [.tuple items]
  | .map es => [.entries es]
  | _ => []

/-- The operations of a request: first the declarations, then those on data. -/
def operations (request : Form) : List Operation :=
  (((request.get? ":tx-attribute").map declarations).getD [])
    ++ (((request.get? ":tx-data").map dataOperations).getD [])

end Factbase.Transaction
