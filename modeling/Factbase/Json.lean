import Factbase.Form

/-!
# Factbase.Json

JSON values, in which integers are kept apart from other numbers.
-/

namespace Factbase

/-- A JSON value. The entries of an object are in order. -/
inductive Json where
  | null
  | bool (b : Bool)
  | int (n : Int)
  | float (x : Binary64)
  | text (s : String)
  | list (items : List Json)
  | object (entries : List (String × Json))
  deriving Inhabited

namespace Json

/-- Puts a value under a key, in the place that the order of keys gives it; an earlier value of the
key is replaced. -/
def insertKey {α : Type} (key : String) (value : α) : List (String × α) → List (String × α)
  | [] => [(key, value)]
  | (k, v) :: rest =>
    if key = k then (key, value) :: rest
    else if key < k then (key, value) :: (k, v) :: rest
    else (k, v) :: insertKey key value rest

/-- The number as a form: an integer if it fits 64 bits. -/
def formOfInt (n : Int) : Form :=
  if Int64.minValue.toInt ≤ n ∧ n ≤ Int64.maxValue.toInt then .int (Int64.ofInt n)
  else .float (Binary64.ofInt n)

mutual

/-- A JSON value as a form. The keys of an object become texts. -/
def toForm : Json → Form
  | null => .nil
  | bool b => .bool b
  | int n => formOfInt n
  | float x => .float x
  | text s => .text s
  | list items => .list (itemsToForm items)
  | object entries => .map (entriesToForm entries)

def itemsToForm : List Json → List Form
  | [] => []
  | item :: rest => item.toForm :: itemsToForm rest

def entriesToForm : List (String × Json) → List (Form × Form)
  | [] => []
  | (key, value) :: rest => (.text key, value.toForm) :: entriesToForm rest

end

end Json

end Factbase
