import Factbase.Settings.Address
import Factbase.Settings.File

/-!
# Factbase.Settings.Tree

Trees of settings. What a step leads into becomes a table or a list if it is none, so that whatever
is put into a tree last can be found there. The tree of a file is made in two stages: its texts are
put at their paths, and the outermost names are followed as addresses.
-/

namespace Factbase.Settings

/-- Settings by their names, or by their places. -/
inductive Tree where
  /-- A place that nothing has been put at. -/
  | nothing
  | text (s : String)
  | list (items : List Tree)
  | table (entries : List (String × Tree))
  deriving Inhabited

namespace Tree

/-- The entries of a table; anything else has none. -/
def entries : Tree → List (String × Tree)
  | table es => es
  | _ => []

/-- The items of a list; anything else has none. -/
def items : Tree → List Tree
  | list xs => xs
  | _ => []

/-- Puts a tree under a name, in the place of an earlier one. -/
def setKey (name : String) (t : Tree) : List (String × Tree) → List (String × Tree)
  | [] => [(name, t)]
  | (k, u) :: rest => if k = name then (name, t) :: rest else (k, u) :: setKey name t rest

/-- Some items, made long enough to have a place, and the index of the place among them. A list
grows at its end for a place counted from the start, and at its start for one counted from the
end. -/
def makePlace (n : Int) (xs : List Tree) : List Tree × Nat :=
  if 0 ≤ n then (xs ++ List.replicate (n.toNat + 1 - xs.length) nothing, n.toNat)
  else
    let fromEnd := (-n).toNat
    (List.replicate (fromEnd - xs.length) nothing ++ xs, xs.length - fromEnd)

/-- Changes what is at the end of some steps. -/
def update (f : Tree → Tree) : List Step → Tree → Tree
  | [], t => f t
  | .key name :: rest, t =>
    table (setKey name (update f rest ((t.entries.lookup name).getD nothing)) t.entries)
  | .place n :: rest, t =>
    let (xs, i) := makePlace n t.items
    list (xs.set i (update f rest (xs.getD i nothing)))

mutual

/-- A tree put over another. Tables are joined, and anything else takes the place of what is
there. -/
def overlay : Tree → Tree → Tree
  | table es, t => table (overlayEntries es t.entries)
  | t, _ => t

def overlayEntries : List (String × Tree) → List (String × Tree) → List (String × Tree)
  | [], others => others
  | (name, t) :: rest, others =>
    overlayEntries rest (setKey name (overlay t ((others.lookup name).getD nothing)) others)

end

/-! ### Files -/

/-- The tree of a file by the names as they are written. -/
def ofNames (file : File) : Tree :=
  let tables := file.headers.foldl
    (fun t path => t.update (fun u => table u.entries) (path.map Step.key)) (table [])
  file.entries.foldl (fun t (path, s) => t.update (fun _ => text s) (path.map Step.key)) tables

/-- The tree of some settings, with their outermost names followed as addresses. -/
def ofAddresses (es : List (String × Tree)) : Tree :=
  es.foldl (fun t (name, u) => t.update (overlay u) (Step.ofName name)) (table [])

def ofFile (file : File) : Tree :=
  ofAddresses (ofNames file).entries

end Tree

end Factbase.Settings
