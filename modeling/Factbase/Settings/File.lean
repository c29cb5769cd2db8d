import Factbase.Settings.Line

/-!
# Factbase.Settings.File

Files of settings: texts under paths. A table is opened by a line of its own, by the line of a table
inside it, or by the key of an entry. No path stands for two things, and how a table was opened
decides how it can be added to.
-/

namespace Factbase.Settings

inductive Fault where
  | illFormed (line : Nat)
  | duplicate (line : Nat)
  | misshapen (setting : String)
  | unknownBackend (name : String)
  deriving DecidableEq

/-- What opened a table. -/
inductive Opening where
  /-- A line of its own. -/
  | header
  /-- The line of a table inside it. -/
  | inner
  /-- The key of an entry. -/
  | key
  deriving DecidableEq

/-- What the lines of a file have said so far. -/
structure File where
  current : Path
  /-- Every table with what opened it; the latest opening of a table comes first. -/
  tables : List (Path × Opening)
  entries : List (Path × String)

namespace File

def empty : File := ⟨[], [], []⟩

/-! ### Reading -/

def isText (file : File) (path : Path) : Bool := file.entries.any (·.1 == path)

def opening? (file : File) (path : Path) : Option Opening := file.tables.lookup path

/-- The tables with a line of their own. -/
def headers (file : File) : List Path :=
  file.tables.filterMap fun (path, opening) => if opening = .header then some path else none

/-! ### Adding lines -/

/-- Opens the table at a path if it is new. Nothing can be opened where a text is, and no key leads
into a table with a line of its own. A key opens a table again that only a line of a table inside it
has opened. -/
def enter (file : File) (opening : Opening) (path : Path) : Option File :=
  if file.isText path then none
  else
    match file.opening? path, opening with
    | none, _ | some .inner, .key => some { file with tables := (path, opening) :: file.tables }
    | some .header, .key => none
    | some _, _ => some file

/-- Opens the tables that some names lead through behind a path. -/
def enterAll (file : File) (opening : Opening) (path names : Path) : Option File :=
  (List.range names.length).foldlM (fun file n => file.enter opening (path ++ names.take (n + 1)))
    file

/-- Starts a table with a line of its own. Only a table inside it can have opened it before. -/
def addTable (file : File) (path : Path) : Option File := do
  let file ← file.enterAll .inner [] path.dropLast
  let file ← file.enter .inner path
  if file.opening? path = some .inner then
    some { file with current := path, tables := (path, .header) :: file.tables }
  else none

/-- Adds an entry to the current table, or to the one that the other names of its key lead to. -/
def addEntry (file : File) (key : Path) (value : String) : Option File := do
  let file ← file.enterAll .key file.current key.dropLast
  let path := file.current ++ key
  if file.isText path || (file.opening? path).isSome then none
  else some { file with entries := file.entries ++ [(path, value)] }

/-- Takes what one more line says into account, unless it stands in the way of what is there. -/
def extend (file : File) : Line → Option File
  | .nothing => some file
  | .table path => file.addTable path
  | .entry key value => file.addEntry key value

def add (file : File) (number : Nat) (cs : List Char) : Except Fault File :=
  match line? cs with
  | none => .error (.illFormed number)
  | some line =>
    match file.extend line with
    | some file => .ok file
    | none => .error (.duplicate number)

/-- A text without a byte order mark at its start. -/
def dropMark : List Char → List Char
  | '\ufeff' :: rest => rest
  | cs => cs

/-- Reads a file line by line. Its text can start with two byte order marks: one of the file and
one of the text. -/
def ofText (text : String) : Except Fault File :=
  (lines (dropMark (dropMark text.toList))).zipIdx.foldlM
    (fun file (cs, i) => file.add (i + 1) cs) empty

end File

end Factbase.Settings
