import MiniShell.Toml.Value

/-!
# Filling tables

Headers open tables and dotted keys assign values below them. What a table may still take is
decided by its origin: a header finds its way through every table that is not closed, a dotted
key only through tables that have no header.
-/

namespace MiniShell.Toml

/-- A key: the names on the way to a value, and its own name in the last table. -/
structure Key where
  path : List String
  name : String
  deriving DecidableEq, Repr

namespace Table

def bind? (name : String) (value : Value) (table : Table) : Option Table :=
  match table.find? name with
  | some _ => none
  | none => some (table.insert name value)

/-- Assigns a value to a dotted key. Tables that are missing on the way are made with
`Origin.dotted`; those that are there must not have a header, and the last of them must come from a
dotted key too. -/
def assign (name : String) (value : Value) : List String → Table → Option Table
  | [], table => table.bind? name value
  | step :: path, table =>
    match table.find? step with
    | none => (assign name value path []).map fun below =>
        table.insert step (.table .dotted below)
    | some (.table .dotted below) => (assign name value path below).map fun below =>
        table.insert step (.table .dotted below)
    | some (.table .implied below) =>
      if path = [] then none
      else (assign name value path below).map fun below =>
        table.insert step (.table .implied below)
    | some (.tables older last) =>
      if path = [] then none
      else (assign name value path last).map fun last => table.insert step (.tables older last)
    | some _ => none

/-- Changes the table that the names of a header lead to. Tables that are missing on the way are
made, and an array of tables leads to its last element. -/
def modifyAt (change : Table → Option Table) : List String → Table → Option Table
  | [], table => change table
  | step :: path, table =>
    match table.find? step with
    | none => (modifyAt change path []).map fun below =>
        table.insert step (.table .implied below)
    | some (.table .inline _) => none
    | some (.table origin below) => (modifyAt change path below).map fun below =>
        table.insert step (.table origin below)
    | some (.tables older last) => (modifyAt change path last).map fun last =>
        table.insert step (.tables older last)
    | some _ => none

/-- Opens the table of a header: a new one, or one that is `Origin.implied` by headers below it. -/
def openTable (name : String) (table : Table) : Option Table :=
  match table.find? name with
  | none => some (table.insert name (.table .header []))
  | some (.table .implied below) => some (table.insert name (.table .header below))
  | some _ => none

def openElement (name : String) (table : Table) : Option Table :=
  match table.find? name with
  | none => some (table.insert name (.tables [] []))
  | some (.tables older last) => some (table.insert name (.tables (older ++ [last]) []))
  | some _ => none

/-- The table with the given keys given to `assign` in order. -/
def ofAssignments (assignments : List (Key × Value)) : Option Table :=
  assignments.foldlM (fun table (key, value) => table.assign key.name value key.path) []

end Table

end MiniShell.Toml
