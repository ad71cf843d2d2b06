import MiniShell.Config.Basic
import MiniShell.Seed.Stock

/-!
# The tree of a configuration

A session's tree is the stock tree with the configured home and the configured files added in
order.
-/

namespace MiniShell

/-- The edits that add a file: its directory, unless that is the root, and the file itself.
`Path.cut?` says which directory that is. -/
def SeedFile.edits (file : SeedFile) : List Edit :=
  match Path.cut? file.path with
  | none => [.write file.path file.content]
  | some (before, _) =>
    if before = "" then [.write file.path file.content]
    else [.makeDirectory before, .write file.path file.content]

/-- The edits that make the tree of a configuration: those of `Stock.edits`, then its home, then its
files in order. -/
def Config.edits (config : Config) : List Edit :=
  Stock.edits ++ .makeDirectory config.home :: config.files.flatMap SeedFile.edits

/-- The tree that `Config.edits` make of an empty one, if all of them can be made in full. -/
def Config.seededTree (config : Config) : Except TreeError Tree :=
  Tree.empty.editAll config.edits

end MiniShell
