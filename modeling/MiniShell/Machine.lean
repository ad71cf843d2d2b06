import MiniShell.Error
import MiniShell.Seed.Tree
import MiniShell.Timestamp

/-!
# Machines

A machine is what a session runs on and never changes.
-/

namespace MiniShell

/-- What every command of a session shares: a `Config`, a `Tree`, and a clock that tells the time or
fails. -/
structure Machine where
  config : Config
  tree : Tree
  clock : Except ShellError Timestamp

/-- The machine of `config` on its `Config.seededTree`, with the failure of seeding as a
`ShellError`. -/
def Machine.ofConfig (config : Config) (clock : Except ShellError Timestamp) :
    Except ShellError Machine :=
  match config.seededTree with
  | .ok tree => .ok { config, tree, clock }
  | .error cause => .error (.ofTree cause)

end MiniShell
