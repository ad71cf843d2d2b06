import MiniShell.Tree.Edit
import MiniShell.Toml.Error

/-!
# Errors of a shell

The first four kinds are diagnostics: what a command line did wrong. The others come from
building a session, or from a clock that fails.
-/

namespace MiniShell

/-- What can go wrong in a shell. -/
inductive ShellError where
  | unknownCommand (name : String)
  | pathNotFound (command path : String)
  | wrongNodeKind (command path : String) (expected : NodeKind)
  | usage (text : String)
  | filesystem (text : String)
  | configuration (text : String)
  | io (text : String)
  | toml (cause : Toml.Error)
  deriving DecidableEq, Repr

namespace ShellError

/-- What a command says of a path that leads nowhere, or to a node of the wrong kind. The words of
`ls` are its own. -/
def unreachableText (command path : String) : String :=
  if command = "ls" then s!"ls: cannot access '{path}': No such file or directory"
  else s!"{command}: {path}: No such file or directory"

/-- The line that reports the error. -/
def text : ShellError → String
  | unknownCommand name => s!"{name}: command not found"
  | pathNotFound command path => unreachableText command path
  | wrongNodeKind command path _ => unreachableText command path
  | usage text => text
  | filesystem text => s!"VFS error: {text}"
  | configuration text => s!"config error: {text}"
  | io text => s!"I/O error: {text}"
  | toml cause => s!"TOML parse error: {cause.message}"

/-- Is the error the fault of a command line, rather than of the tree, the configuration or the
host? -/
def isDiagnostic : ShellError → Bool
  | unknownCommand _ | pathNotFound _ _ | wrongNodeKind _ _ _ | usage _ => true
  | filesystem _ | configuration _ | io _ | toml _ => false

def ofTree (cause : TreeError) : ShellError :=
  .filesystem cause.message

end ShellError

end MiniShell
