import MiniShell.Line
import MiniShell.Machine

/-!
# Commands

A command is a function from its arguments and what it can see to what it shows. The only thing
it can change is the working directory.
-/

namespace MiniShell

/-- What a command can see: the `Machine`, and the working directory and history of the session. -/
structure Environment extends Machine where
  /-- The working directory. -/
  cwd : String
  /-- The commands submitted before, oldest first. -/
  history : List String

def Environment.resolve (env : Environment) (typed : String) : String :=
  Path.resolve env.cwd env.config.home typed

/-- What a command shows. Only `clear` wipes the transcript. -/
inductive Output where
  | lines (lines : List Line)
  | nothing
  /-- Wipes what was shown before. -/
  | clear
  deriving DecidableEq, Repr

namespace Output

def line (text : String) : Output :=
  .lines [.plain text]

/-- The lines shown, none for `nothing` and `clear`. -/
def toLines : Output → List Line
  | lines ls => ls
  | nothing | clear => []

end Output

/-- How a command ends: with `Output` or an error, and in a working directory either way. -/
structure Outcome where
  result : Except ShellError Output
  cwd : String

/-- Something a user can run, with what `help` says of it. -/
structure Command where
  name : String
  usage : String
  description : String
  run : List String → Environment → Outcome

namespace Command

/-- A command that stays in `env.cwd`. -/
def reporting (name usage description : String)
    (report : List String → Environment → Except ShellError Output) : Command :=
  { name
    usage
    description
    run := fun arguments env => { result := report arguments env, cwd := env.cwd } }

end Command

end MiniShell
