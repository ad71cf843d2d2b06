import Std.Data.HashMap
import MiniShell.Command
import MiniShell.Text.Blank
import MiniShell.Text.Pad

/-!
# The command registry

Commands are listed in the order in which their names were first registered, and found by name.
A line is run by its first word, and whatever goes wrong becomes one line of output.
-/

namespace MiniShell

/-- The `commands` in the order of their first registration, and in `index` the place of each name.
-/
structure Registry where
  commands : Array Command := #[]
  index : Std.HashMap String Nat := {}

namespace Registry

def empty : Registry := {}

/-- Adds a command at the end, or in the place that `index` has for its name. -/
def register (registry : Registry) (command : Command) : Registry :=
  match registry.index[command.name]? with
  | some i => { registry with commands := registry.commands.setIfInBounds i command }
  | none =>
    { commands := registry.commands.push command
      index := registry.index.insert command.name registry.commands.size }

def ofList (commands : List Command) : Registry :=
  commands.foldl register empty

/-- The command of a name, at the place that `index` has for it. -/
def find? (registry : Registry) (name : String) : Option Command :=
  (registry.index[name]?).bind fun i => registry.commands[i]?

def summaries (registry : Registry) : List (String × String) :=
  registry.commands.toList.map fun command => (command.name, command.description)

/-- The line of a command in `help`. A usage of more than 16 characters is not cut. -/
def helpLine (command : Command) : Line :=
  ((Line.plain "  ").push (Text.padRight 16 command.usage) .accent).push
    (" - " ++ command.description) .plain

/-- The help text: a heading, and a `helpLine` for each command. -/
def help (registry : Registry) : Output :=
  .lines (.plain "Available commands:" :: registry.commands.toList.map helpLine)

/-- Runs a command by its name. The name `help` means `Registry.help`, whatever is registered under
it. -/
def runCommand (registry : Registry) (name : String) (arguments : List String)
    (env : Environment) : Outcome :=
  if name = "help" then { result := .ok registry.help, cwd := env.cwd }
  else
    match registry.find? name with
    | some command => command.run arguments env
    | none => { result := .error (.unknownCommand name), cwd := env.cwd }

/-- What is shown for the result of a command: an error is one line, with the error's `text`. -/
def report : Except ShellError Output → Output
  | .ok output => output
  | .error e => .lines [.error e.text]

/-- Runs the first of the line's `Text.words` as a command with the others as its arguments. Gives
what is shown and the working directory afterwards; a line without words does nothing. -/
def runLine (registry : Registry) (line : String) (env : Environment) : Output × String :=
  match Text.words line with
  | [] => (.nothing, env.cwd)
  | name :: arguments =>
    let outcome := registry.runCommand name arguments env
    (report outcome.result, outcome.cwd)

end Registry

end MiniShell
