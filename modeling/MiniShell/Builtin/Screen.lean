import MiniShell.Command
import MiniShell.Text.Pad

/-!
# Commands about the session and its screen
-/

namespace MiniShell.Builtin

/-- Stands in the help text. `Registry.runCommand` answers the name before this would be run. -/
def help : Command :=
  .reporting "help" "help" "Shows this help message." fun _ _ => pure .nothing

def echo : Command :=
  .reporting "echo" "echo [text]" "Prints text." fun arguments _ =>
    pure (.line (" ".intercalate arguments))

def historyLine (number : Nat) (entry : String) : Line :=
  .plain ("  " ++ Text.alignRight 4 number ++ "  " ++ entry)

def historyLines (number : Nat) : List String → List Line
  | [] => []
  | entry :: entries => historyLine number entry :: historyLines (number + 1) entries

/-- Shows the commands submitted before, each on a `historyLine` with its number counted from 1. -/
def history : Command :=
  .reporting "history" "history" "Shows command history." fun _ env =>
    match env.history with
    | [] => pure (.line "(no history)")
    | entries => pure (.lines (historyLines 1 entries))

/-- Wipes the screen, by `Output.clear`. -/
def clear : Command :=
  .reporting "clear" "clear" "Clears the terminal screen." fun _ _ => pure .clear

end MiniShell.Builtin
