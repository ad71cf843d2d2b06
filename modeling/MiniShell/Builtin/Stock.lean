import MiniShell.Builtin.Files
import MiniShell.Builtin.Screen
import MiniShell.Builtin.System
import MiniShell.Registry

/-!
# The stock commands
-/

namespace MiniShell.Builtin

def commands : List Command :=
  [help, ls, cd, pwd, cat, grep, echo, whoami, date, neofetch, superuser, history, clear]

/-- The registry of the stock `commands`. -/
def registry : Registry :=
  .ofList commands

end MiniShell.Builtin
