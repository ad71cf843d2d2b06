import MiniShell.Config.Basic

/-!
# Prompts
-/

namespace MiniShell

/-- What a prompt shows: who is where. -/
structure Prompt where
  user : String
  host : String
  /-- The working directory, shortened. -/
  path : String
  deriving DecidableEq, Repr

namespace Prompt

/-- The prompt in `cwd`, which is shown as `Path.abbreviate` has it. -/
def make (config : Config) (cwd : String) : Prompt :=
  { user := config.user, host := config.host, path := Path.abbreviate cwd config.home }

def text (prompt : Prompt) : String :=
  prompt.user ++ "@" ++ prompt.host ++ ":" ++ prompt.path ++ "$"

end Prompt

end MiniShell
