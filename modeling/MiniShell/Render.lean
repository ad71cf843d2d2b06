import MiniShell.Line
import MiniShell.Prompt

/-!
# Rendering

A console that shows colours gets each style between an opening sequence and a reset; any other
console gets the bare text.
-/

namespace MiniShell.Render

def reset : String := "\x1b[0m"

/-- Starts the colour of a style, which `reset` ends. Plain text has none. -/
def opening? : Style → Option String
  | .plain => none
  | .hit => some "\x1b[1;32m"
  | .directory => some "\x1b[1;34m"
  | .accent => some "\x1b[36m"
  | .error => some "\x1b[31m"

/-- Clears the screen and puts the cursor in its corner. -/
def clearScreen : String := "\x1b[2J\x1b[H"

/-- A span in the colour of its style, from `opening?` to `reset`. -/
def span (s : Span) : String :=
  match opening? s.style with
  | some opening => opening ++ s.text ++ reset
  | none => s.text

/-- A line in colours, or its `Line.text` alone. -/
def line (color : Bool) (l : Line) : String :=
  if color then String.join (l.spans.map span) else l.text

def lines (color : Bool) (ls : List Line) : String :=
  String.join (ls.map fun l => line color l ++ "\n")

/-- The prompt and a space to type after, in colours or as `Prompt.text`. -/
def prompt (color : Bool) (p : Prompt) : String :=
  if color then
    "\x1b[1;36m" ++ p.user ++ "@" ++ p.host ++ reset ++ ":\x1b[32m" ++ p.path ++ reset ++ "$ "
  else p.text ++ " "

end MiniShell.Render
