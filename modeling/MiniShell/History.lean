/-!
# Command history

The history keeps what was submitted, oldest first, and a cursor for recalling it. The cursor
stands at an entry while that entry is being recalled and past the last one otherwise.
-/

namespace MiniShell

/-- Submitted commands, oldest first. A walk through them stands at `cursor`, which is the number of
`entries` when there is no walk. -/
structure History where
  entries : List String := []
  cursor : Nat := 0
  deriving DecidableEq, Repr

namespace History

def isEmpty (history : History) : Bool :=
  history.entries.isEmpty

/-- Would `record` add the command? Nothing typed is not added, nor is the newest entry again. -/
def accepts (history : History) (command : String) : Bool :=
  command != "" && history.entries.getLast? != some command

/-- The history with any walk given up, the `cursor` past the last entry. -/
def endWalk (history : History) : History :=
  { history with cursor := history.entries.length }

/-- The history after a command was submitted, which ends a walk even where `accepts` refuses. -/
def record (history : History) (command : String) : History :=
  if history.accepts command then
    endWalk { history with entries := history.entries ++ [command] }
  else history.endWalk

/-- One step to older entries and the entry there. At the oldest one `stepBack` stays. -/
def stepBack (history : History) : History × Option String :=
  if history.isEmpty then (history, none)
  else
    let cursor := history.cursor - 1
    ({ history with cursor }, history.entries[cursor]?)

/-- One step to newer entries and the entry there. Past the newest one `stepForward` recalls the
empty text. -/
def stepForward (history : History) : History × Option String :=
  if history.isEmpty then (history, none)
  else
    let cursor := min (history.cursor + 1) history.entries.length
    ({ history with cursor }, some (history.entries[cursor]?.getD ""))

end History

end MiniShell
