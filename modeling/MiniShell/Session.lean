import MiniShell.Builtin.Stock
import MiniShell.History
import MiniShell.Input
import MiniShell.Prompt

/-!
# Sessions

A session runs on a machine that never changes. What changes is the working directory, the
transcript, the history and the line being typed, and all of it through `submit` and `handle`.
-/

namespace MiniShell

/-- A command as it was entered, and the `Prompt` it was entered at. -/
structure Echo where
  prompt : Prompt
  command : String
  deriving DecidableEq, Repr

/-- An entry of the transcript. Only the banner comes without an `Echo`. -/
structure Block where
  echo : Option Echo
  lines : List Line
  deriving DecidableEq, Repr

/-- The state of a session: the working directory, the transcript, the `History` and the line being
typed. -/
structure Session where
  cwd : String
  transcript : List Block
  history : History := {}
  /-- The line being typed. -/
  input : String := ""
  deriving DecidableEq, Repr

namespace Session

/-- A fresh session in `config.home`, with the banner shown. -/
def start (config : Config) : Session :=
  { cwd := config.home, transcript := [{ echo := none, lines := [.plain config.banner] }] }

def prompt (session : Session) (config : Config) : Prompt :=
  .make config session.cwd

def environment (session : Session) (machine : Machine) : Environment :=
  { toMachine := machine, cwd := session.cwd, history := session.history.entries }

/-- The transcript after a command: wiped by `Output.clear`, else longer by a block. -/
def transcriptAfter (session : Session) (config : Config) (line : String) : Output → List Block
  | .clear => []
  | output =>
    session.transcript ++
      [{ echo := some { prompt := session.prompt config, command := line }
         lines := output.toLines }]

/-- Runs `line` in the built-in `Registry`, and records it without the blanks around it. Gives the
lines it showed. -/
def submit (machine : Machine) (session : Session) (line : String) : Session × List Line :=
  let (output, cwd) := Builtin.registry.runLine line (session.environment machine)
  ({ session with
      cwd
      transcript := session.transcriptAfter machine.config line output
      history := session.history.record (Text.trim line) },
    output.toLines)

/-- Puts the entry that `History.stepBack` or `History.stepForward` recalled into the input line. -/
def withRecalled (session : Session) : History × Option String → Session
  | (history, entry) => { session with history, input := entry.getD session.input }

/-- The session with any walk through its `History` given up. -/
def endWalk (session : Session) : Session :=
  { session with history := session.history.endWalk }

/-- What an event does to the input line: a key changes it, Up and Down put a recalled entry into
it, and Cancel and Confirm empty it. -/
def retype (session : Session) : InputEvent → Session
  | .type c => { session with input := session.input.push c }
  | .backspace => { session with input := String.ofList session.input.toList.dropLast }
  | .press .up => session.withRecalled session.history.stepBack
  | .press .down => session.withRecalled session.history.stepForward
  | .press .cancel | .press .confirm => { session with input := "" }

/-- Takes in an event. Confirm submits what stood in the input line and gives the lines shown; of
the other events, those that are an `InputEvent.isEdit` end a walk. -/
def handle (machine : Machine) (session : Session) (event : InputEvent) :
    Session × Option (List Line) :=
  let after := session.retype event
  match event with
  | .press .confirm =>
    -- the line runs in a session whose input line is empty already
    let (last, lines) := submit machine after session.input
    (last, some lines)
  | _ => (if event.isEdit then after.endWalk else after, none)

end Session

end MiniShell
