import MiniShell.Config.Load
import MiniShell.Render
import MiniShell.Session

/-!
# The console

The console greets, then prompts for lines and shows what they give, until its input ends. Input
comes as bytes, cut at line feeds; a piece that is not text ends the console with an error.
-/

namespace MiniShell

/-- A `Session` at a console that shows colours or not. -/
structure Console where
  machine : Machine
  session : Session
  color : Bool

namespace Console

/-- A console with a fresh session on `Machine.ofConfig`. -/
def start (config : Config) (clock : Except ShellError Timestamp) (color : Bool) :
    Except ShellError Console :=
  (Machine.ofConfig config clock).map fun machine =>
    { machine, session := .start config, color }

/-- What is printed before the first prompt: the lines of `Session.start`. -/
def greeting (console : Console) : String :=
  Render.lines console.color (console.session.transcript.flatMap Block.lines)

def prompt (console : Console) : String :=
  Render.prompt console.color (console.session.prompt console.machine.config)

/-- The line that a piece of input is: its text without line ends after it. Bytes that
`Text.ofBytes?` refuses are no line. -/
def line? (piece : List UInt8) : Option String :=
  (Text.ofBytes? piece).map fun text =>
    String.ofList (text.toList.reverse.dropWhile fun c => c == '\n' || c == '\r').reverse

/-- Runs a line with `Session.submit`, and gives what is printed for it. A command that wiped the
transcript wipes the screen too, if the console has one to wipe. -/
def enter (console : Console) (line : String) : Console × String :=
  let (session, lines) := console.session.submit console.machine line
  ({ console with session },
    if session.transcript.isEmpty then if console.color then Render.clearScreen else ""
    else Render.lines console.color lines)

/-- The pieces of an input, cut at line feeds. The last one counts only if it is not empty. -/
def pieces (input : List UInt8) : List (List UInt8) :=
  match (input.splitOn 10).reverse with
  | [] :: others => others.reverse
  | all => all.reverse

def withClock (console : Console) (clock : Except ShellError Timestamp) : Console :=
  { console with machine := { console.machine with clock } }

/-- What is printed from the next `prompt` on, and the exit code. The clock goes on: it tells `clock
n` while the piece with `n` pieces before it is run. -/
def run (clock : Nat → Except ShellError Timestamp) (console : Console) :
    List (List UInt8) → String × UInt8
  | [] => (console.prompt ++ "\n", 0)
  | piece :: pieces =>
    match line? piece with
    | none => (console.prompt, 1)
    | some line =>
      let (after, printed) := (console.withClock (clock 0)).enter line
      let (rest, code) := run (fun n => clock (n + 1)) after pieces
      (console.prompt ++ printed ++ rest, code)

/-- All that the program prints for an input, and its exit code. A configuration that `Config.load`
or `start` refuses ends it before it prints anything. -/
def programAt (source : Config.Source) (clock : Nat → Except ShellError Timestamp)
    (input : List UInt8) : String × UInt8 :=
  match (Config.load source).bind fun config => start config (clock 0) false with
  | .error _ => ("", 1)
  | .ok console =>
    let (printed, code) := console.run clock (pieces input)
    (console.greeting ++ printed, code)

/-- What `programAt` prints, and its exit code, when the clock stands still. -/
def program (source : Config.Source) (clock : Except ShellError Timestamp)
    (input : List UInt8) : String × UInt8 :=
  programAt source (fun _ => clock) input

end Console

end MiniShell
