import Std.Time.DateTime.Timestamp
import MiniShell.Console

/-!
# The program

Reads a configuration and standard input, and prints what the console prints. All decisions are
the console's.
-/

namespace MiniShell.Main

/-- A configuration file as it is found on the host, as a `Config.Source`. -/
def readSource (path : String) : IO Config.Source := do
  try
    let bytes ← IO.FS.readBinFile path
    pure (.file bytes.toList)
  catch
    | .noFileOrDirectory .. => pure .missing
    | e => throw e

/-- The configuration file named by the first argument, or else by `NAMOUR_CONFIG`. -/
def source (arguments : List String) : IO Config.Source := do
  let path? ← match arguments with
    | path :: _ => pure (some path)
    | [] => IO.getEnv "NAMOUR_CONFIG"
  match path? with
  | none => pure .stock
  | some path => readSource path

def now : IO Timestamp := do
  let instant ← Std.Time.Timestamp.now
  pure (.ofUnixSeconds instant.toSecondsSinceUnixEpoch.val.toNat)

def print (text : String) : IO Unit := do
  let out ← IO.getStdout
  out.putStr text
  out.flush

/-- The next piece of input with what was read beyond it, up to a line feed or the end. -/
partial def readPiece (input : IO.FS.Stream) (buffer : List UInt8) :
    IO (Option (List UInt8 × List UInt8)) := do
  match buffer.dropWhile (· != 10) with
  | _ :: beyond => pure (some (buffer.takeWhile (· != 10), beyond))
  | [] =>
    let more ← input.read 4096
    if more.isEmpty then pure (if buffer.isEmpty then none else some (buffer, []))
    else readPiece input (buffer ++ more.toList)

/-- Prompts for lines and shows what they give. -/
partial def loop (console : Console) (input : IO.FS.Stream) (buffer : List UInt8) : IO UInt32 := do
  print console.prompt
  match ← readPiece input buffer with
  | none =>
    print "\n"
    pure 0
  | some (piece, beyond) =>
    match Console.line? piece with
    | none =>
      IO.eprintln "Error: stream did not contain valid UTF-8"
      pure 1
    | some line =>
      let clock ← now
      let (after, printed) := (console.withClock (.ok clock)).enter line
      print printed
      loop after input beyond

end MiniShell.Main

open MiniShell in
/-- Runs the `Console` on standard input. -/
def main (arguments : List String) : IO UInt32 := do
  try
    let source ← Main.source arguments
    let color ← (← IO.getStdout).isTty
    let clock ← Main.now
    match (Config.load source).bind fun config => Console.start config (.ok clock) color with
    | .error e =>
      IO.eprintln ("Error: " ++ e.text)
      pure 1
    | .ok console =>
      Main.print console.greeting
      Main.loop console (← IO.getStdin) []
  catch e =>
    IO.eprintln ("Error: " ++ toString e)
    pure 1
