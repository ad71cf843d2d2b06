import MiniShell.Command
import MiniShell.Highlight
import MiniShell.Text.Lines

/-!
# Commands on files and directories

A path that leads nowhere and a path to a node of the wrong kind are told apart in the error but
read alike.
-/

namespace MiniShell.Builtin

/-- The directory that `env.resolve typed` leads to, or what a command says if there is none. The
path is quoted as `shown`. -/
def directoryAt (command typed shown : String) (env : Environment) :
    Except ShellError Directory :=
  match env.tree.lookup (env.resolve typed) with
  | some (.directory entries) => .ok entries
  | some (.file _) => .error (.wrongNodeKind command shown .directory)
  | none => .error (.pathNotFound command shown)

/-- The content of the file that `env.resolve typed` leads to, or what a command says if there is
none. -/
def contentAt (command typed : String) (env : Environment) : Except ShellError String :=
  match env.tree.lookup (env.resolve typed) with
  | some (.file content) => .ok content
  | some (.directory _) => .error (.wrongNodeKind command typed .file)
  | none => .error (.pathNotFound command typed)

/-! ## Listing -/

def listingSpan (listing : Listing) : Span :=
  match listing.kind with
  | .directory => { text := listing.name ++ "/", style := .directory }
  | .file => { text := listing.name, style := .plain }

/-- Adds a `listingSpan` to a line of names, two spaces after the one before. -/
def addListing (line : Line) (listing : Listing) : Line :=
  let separated := if line.isEmpty then line else line.push "  " .plain
  let span := listingSpan listing
  separated.push span.text span.style

/-- What `ls` shows of a directory: hidden names only if `all` are wanted. -/
def listingLine (all : Bool) (listings : List Listing) : Line :=
  (listings.filter fun listing => all || !listing.isHidden).foldl addListing .empty

/-- The first argument that is not an option. -/
def firstTarget? (arguments : List String) : Option String :=
  arguments.find? fun argument => argument.toList.head? != some '-'

/-- Lists a directory on one line, the `listingLine` of what is in it. -/
def ls : Command :=
  .reporting "ls" "ls [-a] [path]" "Lists files and directories." fun arguments env => do
    let target := firstTarget? arguments
    -- without one the working directory, which an error quotes as a dot
    let entries ← directoryAt "ls" (target.getD "") (target.getD ".") env
    pure (.lines [listingLine (arguments.contains "-a") entries.listings])

/-! ## Moving around -/

/-- Makes the directory of `directoryAt` the working directory, the home if none is named. -/
def cd : Command where
  name := "cd"
  usage := "cd [dir]"
  description := "Changes directory."
  run arguments env :=
    let typed := arguments.head?.getD "~"
    match directoryAt "cd" typed typed env with
    | .ok _ => { result := .ok .nothing, cwd := env.resolve typed }
    | .error e => { result := .error e, cwd := env.cwd }

def pwd : Command :=
  .reporting "pwd" "pwd" "Prints the working directory." fun _ env => pure (.line env.cwd)

/-! ## Reading -/

/-- Shows the lines of a file, one of `Text.splitLines` each. -/
def cat : Command :=
  .reporting "cat" "cat [file]" "Displays file content." fun arguments env =>
    match arguments with
    | [] => .error (.usage "usage: cat [file]")
    | typed :: _ => do
      let content ← contentAt "cat" typed env
      pure (.lines ((Text.splitLines content).map .plain))

/-- The lines of a content in which `Highlight.mark?` finds a pattern; one blank line if there are
none. -/
def matchingLines (pattern content : String) : List Line :=
  match (Text.splitLines content).filterMap (Highlight.mark? pattern) with
  | [] => [.empty]
  | lines => lines

/-- Shows the `matchingLines` of a file. -/
def grep : Command :=
  .reporting "grep" "grep [pat] [f]" "Searches for a pattern in a file." fun arguments env =>
    match arguments with
    | pattern :: typed :: _ => do
      let content ← contentAt "grep" typed env
      pure (.lines (matchingLines pattern content))
    | _ => .error (.usage "usage: grep [pattern] [filename]")

end MiniShell.Builtin
