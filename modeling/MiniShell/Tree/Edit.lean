import MiniShell.Tree.Basic

/-!
# Edits of a tree

A tree grows by two edits: `makeDirectory`, which creates what is missing on the way, and
`write`, which needs the parent to be there. A directory that cannot be made to its end leaves
what was made before the obstacle; a file that cannot be written leaves the tree as it was.
-/

namespace MiniShell

/-- Why an `Edit` did not take place. -/
inductive TreeError where
  | relativeComponent (path : String)
  | notADirectory (path : String)
  | fileExists (path : String)
  | invalidFilePath (path : String)
  | missingParent (parent : String)
  | isADirectory (path : String)
  deriving DecidableEq, Repr

def TreeError.message : TreeError → String
  | relativeComponent path => s!"relative component in path: {path}"
  | notADirectory path => s!"not a directory: {path}"
  | fileExists path => s!"file exists: {path}"
  | invalidFilePath path => s!"invalid file path: {path}"
  | missingParent parent => s!"parent directory does not exist: {parent}"
  | isADirectory path => s!"is a directory: {path}"

/-- Why `makeDirectories` cannot go on from a file, when these names are still to come. -/
def TreeError.belowFile (path : String) : List String → TreeError
  | [] => .fileExists path
  | name :: _ => if Path.isRelative name then .relativeComponent path else .notADirectory path

namespace Directory

/-- What the directory of the given name holds, nothing if there is none yet, and `none` if the name
is a file's. -/
def enter? (entries : Directory) (name : String) : Option Directory :=
  match entries.find? name with
  | some (.directory below) => some below
  | some (.file _) => none
  | none => some []

/-- Makes a chain of directories, keeping those that are there and those it made before it fails.
The `path` is only quoted in the error. -/
def makeDirectories (path : String) : List String → Directory →
    Directory × Except TreeError Unit
  | [], entries => (entries, .ok ())
  | name :: names, entries =>
    if Path.isRelative name then (entries, .error (.relativeComponent path))
    else
      match entries.enter? name with
      | none => (entries, .error (.belowFile path names))
      | some below =>
        let (made, result) := makeDirectories path names below
        -- what was made below stays, also if the rest failed
        (entries.insert name (.directory made), result)

/-- Changes what the directory at the end of a chain of names holds. Fails with `missing` if there
is no such directory, and as the `change` fails. -/
def modifyAt (change : Directory → Except TreeError Directory) (missing : TreeError) :
    List String → Directory → Except TreeError Directory
  | [], entries => change entries
  | name :: names, entries =>
    match entries.find? name with
    | some (.directory below) =>
      (modifyAt change missing names below).map fun changed =>
        entries.insert name (.directory changed)
    | _ => .error missing

/-- Gives a name to a file, in place of a file that had it. -/
def putFile (path name content : String) (entries : Directory) :
    Except TreeError Directory :=
  match entries.find? name with
  | some (.directory _) => .error (.isADirectory path)
  | _ => .ok (entries.insert name (.file content))

end Directory

/-- A change to a `Tree`. -/
inductive Edit where
  | makeDirectory (path : String)
  | write (path content : String)
  deriving DecidableEq, Repr

namespace Tree

/-- Makes the directory at a path and those above it, as far as `makeDirectories` gets. -/
def makeDirectory (tree : Tree) (path : String) : Tree × Except TreeError Unit :=
  let (entries, result) := tree.entries.makeDirectories path (Path.segments path)
  ({ entries }, result)

/-- Writes a file into a directory that is there, over a file that has its name, by
`Directory.putFile`. -/
def write (tree : Tree) (path content : String) : Except TreeError Tree :=
  match Path.parentAndName? path with
  | none => .error (.invalidFilePath path)
  | some (parent, name) =>
    if Path.isRelative name then .error (.relativeComponent path)
    else
      (tree.entries.modifyAt (Directory.putFile path name content) (.missingParent parent)
        (Path.segments parent)).map fun entries => { entries }

/-- The tree after an edit, and whether the edit was made in full. One that was not may have changed
the tree, if it is a `makeDirectory`. -/
def edit (tree : Tree) : Edit → Tree × Except TreeError Unit
  | .makeDirectory path => tree.makeDirectory path
  | .write path content =>
    match tree.write path content with
    | .ok written => (written, .ok ())
    | .error e => (tree, .error e)

/-- The tree after a list of edits, each of which `edit` has to make in full. -/
def editAll (tree : Tree) : List Edit → Except TreeError Tree
  | [] => .ok tree
  | e :: edits =>
    match tree.edit e with
    | (edited, .ok ()) => editAll edited edits
    | (_, .error cause) => .error cause

end Tree

end MiniShell
