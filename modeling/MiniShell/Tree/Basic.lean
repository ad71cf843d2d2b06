import MiniShell.NameMap
import MiniShell.Path

/-!
# File trees

A tree is a root directory, and a directory maps names to nodes. Looking a path up follows its
segments and nothing else: `.` and `..` are names like any other here, which no tree built by
edits contains.
-/

namespace MiniShell

/-- A file with its content, or a directory with the nodes it names. -/
inductive Node where
  | file (content : String)
  | directory (entries : List (String × Node))
  deriving Repr, Inhabited

/-- What a directory holds: each `Node` by its name. -/
abbrev Directory := NameMap Node

inductive NodeKind where
  | file
  | directory
  deriving DecidableEq, Repr

/-- One name of a `Directory`, and what it names. -/
structure Listing where
  name : String
  kind : NodeKind
  deriving DecidableEq, Repr

/-- A name with a dot in front is left out of a plain listing. -/
def Listing.isHidden (listing : Listing) : Bool :=
  listing.name.toList.head? == some '.'

namespace Node

def kind : Node → NodeKind
  | file _ => .file
  | directory _ => .directory

def content? : Node → Option String
  | file content => some content
  | directory _ => none

def entries? : Node → Option Directory
  | file _ => none
  | directory entries => some entries

/-- The node at the end of a chain of names below a node. Nothing is below a `file`. -/
def descend : List String → Node → Option Node
  | [], node => some node
  | name :: names, directory entries => (NameMap.find? name entries).bind (descend names)
  | _ :: _, file _ => none

end Node

/-- The names in a `Directory` in order, and what they name. -/
def Directory.listings (entries : Directory) : List Listing :=
  entries.map fun (name, node) => { name, kind := node.kind }

/-- A file tree, given by the `Directory` that is its root. The root is a directory by construction.
-/
structure Tree where
  entries : Directory := []
  deriving Repr, Inhabited

namespace Tree

def empty : Tree := {}

def root (tree : Tree) : Node :=
  .directory tree.entries

/-- The node that a path leads to from the root along its `Path.segments`, so that empty components
are skipped. -/
def lookup (tree : Tree) (path : String) : Option Node :=
  tree.root.descend (Path.segments path)

def contains (tree : Tree) (path : String) : Bool :=
  (tree.lookup path).isSome

def read? (tree : Tree) (path : String) : Option String :=
  (tree.lookup path).bind Node.content?

/-- The `Directory.listings` of the directory at a path. -/
def list? (tree : Tree) (path : String) : Option (List Listing) :=
  ((tree.lookup path).bind Node.entries?).map Directory.listings

end Tree

end MiniShell
