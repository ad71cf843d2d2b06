import MiniShell.Toml.Error
import MiniShell.Toml.Statement

/-!
# Documents

The statements of a document fill its root table one after the other.
-/

namespace MiniShell.Toml

/-- A document read so far: its root, and the names that lead to the table which the next
`Statement.assign` fills. -/
structure Document where
  root : Table := []
  current : List String := []
  deriving Repr

namespace Document

/-- The document after one more statement; `none` if it defines something twice. -/
def add (document : Document) : Statement → Option Document
  | .table key =>
    (document.root.modifyAt (Table.openTable key.name) key.path).map fun root =>
      { root, current := key.path ++ [key.name] }
  | .element key =>
    (document.root.modifyAt (Table.openElement key.name) key.path).map fun root =>
      { root, current := key.path ++ [key.name] }
  | .assign key value =>
    (document.root.modifyAt (Table.assign key.name value key.path) document.current).map
      fun root => { document with root }

end Document

/-- The root table of the document that `Scan.document` reads from a text. -/
def read (text : String) : Except Error Table :=
  match Scan.document text.toList with
  | none => .error .malformed
  | some (statements, _) =>
    match statements.foldlM Document.add {} with
    | none => .error .redefined
    | some document => .ok document.root

end MiniShell.Toml
