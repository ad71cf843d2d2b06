import MiniShell.Toml.Table
import MiniShell.Toml.Quoted
import MiniShell.Toml.Scalar

/-!
# Statements

A document is a sequence of lines, and a line holds at most one statement: the header of a
table, the header of an element of an array of tables, or an assignment.
-/

namespace MiniShell.Toml

/-- What a line of a document says. -/
inductive Statement where
  | table (key : Key)
  | element (key : Key)
  | assign (key : Key) (value : Value)
  deriving Repr

/-- A dotted key has fewer names than this. -/
def maxNames : Nat := 80

/-- How deep arrays and inline tables may be nested. -/
def maxDepth : Nat := 79

def isKeyChar (c : Char) : Bool :=
  c.isAlphanum || c == '_' || c == '-'

def Key.ofNames? : List String → Option Key
  | [] => none
  | name :: names => some ⟨(name :: names).dropLast, (name :: names).getLast (by simp)⟩

namespace Scan

def keyName : Scan String := do
  blanks
  let name ← quotedLine <|> String.ofList <$> run₁ isKeyChar
  blanks
  pure name

/-- A dotted key of fewer than `maxNames` names, and the blanks around it. -/
def key : Scan Key := do
  let names ← separated keyName (char '.')
  if maxNames ≤ names.length then failure
  else
    match Key.ofNames? names with
    | some key => pure key
    | none => failure

def assignment (value : Scan Value) : Scan (Key × Value) := do
  let key ← key
  char '='
  blanks
  let value ← value
  pure (key, value)

/-- The values of an array. A comma may follow the last one. -/
def array (value : Scan Value) : Scan Value := do
  char '['
  let item : Scan Value := do layout; let v ← value; layout; pure v
  let items ← optional (separated item (char ','))
  match items with
  | some items => do
    discard (optional (char ','))
    layout
    char ']'
    pure (.array items)
  | none => do
    layout
    char ']'
    pure (.array [])

/-- A table on one line, closed with `Origin.inline`. No comma may follow its last assignment. -/
def inlineTable (value : Scan Value) : Scan Value := do
  char '{'
  let item : Scan (Key × Value) := do let a ← assignment value; blanks; pure a
  let assignments ← optional (separated item (char ','))
  blanks
  char '}'
  match Table.ofAssignments (assignments.getD []) with
  | some table => pure (.table .inline table)
  | none => failure

/-- A value, with brackets in it up to the given depth. -/
def value : Nat → Scan Value
  | 0 => .text <$> quoted <|> scalar
  | depth + 1 =>
    .text <$> quoted <|> array (value depth) <|> inlineTable (value depth) <|> scalar

/-- A header: a `key` between brackets, doubled for an element of an array. -/
def header : Scan Statement :=
  (do char '['; char '['; let k ← key; char ']'; char ']'; pure (.element k))
    <|> (do char '['; let k ← key; char ']'; pure (.table k))

def line : Scan (Option Statement) := do
  blanks
  let statement ← optional <|
    header <|> (do let (k, v) ← assignment (value maxDepth); pure (.assign k v))
  blanks
  discard (optional comment)
  pure statement

/-- A whole document, a `line` after the other to the end of the text. A byte order mark may come
first. -/
def document : Scan (List Statement) := do
  discard (optional (char '\uFEFF'))
  let lines ← separated line newline
  atEnd
  pure (lines.filterMap id)

end Scan

end MiniShell.Toml
