/-!
# Errors of a TOML document
-/

namespace MiniShell.Toml

/-- Why a text is not the document that a reader asked for. -/
inductive Error where
  /-- The text is not in the grammar. -/
  | malformed
  /-- A key or a table is defined twice, or extended after it was closed. -/
  | redefined
  /-- A key is missing, or its value is of another type. -/
  | mistyped (key : String)
  deriving DecidableEq, Repr

def Error.message : Error → String
  | malformed => "invalid syntax"
  | redefined => "duplicate key"
  | mistyped key => s!"missing or invalid value for key `{key}`"

end MiniShell.Toml
