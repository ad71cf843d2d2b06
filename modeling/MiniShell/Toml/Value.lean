import MiniShell.NameMap

/-!
# Values of a TOML document

Every table remembers how it came about, because that decides what may still be added to it.
-/

namespace MiniShell.Toml

/-- How a table was introduced. -/
inductive Origin where
  /-- By a header of its own. -/
  | header
  /-- On the way to a header further down. -/
  | implied
  /-- On the way to a dotted key. -/
  | dotted
  /-- Between braces, and closed since. -/
  | inline
  deriving DecidableEq, Repr

/-- A value. Numbers with a fraction or an exponent, and moments, keep their spelling. -/
inductive Value where
  | text (value : String)
  | integer (value : Int)
  | float (spelling : String)
  | boolean (value : Bool)
  | moment (spelling : String)
  | array (items : List Value)
  | table (origin : Origin) (entries : List (String × Value))
  /-- An array of tables, its last element apart because headers extend that one. -/
  | tables (older : List (List (String × Value))) (last : List (String × Value))
  deriving Repr, Inhabited

abbrev Table := NameMap Value

end MiniShell.Toml
