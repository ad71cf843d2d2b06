import MiniShell.Config.Basic
import MiniShell.Error
import MiniShell.Text.Bytes
import MiniShell.Toml.Document

/-!
# Configurations from TOML

Every key is optional and unknown keys are ignored, but a known key must have a value of its
type. A file is a table, or an array of its path and its content.
-/

namespace MiniShell

namespace Toml

/-- The text under a key, or the default if the key is not there. -/
def Table.textD (table : Table) (key default : String) : Except Error String :=
  match table.find? key with
  | none => .ok default
  | some (.text value) => .ok value
  | some _ => .error (.mistyped key)

end Toml

namespace SeedFile

/-- A file from the entries of its table. The content is `Table.textD` of its key, empty by default.
-/
def ofTable (table : Toml.Table) : Except Toml.Error SeedFile := do
  match table.find? "path" with
  | some (.text path) => pure { path, content := ← table.textD "content" "" }
  | _ => .error (.mistyped "path")

/-- A file from a table, or from an array of its path and perhaps its content; anything further in
the array is ignored. -/
def ofValue : Toml.Value → Except Toml.Error SeedFile
  | .table _ entries => ofTable entries
  | .array [.text path] => .ok { path }
  | .array (.text path :: .text content :: _) => .ok { path, content }
  | _ => .error (.mistyped "files")

/-- Files from an array of any kind, which may have been written as `Toml.Value.tables`. -/
def listOfValue : Toml.Value → Except Toml.Error (List SeedFile)
  | .array items => items.mapM ofValue
  | .tables older last => (older ++ [last]).mapM ofTable
  | _ => .error (.mistyped "files")

end SeedFile

namespace Config

/-- A configuration from the root table of a document, not yet asked for a `Config.problem?`. -/
def ofTable (table : Toml.Table) : Except Toml.Error Config := do
  let stock : Config := {}
  pure
    { user := ← table.textD "user" stock.user
      host := ← table.textD "host" stock.host
      home := ← table.textD "home" stock.home
      banner := ← table.textD "banner" stock.banner
      files := ← match table.find? "files" with
        | none => .ok stock.files
        | some value => SeedFile.listOfValue value }

/-- The configuration, if it has no `Config.problem?`. -/
def check (config : Config) : Except ShellError Config :=
  match config.problem? with
  | none => .ok config
  | some problem => .error (.configuration problem.message)

/-- A checked configuration from the text of a document, as `Toml.read` reads it. -/
def ofText (text : String) : Except ShellError Config :=
  match (Toml.read text).bind ofTable with
  | .error cause => .error (.toml cause)
  | .ok config => check config

/-- Where a `Config` comes from. -/
inductive Source where
  /-- No file was named. -/
  | stock
  /-- The file that was named is not there. -/
  | missing
  | file (bytes : List UInt8)
  deriving DecidableEq, Repr

/-- The configuration of a `Source`. -/
def load : Source → Except ShellError Config
  | .stock => .ok {}
  | .missing => .error (.io "No such file or directory (os error 2)")
  | .file bytes =>
    match Text.ofBytes? bytes with
    | none => .error (.io "stream did not contain valid UTF-8")
    | some text => ofText text

end Config

end MiniShell
