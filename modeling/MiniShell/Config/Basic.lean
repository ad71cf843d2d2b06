import MiniShell.Path

/-!
# Configurations

A configuration says who uses the shell, on which host and from which home, what greets them,
and which files they find besides the stock ones.
-/

namespace MiniShell

/-- A file that a `Config` adds to the tree. -/
structure SeedFile where
  path : String
  content : String := ""
  deriving DecidableEq, Repr

/-- What a session can be told; the defaults make the stock session, which has no `files` of its
own. -/
structure Config where
  user : String := "namour"
  host : String := "ubuntu-prod-01"
  home : String := "/home/namour"
  banner : String := "Welcome to Namour System Monitor! Type `help` to see available commands."
  files : List SeedFile := []
  deriving DecidableEq, Repr

/-- What makes a `Config` unusable. -/
inductive ConfigError where
  | homeNotNormal (home : String)
  | emptyUser
  | relativeFile (path : String)
  deriving DecidableEq, Repr

def ConfigError.message : ConfigError → String
  | homeNotNormal home =>
    "home must be an absolute path with no trailing `/`, `.` or `..`: " ++ home
  | emptyUser => "user must not be empty"
  | relativeFile path => s!"seed file path must be absolute: {path}"

namespace Config

/-- The first thing wrong with a configuration: a `home` that is not `Path.isNormal`, then an empty
`user`, then a file whose path is not absolute. -/
def problem? (config : Config) : Option ConfigError :=
  if !Path.isNormal config.home then some (.homeNotNormal config.home)
  else if config.user = "" then some .emptyUser
  else
    (config.files.find? fun file => file.path.toList.head? != some '/').map fun file =>
      .relativeFile file.path

end Config

end MiniShell
