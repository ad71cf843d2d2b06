/-!
# Paths

A path is a text cut at `/`. `resolve` turns what a user typed into an absolute path in normal
form, `abbreviate` shortens a directory for the prompt, and `cut?` splits off the last name.
Nothing here looks at a tree: whether a path leads anywhere is decided by `MiniShell.Tree`.
-/

namespace MiniShell.Path

/-- The pieces of a path between its slashes, empty ones included. -/
def components (path : String) : List String :=
  (path.toList.splitOn '/').map String.ofList

/-- The names along a path: its `components` that are not empty. -/
def segments (path : String) : List String :=
  (components path).filter (· ≠ "")

/-- A name that moves instead of naming a child: `.` stays and `..` goes up. -/
def isRelative (name : String) : Bool :=
  name == "." || name == ".."

/-- The absolute path with the given names, `/` if there are none. -/
def ofSegments : List String → String
  | [] => "/"
  | names => "/" ++ "/".intercalate names

/-! ## Normal form -/

/-- One step of a walk, on the names passed so far with the last one first: an empty component
or `.` stays, `..` drops the last name, and staying at the root when there is none. -/
def step (passed : List String) (component : String) : List String :=
  if component = "" ∨ component = "." then passed
  else if component = ".." then passed.tail
  else component :: passed

/-- The names where a walk from the root along the components ends, by `step`. -/
def walk (cs : List String) : List String :=
  (cs.foldl step []).reverse

/-- The absolute path without empty, `.` and `..` components that the path stands for when it
is read from the root. -/
def normalize (path : String) : String :=
  ofSegments (walk (components path))

/-- Is the path `/`, or a `/` before each of some names other than `.` and `..`? -/
def isNormal (path : String) : Bool :=
  path == "/" ||
    match path.toList with
    | '/' :: rest => (components (String.ofList rest)).all fun c => c != "" && !isRelative c
    | _ => false

/-! ## What a user types -/

/-- The absolute path that `typed` means in the directory `cwd` of a user at home in `home`.
Nothing typed is `cwd` as it stands; `~` and a leading `~/` stand for `home`; a leading `/`
starts at the root; anything else starts at `cwd`. -/
def resolve (cwd home typed : String) : String :=
  match typed.toList with
  | [] => cwd
  | ['~'] => normalize home
  | '~' :: '/' :: rest => normalize (home ++ "/" ++ String.ofList rest)
  | '/' :: _ => normalize typed
  | _ => normalize (cwd ++ "/" ++ typed)

/-- The directory as a prompt shows it: `~` for `home`, `~/…` for what lies below `home`, and
itself otherwise. A home at the root abbreviates only itself. -/
def abbreviate (cwd home : String) : String :=
  if cwd = home then "~"
  else if home = "/" then cwd
  else
    match home.toList.isPrefixOf? cwd.toList with
    | some ('/' :: rest) => "~/" ++ String.ofList rest
    | _ => cwd

/-! ## The last name -/

/-- The text before and after the last `/`, slashes at the end not counted. A path with no other
slash has none. -/
def cut? (path : String) : Option (String × String) :=
  -- read from its end, where the name stands first
  let backward := path.toList.reverse.dropWhile (· == '/')
  match backward.dropWhile (· != '/') with
  | [] => none
  | _ :: before =>
    some (String.ofList before.reverse, String.ofList (backward.takeWhile (· != '/')).reverse)

/-- The directory a path lies in, and its name there: `/a/b` is `b` in `/a`. Where `cut?` leaves
nothing before the slash, the directory is the root. -/
def parentAndName? (path : String) : Option (String × String) :=
  (cut? path).map fun (before, name) => (if before = "" then "/" else before, name)

end MiniShell.Path
