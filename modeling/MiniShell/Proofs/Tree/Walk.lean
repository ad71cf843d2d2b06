import MiniShell.Proofs.Path.Resolve
import MiniShell.Proofs.Tree.Entry

/-!
# Walking through a tree

A typed path can be followed in two ways. Resolution rewrites the text and looks at no tree; a walk
goes from node to node, and turns back where it came from. Where the walk does not stop on its way,
both lead to the same place.

* `Place.step?`, `Place.walk?`: a walk through a tree;
* `Place.IsIn.step`, `Place.IsIn.walk`: it passes the names that the text passes;
* `Place.IsIn.lookup_path`: the path made of these names leads to where the walk is;
* `Tree.resolve_eq_path_of_walk`: resolution leads where the walk ends.
-/

namespace MiniShell

open MiniShell.Path

/-! ## Places -/

/-- A place in a tree: a node, and the directories passed on the way to it, each with the name that
was followed in it, the last one first. -/
structure Place where
  passed : List (String × Directory)
  node : Node

namespace Place

def names (place : Place) : List String :=
  place.passed.map Prod.fst

/-- The absolute path of a place, made of its `names`. -/
def path (place : Place) : String :=
  ofSegments place.names.reverse

/-- One step from a place, which has to be a directory. An empty component or `.` stays; `..` turns
back to the directory passed last, and stays at the root; a name goes on to the child that has
it. -/
def step? (place : Place) (component : String) : Option Place :=
  match place.node with
  | .file _ => none
  | .directory entries =>
    if component = "" ∨ component = "." then some place
    else if component = ".." then
      match place.passed with
      | [] => some place
      | (_, parent) :: passed => some { passed, node := .directory parent }
    else
      (NameMap.find? component entries).map fun node =>
        { passed := (component, entries) :: place.passed, node }

/-- A `step?` for each component, as long as it can be taken. -/
def walk? : Place → List String → Option Place
  | place, [] => some place
  | place, component :: rest => (place.step? component).bind fun next => next.walk? rest

/-- A place that a tree has: its root, or a child of a directory at a place that the tree has. -/
inductive IsIn (tree : Tree) : Place → Prop
  | root : IsIn tree { passed := [], node := tree.root }
  | child {passed : List (String × Directory)} {entries : Directory} {name : String} {node : Node}
      (parent : IsIn tree { passed, node := .directory entries }) (isName : IsName name)
      (found : NameMap.find? name entries = some node) :
      IsIn tree { passed := (name, entries) :: passed, node }

end Place

/-- The place at a path, reached by `walk?` from the root. -/
def Tree.place? (tree : Tree) (path : String) : Option Place :=
  Place.walk? { passed := [], node := tree.root } (segments path)

variable {tree : Tree} {place next stop : Place} {component : String} {cs : List String}

namespace Place.IsIn

lemma isName (h : place.IsIn tree) : ∀ name ∈ place.names, IsName name := by
  induction h with
  | root => exact fun name hname => nomatch hname
  | child parent isName found ih => exact List.forall_mem_cons.2 ⟨isName, ih⟩

lemma descend_names (h : place.IsIn tree) :
    tree.root.descend place.names.reverse = some place.node := by
  induction h with
  | root => rfl
  | @child passed entries name node parent isName found ih =>
    have hnames : ({ passed := (name, entries) :: passed, node } : Place).names.reverse
        = ({ passed, node := .directory entries } : Place).names.reverse ++ [name] :=
      List.reverse_cons
    rw [hnames, Node.descend_append, ih, Option.bind_some, Node.descend, found]
    rfl

/-- The `path` of a place leads to its node. -/
lemma lookup_path (h : place.IsIn tree) : tree.lookup place.path = some place.node := by
  have hnames : ∀ name ∈ place.names.reverse, IsName name :=
    fun name hname => h.isName name (List.mem_reverse.1 hname)
  rw [Tree.lookup, path, segments_ofSegments hnames, h.descend_names]

/-- A `step?` passes the names that `Path.step` passes in the text of a path. -/
theorem step (h : place.IsIn tree) (hslash : '/' ∉ component.toList)
    (hstep : place.step? component = some next) :
    next.IsIn tree ∧ next.names = Path.step place.names component := by
  obtain ⟨passed, node⟩ := place
  cases node with
  | file content => nomatch hstep
  | directory entries =>
    simp only [step?] at hstep
    simp only [Path.step]
    split at hstep
    · rename_i hstay
      obtain rfl := Option.some.inj hstep
      -- both stay
      exact ⟨h, (if_pos hstay).symm⟩
    · rename_i hstay
      rw [if_neg hstay]
      split at hstep
      · rename_i hup
        rw [if_pos hup]
        -- `..` turns back to the directory passed last, which is in the tree as the place itself is
        cases h with
        | root =>
          obtain rfl := Option.some.inj hstep
          exact ⟨.root, rfl⟩
        | child parent isName found =>
          obtain rfl := Option.some.inj hstep
          exact ⟨parent, rfl⟩
      · rename_i hup
        obtain ⟨node, hfound, rfl⟩ := Option.map_eq_some_iff.1 hstep
        rw [if_neg hup]
        exact ⟨.child h (isName_of_component hstay hup hslash) hfound, rfl⟩

/-- A walk by `walk?` passes the names that it passes in the text of a path. -/
theorem walk (h : place.IsIn tree) (hslash : ∀ c ∈ cs, '/' ∉ c.toList)
    (hwalk : place.walk? cs = some stop) :
    stop.IsIn tree ∧ stop.names = cs.foldl Path.step place.names := by
  induction cs generalizing place with
  | nil =>
    obtain rfl := Option.some.inj hwalk
    exact ⟨h, rfl⟩
  | cons c cs ih =>
    obtain ⟨hc, hcs⟩ := List.forall_mem_cons.1 hslash
    rw [walk?] at hwalk
    obtain ⟨next, hstep, hrest⟩ := Option.bind_eq_some_iff.1 hwalk
    obtain ⟨hnext, hnames⟩ := h.step hc hstep
    rw [List.foldl_cons, ← hnames]
    exact ih hnext hcs hrest

end Place.IsIn

/-! ## Walking along names -/

/-- A walk along names goes where `descend` goes. -/
lemma Place.walk?_of_descend (place : Place) {names : List String} {node : Node}
    (hnames : ∀ name ∈ names, IsName name) (h : place.node.descend names = some node) :
    ∃ stop, place.walk? names = some stop ∧ stop.node = node := by
  induction names generalizing place with
  | nil => exact ⟨place, rfl, Option.some.inj h⟩
  | cons name names ih =>
    obtain ⟨hname, hrest⟩ := List.forall_mem_cons.1 hnames
    obtain ⟨passed, current⟩ := place
    cases current with
    | file content => nomatch h
    | directory entries =>
      obtain ⟨child, hfound, hbelow⟩ := Option.bind_eq_some_iff.1 h
      obtain ⟨hdot, hup⟩ := isRelative_eq_false_iff.1 hname.not_relative
      -- a name neither stays nor goes up, so the step is to the child that has it
      have hstep : step? { passed, node := .directory entries } name
          = some { passed := (name, entries) :: passed, node := child } := by
        simp [step?, hname.ne_empty, hdot, hup, hfound]
      obtain ⟨stop, hstop, hnode⟩ := ih { passed := _, node := child } hrest hbelow
      exact ⟨stop, by rw [walk?, hstep]; exact hstop, hnode⟩

/-- A path that is `isNormal` has a place where a lookup finds something. -/
lemma Tree.exists_place?_of_lookup {path : String} {node : Node} (hpath : isNormal path = true)
    (h : tree.lookup path = some node) :
    ∃ place, tree.place? path = some place ∧ place.IsIn tree ∧ place.node = node ∧
      place.names = (segments path).reverse := by
  have hnames := isName_of_isNormal hpath
  obtain ⟨place, hplace, hnode⟩ :=
    Place.walk?_of_descend { passed := [], node := tree.root } hnames h
  obtain ⟨hin, hfold⟩ :=
    Place.IsIn.root.walk (fun name hname => (hnames name hname).no_slash) hplace
  refine ⟨place, hplace, hin, hnode, ?_⟩
  calc place.names
      = (walk (segments path)).reverse := by rw [hfold, walk, List.reverse_reverse]; rfl
    _ = (segments path).reverse := by rw [walk_of_isName hnames]

/-! ## The text and the tree -/

lemma Tree.lookup_root (tree : Tree) : tree.lookup "/" = some (.directory tree.entries) := by
  rw [lookup, segments_root]
  rfl

/-- **Resolution agrees with walking.** Let the home and the working directory be paths in normal
form to directories of a tree, however it came about. Then the walk along a typed path has a place
in the tree to start from, which is the one at its `base`; and if `walk?` gets to the end of what is
`ahead`, what was typed resolves to the path of the place where it ends, and a lookup of that path
finds the node there. -/
theorem Tree.resolve_eq_path_of_walk (tree : Tree) (cwd home typed : String)
    (hcwd : isNormal cwd = true)
    (hcwdThere : ∃ entries, tree.lookup cwd = some (.directory entries))
    (hhome : isNormal home = true)
    (hhomeThere : ∃ entries, tree.lookup home = some (.directory entries)) :
    ∃ start entries, tree.place? (base cwd home typed) = some start ∧
      start.path = base cwd home typed ∧ start.node = .directory entries ∧
      tree.lookup (base cwd home typed) = some (.directory entries) ∧
      ∀ stop, start.walk? (ahead typed) = some stop →
        resolve cwd home typed = stop.path ∧ tree.lookup stop.path = some stop.node := by
  obtain ⟨hbase, entries, hentries⟩ : isNormal (base cwd home typed) = true ∧
      ∃ entries, tree.lookup (base cwd home typed) = some (.directory entries) := by
    -- the base is the home, the root or the working directory, which all are there
    rcases base_cases cwd home typed with h | h | h <;> rw [h]
    · exact ⟨hhome, hhomeThere⟩
    · exact ⟨isNormal_root, tree.entries, tree.lookup_root⟩
    · exact ⟨hcwd, hcwdThere⟩
  obtain ⟨start, hstart, hin, hnode, hnames⟩ := tree.exists_place?_of_lookup hbase hentries
  have hpath : start.path = base cwd home typed := by
    rw [Place.path, hnames, List.reverse_reverse, ofSegments_segments hbase]
  refine ⟨start, entries, hstart, hpath, hnode, hentries, fun stop hwalk => ?_⟩
  obtain ⟨hstop, hpassed⟩ := hin.walk no_slash_of_mem_ahead hwalk
  refine ⟨?_, hstop.lookup_path⟩
  rw [resolve_eq hcwd hhome, Place.path, hpassed, hnames]

/-- From the home down, up again and on to a file, past a doubled slash and a dot. -/
theorem Tree.resolve_eq_path_of_walk_homeward :
    let tree := ((Tree.empty.edit (.makeDirectory "/a/b")).1.edit (.write "/a/f" "x")).1
    isNormal "/a/b" = true ∧ (∃ entries, tree.lookup "/a/b" = some (.directory entries)) ∧
      isNormal "/a" = true ∧ (∃ entries, tree.lookup "/a" = some (.directory entries)) ∧
      ∃ start stop, tree.place? "/a" = some start ∧
        start.walk? ["b", "..", "", ".", "f"] = some stop ∧
        resolve "/a/b" "/a" "~/b/..//./f" = stop.path ∧
        tree.lookup stop.path = some (.file "x") := by
  intro tree
  have hcwd : isNormal "/a/b" = true := by decide +kernel
  have hhome : isNormal "/a" = true := by decide +kernel
  have hcwdThere : ∃ entries, tree.lookup "/a/b" = some (.directory entries) :=
    Tree.lookup_eq_directory.2 (by decide +kernel)
  have hhomeThere : ∃ entries, tree.lookup "/a" = some (.directory entries) :=
    Tree.lookup_eq_directory.2 (by decide +kernel)
  have hbase : base "/a/b" "/a" "~/b/..//./f" = "/a" := by decide +kernel
  have hahead : ahead "~/b/..//./f" = ["b", "..", "", ".", "f"] := by decide +kernel
  obtain ⟨start, entries, hstart, -, -, -, hwalk⟩ :=
    tree.resolve_eq_path_of_walk "/a/b" "/a" "~/b/..//./f" hcwd hcwdThere hhome hhomeThere
  rw [hbase] at hstart
  rw [hahead] at hwalk
  have hend : ((tree.place? "/a").bind fun place =>
      (place.walk? ["b", "..", "", ".", "f"]).map fun stop => stop.node.content?)
        = some (some "x") := by
    decide +kernel
  rw [hstart, Option.bind_some] at hend
  obtain ⟨stop, hstop, hcontent⟩ := Option.map_eq_some_iff.1 hend
  obtain ⟨hresolve, hlookup⟩ := hwalk stop hstop
  have hnode : stop.node = .file "x" := by
    cases hkind : stop.node with
    | file content => simpa [hkind, Node.content?] using hcontent
    | directory entries => simp [hkind, Node.content?] at hcontent
  exact ⟨hcwd, hcwdThere, hhome, hhomeThere, start, stop, hstart, hstop, hresolve, hnode ▸ hlookup⟩

end MiniShell
