import Mathlib.Tactic.Common
import MiniShell.Tree.Edit

/-!
# Trees as functions of chains of names

A tree is seen through `Tree.at?`: what stands at the end of a chain of names, with what lies below
a directory left out. All that edits do to a tree is said of this view.

* `entry_lookup`: a lookup by path is the view at the segments of the path;
* `blocked_cons_of_enter`, `blocked_cons_of_not_enter`: what a first name does to a way;
* `at?_of_prefix`: on the way to everything that stands in a tree are directories.
-/

namespace MiniShell

/-- What stands at the end of a chain of names: a `Node` without what lies below it. -/
inductive Entry where
  | file (content : String)
  | directory
  deriving DecidableEq, Repr

/-- What stands where, by the names that lead there. -/
abbrev View := List String → Option Entry

/-- Does the way along the names end at a `file` or pass through one? -/
def View.Blocked (view : View) (names : List String) : Prop :=
  ∃ before content, before <+: names ∧ view before = some (.file content)

lemma View.Blocked.of_file {view : View} {names : List String} {content : String}
    (h : view names = some (.file content)) : view.Blocked names :=
  ⟨names, content, List.prefix_rfl, h⟩

lemma View.Blocked.of_prefix {view : View} {above names : List String} (h : view.Blocked above)
    (hpre : above <+: names) : view.Blocked names := by
  obtain ⟨before, content, hbefore, hfile⟩ := h
  exact ⟨before, content, hbefore.trans hpre, hfile⟩

def Entry.kind : Entry → NodeKind
  | .file _ => .file
  | .directory => .directory

/-- A node without what lies below it. -/
def Node.entry : Node → Entry
  | .file content => .file content
  | .directory _ => .directory

/-- The `View` of a directory: what stands at the end of a chain of names below it. -/
def Directory.at? (entries : Directory) : View := fun names =>
  ((Node.directory entries).descend names).map Node.entry

/-- The `View` of a tree: what stands at the end of a chain of names below its root. -/
def Tree.at? (tree : Tree) : View :=
  tree.entries.at?

@[simp] lemma Node.kind_entry (node : Node) : node.entry.kind = node.kind := by
  cases node <;> rfl

lemma Node.descend_append (first rest : List String) (node : Node) :
    node.descend (first ++ rest) = (node.descend first).bind (descend rest) := by
  induction first generalizing node with
  | nil => rfl
  | cons name first ih =>
    cases node with
    | file content => rfl
    | directory entries =>
      rw [List.cons_append, descend, descend, Option.bind_assoc]
      exact congrArg _ (funext ih)

/-- A `lookup` finds what stands at the segments of the path. -/
lemma Tree.entry_lookup (tree : Tree) (path : String) :
    (tree.lookup path).map Node.entry = tree.at? (Path.segments path) := rfl

lemma Tree.lookup_eq_directory {tree : Tree} {path : String} :
    (∃ entries, tree.lookup path = some (.directory entries))
      ↔ tree.at? (Path.segments path) = some .directory := by
  rw [← Tree.entry_lookup]
  constructor
  · intro h
    obtain ⟨entries, hentries⟩ := h
    rw [hentries]
    rfl
  · intro h
    obtain ⟨node, hnode, hentry⟩ := Option.map_eq_some_iff.1 h
    cases node with
    | file content => exact absurd hentry (by simp [Node.entry])
    | directory entries => exact ⟨entries, hnode⟩

lemma Tree.lookup_eq_file {tree : Tree} {path content : String} :
    tree.lookup path = some (.file content)
      ↔ tree.at? (Path.segments path) = some (.file content) := by
  rw [← Tree.entry_lookup]
  constructor
  · intro h
    rw [h]
    rfl
  · intro h
    obtain ⟨node, hnode, hentry⟩ := Option.map_eq_some_iff.1 h
    cases node with
    | file held => rw [hnode, ← Entry.file.inj hentry]
    | directory entries => exact absurd hentry (by simp [Node.entry])

namespace Directory

variable {entries below : Directory} {name wanted : String} {names : List String}

/-! ## One name at a time -/

@[simp] lemma at?_nil : entries.at? [] = some .directory := rfl

lemma not_blocked_nil : ¬ entries.at?.Blocked [] := by
  intro h
  obtain ⟨before, content, hbefore, hfile⟩ := h
  rw [List.prefix_nil] at hbefore
  subst hbefore
  exact absurd hfile (by simp)

lemma at?_cons_of_directory (h : NameMap.find? name entries = some (.directory below)) :
    entries.at? (name :: names) = below.at? names := by
  simp [at?, Node.descend, h]

lemma at?_cons_of_file {content : String} (h : NameMap.find? name entries = some (.file content)) :
    entries.at? (name :: names) = if names = [] then some (.file content) else none := by
  cases names <;> simp [at?, Node.descend, h, Node.entry]

lemma at?_cons_of_none (h : NameMap.find? name entries = none) :
    entries.at? (name :: names) = none := by
  simp [at?, Node.descend, h]

lemma at?_empty_cons : at? [] (name :: names) = none :=
  at?_cons_of_none rfl

lemma at?_singleton : entries.at? [name] = (NameMap.find? name entries).map Node.entry := by
  cases h : NameMap.find? name entries with
  | none => exact at?_cons_of_none h
  | some node =>
    cases node with
    | file content => rw [at?_cons_of_file h, if_pos rfl]; rfl
    | directory below => rw [at?_cons_of_directory h, at?_nil]; rfl

lemma at?_insert_of_ne (h : wanted ≠ name) (node : Node) :
    at? (NameMap.insert name node entries) (wanted :: names) = entries.at? (wanted :: names) := by
  simp [at?, Node.descend, NameMap.find?_insert_of_ne h]

lemma at?_insert_directory :
    at? (NameMap.insert name (.directory below) entries) (name :: names) = below.at? names :=
  at?_cons_of_directory (NameMap.find?_insert_self name _ entries)

/-! ## Entering -/

/-- What `enter?` gives is the directory of the name, or a new one if the name has none. -/
lemma enter?_eq_some_iff :
    entries.enter? name = some below
      ↔ NameMap.find? name entries = some (.directory below) ∨
          NameMap.find? name entries = none ∧ below = [] := by
  unfold enter?
  cases h : NameMap.find? name entries with
  | none => simp [eq_comm]
  | some node => cases node <;> simp

lemma enter?_eq_none_iff :
    entries.enter? name = none ↔ ∃ content, NameMap.find? name entries = some (.file content) := by
  unfold enter?
  cases h : NameMap.find? name entries with
  | none => simp
  | some node => cases node <;> simp

/-- Where `enter?` succeeds, what stands further down is what stands below. -/
lemma at?_cons_of_enter (h : entries.enter? name = some below) (hne : names ≠ []) :
    entries.at? (name :: names) = below.at? names := by
  rcases enter?_eq_some_iff.1 h with hfind | ⟨hfind, rfl⟩
  · exact at?_cons_of_directory hfind
  · rw [at?_cons_of_none hfind]
    cases names with
    | nil => exact absurd rfl hne
    | cons first rest => exact at?_empty_cons.symm

lemma at?_ne_file_of_enter (h : entries.enter? name = some below) (content : String) :
    entries.at? [name] ≠ some (.file content) := by
  rw [at?_singleton]
  rcases enter?_eq_some_iff.1 h with hfind | ⟨hfind, -⟩ <;> simp [hfind, Node.entry]

lemma at?_eq_file_of_enter (h : entries.enter? name = none) :
    ∃ content, entries.at? [name] = some (.file content) := by
  obtain ⟨content, hfind⟩ := enter?_eq_none_iff.1 h
  exact ⟨content, by rw [at?_singleton, hfind]; rfl⟩

/-- Behind a name that `enter?` takes, the same ways are blocked as below it. -/
lemma blocked_cons_of_enter (h : entries.enter? name = some below) :
    entries.at?.Blocked (name :: names) ↔ below.at?.Blocked names := by
  constructor
  · intro hblocked
    obtain ⟨before, content, hbefore, hfile⟩ := hblocked
    rcases List.prefix_cons_iff.1 hbefore with rfl | ⟨tail, rfl, htail⟩
    · exact absurd hfile (by simp)
    · by_cases hne : tail = []
      · subst hne
        exact absurd hfile (at?_ne_file_of_enter h content)
      · exact ⟨tail, content, htail, (at?_cons_of_enter h hne).symm.trans hfile⟩
  · intro hblocked
    obtain ⟨before, content, hbefore, hfile⟩ := hblocked
    -- a directory itself is no file
    have hne : before ≠ [] := by
      intro hnil
      subst hnil
      exact absurd hfile (by simp)
    exact ⟨name :: before, content, List.cons_prefix_cons.2 ⟨rfl, hbefore⟩,
      (at?_cons_of_enter h hne).trans hfile⟩

lemma blocked_cons_of_not_enter (h : entries.enter? name = none) :
    entries.at?.Blocked (name :: names) := by
  obtain ⟨content, hfile⟩ := at?_eq_file_of_enter h
  exact ⟨[name], content, by simp, hfile⟩

lemma blocked_singleton_iff : entries.at?.Blocked [name] ↔ entries.enter? name = none := by
  cases h : entries.enter? name with
  | none => simp [blocked_cons_of_not_enter h]
  | some below => simp [blocked_cons_of_enter h, not_blocked_nil]

/-! ## The way to what stands in a directory -/

/-- On the way to what stands `at?` some names are directories. -/
theorem at?_of_prefix {above : List String} {entry : Entry} (h : entries.at? names = some entry)
    (hpre : above <+: names) (hne : above ≠ names) : entries.at? above = some .directory := by
  induction above generalizing entries names with
  | nil => rfl
  | cons first above ih =>
    cases names with
    | nil => simp at hpre
    | cons name names =>
      obtain ⟨rfl, htail⟩ := List.cons_prefix_cons.1 hpre
      have hne' : above ≠ names := fun heq => hne (by rw [heq])
      cases hfind : NameMap.find? first entries with
      | none =>
        rw [at?_cons_of_none hfind] at h
        exact absurd h (by simp)
      | some node =>
        cases node with
        | file content =>
          -- a file has nothing below it, so the way ends here
          rw [at?_cons_of_file hfind] at h
          split at h
          · rename_i hnil
            subst hnil
            exact absurd (List.prefix_nil.1 htail) hne'
          · exact absurd h (by simp)
        | directory below =>
          rw [at?_cons_of_directory hfind] at h ⊢
          exact ih h htail hne'

end Directory

end MiniShell
