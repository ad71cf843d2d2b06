import Mathlib.Data.List.TakeWhile
import MiniShell.Proofs.Path.Cut
import MiniShell.Proofs.Tree.Entry

/-!
# What edits do to the view of a tree

Making a directory puts directories along a way and touches nothing else; writing a file changes
the view at one chain of names. Each edit is made in full under a condition on the view alone.

* `Tree.makeDirectory_eq_ok_iff`, `Tree.at?_makeDirectory`: directories, whether or not all of them
  get made;
* `Tree.write_isOk_iff`, `Tree.at?_write`: files.
-/

namespace MiniShell

open MiniShell.Path

/-- Names up to the first one that `isRelative`. -/
def Path.plain (names : List String) : List String :=
  names.takeWhile fun name => !isRelative name

lemma Path.plain_of_forall {names : List String} (h : ∀ name ∈ names, isRelative name = false) :
    plain names = names := by
  rw [plain, List.takeWhile_eq_self_iff]
  intro name hname
  simp [h name hname]

/-- The way to the `plain` part of some names is their way as far as all of it names. -/
lemma Path.prefix_plain_iff {above names : List String} :
    above <+: plain names ↔ above <+: names ∧ ∀ name ∈ above, isRelative name = false := by
  constructor
  · intro h
    refine ⟨h.trans (List.takeWhile_prefix _), fun name hname => ?_⟩
    have hkept := List.mem_takeWhile_imp (h.subset hname)
    simpa using hkept
  · intro h
    obtain ⟨⟨rest, rfl⟩, hnames⟩ := h
    have hall : ∀ name ∈ above, (!isRelative name) = true := by
      intro name hname
      rw [hnames name hname]
      rfl
    rw [plain, List.takeWhile_append_of_pos hall]
    exact List.prefix_append above _

lemma map_eq_ok_iff {ε α β : Type} {result : Except ε α} {f : α → β} {b : β} :
    result.map f = .ok b ↔ ∃ a, result = .ok a ∧ f a = b := by
  cases result <;> simp [Except.map]

lemma exists_eq_ok_of_isOk {ε α : Type} {result : Except ε α} (h : result.isOk = true) :
    ∃ a, result = .ok a := by
  cases result with
  | error cause => nomatch h
  | ok a => exact ⟨a, rfl⟩

lemma map_map_result {ε α β γ : Type} (result : Except ε α) (f : α → β) (g : β → γ) :
    (result.map f).map g = result.map (g ∘ f) := by
  cases result <;> rfl

lemma exists_map_eq_ok_iff {ε α β : Type} {result : Except ε α} {f : α → β} :
    (∃ b, result.map f = .ok b) ↔ ∃ a, result = .ok a := by
  cases result <;> simp [Except.map]

namespace Directory

variable {entries : Directory} {path : String} {names : List String}

/-! ## Making directories -/

lemma makeDirectories_of_relative {name : String} (h : isRelative name = true) :
    entries.makeDirectories path (name :: names) = (entries, .error (.relativeComponent path)) := by
  rw [makeDirectories, if_pos h]

/-- A name that cannot be entered ends the chain of `makeDirectories`. -/
lemma makeDirectories_of_not_enter {name : String} (hrel : isRelative name = false)
    (h : entries.enter? name = none) :
    entries.makeDirectories path (name :: names) = (entries, .error (.belowFile path names)) := by
  rw [makeDirectories, if_neg (by simp [hrel]), h]

/-- A name that can be entered is a directory afterwards, in which the rest of the chain was
made. -/
lemma makeDirectories_of_enter {name : String} {below : Directory}
    (hrel : isRelative name = false) (h : entries.enter? name = some below) :
    entries.makeDirectories path (name :: names)
      = (NameMap.insert name (.directory (below.makeDirectories path names).1) entries,
          (below.makeDirectories path names).2) := by
  rw [makeDirectories, if_neg (by simp [hrel]), h]

open scoped Classical in
/-- Making a chain of directories puts directories along its `plain` part, as far as no file is in
the way, and leaves everything else as it was. -/
lemma at?_makeDirectories (path : String) (names : List String) (entries : Directory)
    (wanted : List String) :
    at? (entries.makeDirectories path names).1 wanted
      = if wanted <+: plain names ∧ ¬ entries.at?.Blocked wanted then some .directory
        else entries.at? wanted := by
  induction names generalizing entries wanted with
  | nil =>
    by_cases hroot : wanted = []
    · simp [hroot, makeDirectories]
    · simp [plain, hroot, makeDirectories]
  | cons name names ih =>
    -- no names lead to a directory before and after
    cases wanted with
    | nil => simp
    | cons first wanted =>
      cases hrel : isRelative name with
      | true => simp [plain, hrel, makeDirectories_of_relative]
      | false =>
        have hplain : plain (name :: names) = name :: plain names := by simp [plain, hrel]
        simp only [hplain, List.cons_prefix_cons]
        cases henter : entries.enter? name with
        | none =>
          rw [makeDirectories_of_not_enter hrel henter]
          by_cases hname : first = name
          · subst hname
            simp [blocked_cons_of_not_enter henter]
          · simp [hname]
        | some below =>
          rw [makeDirectories_of_enter hrel henter]
          by_cases hname : first = name
          · subst hname
            -- below the name, the induction hypothesis speaks of the directory entered
            simp only [at?_insert_directory, ih, true_and, blocked_cons_of_enter henter]
            by_cases hne : wanted = []
            · subst hne
              simp [not_blocked_nil]
            · rw [at?_cons_of_enter henter hne]
          · simp [hname, at?_insert_of_ne hname]

lemma makeDirectories_eq_ok_iff :
    (entries.makeDirectories path names).2 = .ok ()
      ↔ (∀ name ∈ names, isRelative name = false) ∧ ¬ entries.at?.Blocked names := by
  induction names generalizing entries with
  | nil => simp [makeDirectories, not_blocked_nil]
  | cons name names ih =>
    cases hrel : isRelative name with
    | true => simp [hrel, makeDirectories_of_relative]
    | false =>
      cases henter : entries.enter? name with
      | none =>
        rw [makeDirectories_of_not_enter hrel henter]
        simp [blocked_cons_of_not_enter henter]
      | some below =>
        rw [makeDirectories_of_enter hrel henter, blocked_cons_of_enter henter, ih]
        simp [hrel]

/-! ## Putting a file -/

lemma putFile_isOk_iff {name content : String} :
    (∃ changed, putFile path name content entries = .ok changed)
      ↔ entries.at? [name] ≠ some .directory := by
  rw [at?_singleton]
  cases hfind : NameMap.find? name entries with
  | none => simp [putFile, hfind]
  | some node => cases node <;> simp [putFile, hfind, Node.entry]

/-- A file that `putFile` puts changes what stands at its name. -/
lemma at?_putFile {name content : String} {changed : Directory}
    (h : putFile path name content entries = .ok changed) (wanted : List String) :
    changed.at? wanted = if wanted = [name] then some (.file content) else entries.at? wanted := by
  have hfree : ∀ below, NameMap.find? name entries ≠ some (.directory below) := by
    intro below hfind
    simp [putFile, hfind] at h
  -- a file was put, so nothing but its own name was bound anew
  have hchanged : changed = NameMap.insert name (.file content) entries := by
    unfold putFile at h
    split at h
    · exact absurd h (by simp)
    · simpa using h.symm
  subst hchanged
  cases wanted with
  | nil => simp
  | cons first rest =>
    by_cases hname : first = name
    · subst hname
      rw [at?_cons_of_file (NameMap.find?_insert_self first _ entries)]
      by_cases hrest : rest = []
      · simp [hrest]
      · -- neither a file nor nothing has anything below it
        cases hfind : NameMap.find? first entries with
        | none => simp [hrest, at?_cons_of_none hfind]
        | some node =>
          cases node with
          | file old => simp [hrest, at?_cons_of_file hfind]
          | directory below => exact absurd hfind (hfree below)
    · rw [at?_insert_of_ne hname, if_neg (by simp [hname])]

section

variable {name content : String} {missing : TreeError} {parent : List String}

lemma modifyAt_putFile_isOk_iff :
    (∃ changed, entries.modifyAt (putFile path name content) missing parent = .ok changed)
      ↔ entries.at? parent = some .directory ∧
          entries.at? (parent ++ [name]) ≠ some .directory := by
  induction parent generalizing entries with
  | nil => simp [modifyAt, putFile_isOk_iff]
  | cons first parent ih =>
    rw [List.cons_append]
    cases hfind : NameMap.find? first entries with
    | none => simp [modifyAt, hfind, at?_cons_of_none hfind]
    | some node =>
      cases node with
      | file old =>
        rw [at?_cons_of_file hfind]
        by_cases hparent : parent = [] <;> simp [modifyAt, hfind, hparent]
      | directory below =>
        rw [at?_cons_of_directory hfind, at?_cons_of_directory hfind, ← ih]
        simp only [modifyAt, hfind]
        exact exists_map_eq_ok_iff

/-- A file that `putFile` puts into a directory further down changes what stands at the file's
names. -/
lemma at?_modifyAt_putFile {changed : Directory}
    (h : entries.modifyAt (putFile path name content) missing parent = .ok changed)
    (wanted : List String) :
    changed.at? wanted
      = if wanted = parent ++ [name] then some (.file content) else entries.at? wanted := by
  induction parent generalizing entries changed wanted with
  | nil => exact at?_putFile h wanted
  | cons first parent ih =>
    simp only [modifyAt] at h
    split at h
    · rename_i below hfind
      obtain ⟨inner, hbelow, rfl⟩ := map_eq_ok_iff.1 h
      cases wanted with
      | nil => simp
      | cons name' rest =>
        by_cases hname : name' = first
        · subst hname
          -- below the first directory the change is the one that the induction speaks of
          rw [at?_insert_directory, ih hbelow, at?_cons_of_directory hfind]
          simp
        · rw [at?_insert_of_ne hname, if_neg (by simp [hname])]
    · exact absurd h (by simp)

end

end Directory

/-! ## Edits of a tree -/

namespace Tree

variable {tree : Tree} {path content : String}

open scoped Classical in
/-- Making a directory puts directories along the `plain` part of its segments, as far as no file is
in the way, and leaves everything else as it was. -/
theorem at?_makeDirectory (tree : Tree) (path : String) (wanted : List String) :
    (tree.makeDirectory path).1.at? wanted
      = if wanted <+: plain (segments path) ∧ ¬ tree.at?.Blocked wanted then some .directory
        else tree.at? wanted :=
  Directory.at?_makeDirectories path (segments path) tree.entries wanted

/-- A directory is made if its segments name and the way along them is not `Blocked`. -/
theorem makeDirectory_eq_ok_iff :
    (tree.makeDirectory path).2 = .ok ()
      ↔ (∀ name ∈ segments path, isRelative name = false) ∧ ¬ tree.at?.Blocked (segments path) :=
  Directory.makeDirectories_eq_ok_iff

/-- A file is written if `parentAndName?` cuts its path before a text that names, the directory in
front of the cut is there, and no directory has its segments. -/
theorem write_isOk_iff :
    (∃ written, tree.write path content = .ok written)
      ↔ ∃ parent name, parentAndName? path = some (parent, name) ∧ isRelative name = false ∧
          tree.at? (segments parent) = some .directory ∧
          tree.at? (segments path) ≠ some .directory := by
  unfold write
  cases hcut : parentAndName? path with
  | none => simp
  | some cut =>
    obtain ⟨parent, name⟩ := cut
    simp only [Option.some.injEq, Prod.mk.injEq]
    rw [segments_of_parentAndName? hcut]
    have hput : (∃ changed, tree.entries.modifyAt (Directory.putFile path name content)
          (.missingParent parent) (segments parent) = .ok changed)
        ↔ tree.at? (segments parent) = some .directory ∧
            tree.at? (segments parent ++ [name]) ≠ some .directory :=
      Directory.modifyAt_putFile_isOk_iff
    -- the cut is the only one, so only its name and its directory count
    by_cases hrel : isRelative name = true
    · simp [hrel]
    · rw [if_neg hrel, exists_map_eq_ok_iff, hput]
      simp [hrel]

lemma edit_write_of_eq_ok {written : Tree} (h : tree.write path content = .ok written) :
    tree.edit (.write path content) = (written, .ok ()) := by
  simp only [edit, h]

lemma edit_write_of_eq_error {cause : TreeError} (h : tree.write path content = .error cause) :
    tree.edit (.write path content) = (tree, .error cause) := by
  simp only [edit, h]

lemma edit_write_eq_ok_iff :
    (tree.edit (.write path content)).2 = .ok ()
      ↔ ∃ written, tree.write path content = .ok written := by
  cases hwrite : tree.write path content with
  | error cause => simp [edit_write_of_eq_error hwrite]
  | ok written => simp [edit_write_of_eq_ok hwrite]

/-- Writing a file changes what stands at its segments. -/
theorem at?_write {written : Tree} (h : tree.write path content = .ok written)
    (wanted : List String) :
    written.at? wanted
      = if wanted = segments path then some (.file content) else tree.at? wanted := by
  unfold write at h
  split at h
  · exact absurd h (by simp)
  · rename_i parent name hcut
    rw [segments_of_parentAndName? hcut]
    split at h
    · exact absurd h (by simp)
    · obtain ⟨changed, hmod, rfl⟩ := map_eq_ok_iff.1 h
      exact Directory.at?_modifyAt_putFile hmod wanted

end Tree

end MiniShell
