import MiniShell.Proofs.Tree.Making
import MiniShell.Proofs.Tree.Writing

/-!
# Edits in any order

How the making of a directory ends depends on where files are, and no making changes that. How a
write ends depends on where directories are, and no write changes that. So directories can be made
in any order, and files with different segments can be written in any order, also where some of the
edits cannot be made in full.

* `Tree.Interchanges`: two edits whose order does not count;
* `Tree.Tidy.interchanges_makeDirectory`, `Tree.Tidy.interchanges_write`: two of a kind;
* `Tree.Tidy.grow_perm`: a list of edits.
-/

namespace MiniShell

open MiniShell.Path

/-- Two edits of a kind, which do not write the same file. -/
def Edit.Independent : Edit → Edit → Prop
  | .makeDirectory _, .makeDirectory _ => True
  | .write path _, .write other _ => segments path ≠ segments other
  | _, _ => False

lemma Edit.Independent.symm {e f : Edit} (h : e.Independent f) : f.Independent e := by
  cases e with
  | makeDirectory path =>
    cases f with
    | makeDirectory other => trivial
    | write other written => exact h
  | write path content =>
    cases f with
    | makeDirectory other => exact h
    | write other written => exact Ne.symm h

namespace Tree

/-- Two edits lead to the same tree in either order, and each `edit` ends as it does on its own. -/
structure Interchanges (tree : Tree) (e f : Edit) : Prop where
  tree_eq : ((tree.edit e).1.edit f).1 = ((tree.edit f).1.edit e).1
  result_first : ((tree.edit f).1.edit e).2 = (tree.edit e).2
  result_second : ((tree.edit e).1.edit f).2 = (tree.edit f).2

variable {tree : Tree} {path other content written : String} {names : List String}

/-! ## Two directories -/

lemma at?_makeDirectory_comm (tree : Tree) (path other : String) (names : List String) :
    ((tree.makeDirectory path).1.makeDirectory other).1.at? names
      = ((tree.makeDirectory other).1.makeDirectory path).1.at? names := by
  rw [at?_makeDirectory (tree.makeDirectory path).1, at?_makeDirectory (tree.makeDirectory other).1,
    blocked_makeDirectory_iff, blocked_makeDirectory_iff, at?_makeDirectory, at?_makeDirectory]
  -- each directory is made where the way is free, which the other one does not change
  by_cases hpath : names <+: plain (segments path) ∧ ¬ tree.at?.Blocked names
  · simp [hpath]
  · simp [hpath]

theorem Tidy.interchanges_makeDirectory (h : tree.Tidy) (path other : String) :
    tree.Interchanges (.makeDirectory path) (.makeDirectory other) where
  tree_eq := by
    apply ext ((h.edit _).edit _) ((h.edit _).edit _)
    exact at?_makeDirectory_comm tree path other
  result_first := result_makeDirectory_congr (fun _ => blocked_makeDirectory_iff) path
  result_second := result_makeDirectory_congr (fun _ => blocked_makeDirectory_iff) other

/-! ## Two files -/

lemma at?_edit_write_eq_directory_iff :
    (tree.edit (.write path content)).1.at? names = some .directory
      ↔ tree.at? names = some .directory := by
  rw [at?_edit_write]
  split
  · rename_i hwritten
    obtain ⟨hok, rfl⟩ := hwritten
    rw [← result_edit_write tree path content] at hok
    have hfree := (result_edit_write_eq_ok_iff.1 hok).2.2.2
    exact ⟨fun h => by simp at h, fun h => absurd h hfree⟩
  · rfl

/-- How a write ends, by `resultOfWrite`, does not depend on a write before it. -/
lemma resultOfWrite_edit_write (tree : Tree) (path content other : String) :
    (tree.edit (.write path content)).1.at?.resultOfWrite other = tree.at?.resultOfWrite other :=
  View.resultOfWrite_congr (fun _ => at?_edit_write_eq_directory_iff) other

lemma at?_edit_write_comm (hne : segments path ≠ segments other) (names : List String) :
    ((tree.edit (.write path content)).1.edit (.write other written)).1.at? names
      = ((tree.edit (.write other written)).1.edit (.write path content)).1.at? names := by
  rw [at?_edit_write _ other, at?_edit_write _ path, at?_edit_write _ path, at?_edit_write _ other,
    resultOfWrite_edit_write, resultOfWrite_edit_write]
  by_cases hpath : names = segments path
  · -- only the first file can be here
    have hother : names ≠ segments other := fun heq => hne (hpath.symm.trans heq)
    simp [hother]
  · simp [hpath]

/-- Files with different segments can be written in either order. -/
theorem Tidy.interchanges_write (h : tree.Tidy) (hne : segments path ≠ segments other)
    (content written : String) :
    tree.Interchanges (.write path content) (.write other written) where
  tree_eq := ext ((h.edit _).edit _) ((h.edit _).edit _) (at?_edit_write_comm hne)
  result_first := by
    rw [result_edit_write, result_edit_write, resultOfWrite_edit_write]
  result_second := by
    rw [result_edit_write, result_edit_write, resultOfWrite_edit_write]

/-! ## Many edits -/

lemma Tidy.interchanges (h : tree.Tidy) {e f : Edit} (hindependent : e.Independent f) :
    tree.Interchanges e f := by
  cases e with
  | makeDirectory path =>
    cases f with
    | makeDirectory other => exact h.interchanges_makeDirectory path other
    | write other written => exact hindependent.elim
  | write path content =>
    cases f with
    | makeDirectory other => exact hindependent.elim
    | write other written => exact h.interchanges_write hindependent content written

/-- Edits of which any two are `Independent` make a tree `grow` to the same tree in any order. -/
theorem Tidy.grow_perm {edits others : List Edit} (hperm : edits.Perm others) (h : tree.Tidy)
    (hindependent : edits.Pairwise Edit.Independent) : tree.grow edits = tree.grow others := by
  induction hperm generalizing tree with
  | nil => rfl
  | cons e _ ih => exact ih (h.edit e) (List.pairwise_cons.1 hindependent).2
  | swap e f edits =>
    have hswap : f.Independent e := (List.pairwise_cons.1 hindependent).1 e List.mem_cons_self
    -- two neighbours are interchanged in a tree that the edits before them kept tidy
    show ((tree.edit f).1.edit e).1.grow edits = ((tree.edit e).1.edit f).1.grow edits
    rw [(h.interchanges hswap).tree_eq]
  | trans hfirst _ ih ih' =>
    have hmiddle := (hfirst.pairwise_iff Edit.Independent.symm).1 hindependent
    exact (ih h hindependent).trans (ih' h hmiddle)

/-- **Edits of a kind commute.** Whatever edits grew a tree: two directories can be made in either
order, and two files with different segments can be written in either order. The tree is the same in
the end, and each edit ends as it does on its own, with the same error if it fails. -/
theorem interchanges_edits (edits : List Edit) :
    let tree := Tree.empty.grow edits
    (∀ path other, tree.Interchanges (.makeDirectory path) (.makeDirectory other)) ∧
    ∀ path other content written, segments path ≠ segments other →
      tree.Interchanges (.write path content) (.write other written) := by
  intro tree
  have htidy : tree.Tidy := tidy_empty.grow edits
  exact ⟨htidy.interchanges_makeDirectory,
    fun path other content written hne => htidy.interchanges_write hne content written⟩

/-- Two directories that are both stopped, and a file below another one, which is written in both
orders while the one below it is in neither. -/
theorem interchanges_edits_nested :
    let edits : List Edit := [.makeDirectory "/a", .write "/a/f" "x"]
    let tree := Tree.empty.grow edits
    let stopped : Edit := .makeDirectory "/b/c/../d"
    let refused : Edit := .makeDirectory "/b/e/./f"
    let above : Edit := .write "/a/f" "y"
    let below : Edit := .write "/a/f//g" "z"
    segments "/a/f" ≠ segments "/a/f//g" ∧
      tree.Interchanges stopped refused ∧ tree.Interchanges above below ∧
      ((tree.edit above).1.edit below).2 = .error (.missingParent "/a/f/") ∧
      ((tree.edit below).1.edit above).2 = .ok () := by
  intro edits tree stopped refused above below
  have hne : segments "/a/f" ≠ segments "/a/f//g" := by decide +kernel
  obtain ⟨hdirectories, hfiles⟩ := interchanges_edits edits
  have hwrites : tree.Interchanges above below := hfiles "/a/f" "/a/f//g" "y" "z" hne
  refine ⟨hne, hdirectories "/b/c/../d" "/b/e/./f", hwrites, ?_, ?_⟩
  · rw [hwrites.result_second]
    decide +kernel
  · rw [hwrites.result_first]
    decide +kernel

end Tree

end MiniShell
