import MiniShell.Proofs.Tree.Extensionality

/-!
# Writing files

How a write ends is decided by where directories are, and by nothing else in the tree. A file that
is written changes what its segments lead to; a file that is not written changes nothing.

* `Tree.result_edit_write`: how a write ends, by the view;
* `Tree.at?_edit_write`: the view after a write, made or not;
* `Tree.result_edit_write_eq_ok_iff`: when a file is written, in terms of its path;
* `Tree.edit_write_spec`: all that a write does.
-/

namespace MiniShell

open MiniShell.Path

/-! ## How a write ends -/

/-- How writing a file at a path ends where the view shows what stands: the path has to end in a
text that names, in a directory that is there, and not at a directory. -/
def View.resultOfWrite (view : View) (path : String) : Except TreeError Unit :=
  match parentAndName? path with
  | none => .error (.invalidFilePath path)
  | some (parent, name) =>
    if isRelative name then .error (.relativeComponent path)
    else if view (segments parent) ≠ some .directory then .error (.missingParent parent)
    else if view (segments path) = some .directory then .error (.isADirectory path)
    else .ok ()

lemma View.resultOfWrite_congr {view other : View}
    (h : ∀ names, view names = some .directory ↔ other names = some .directory) (path : String) :
    view.resultOfWrite path = other.resultOfWrite path := by
  unfold resultOfWrite
  simp only [ne_eq, h]

namespace Directory

variable {path name content : String} {missing : TreeError}

/-- A file is refused by `putFile` at a directory only. -/
lemma result_putFile (entries : Directory) :
    (putFile path name content entries).map (fun _ => ())
      = if entries.at? [name] = some .directory then .error (.isADirectory path) else .ok () := by
  rw [at?_singleton]
  cases hfind : NameMap.find? name entries with
  | none => simp [putFile, hfind, Except.map]
  | some node => cases node <;> simp [putFile, hfind, Node.entry, Except.map]

lemma result_modifyAt_putFile (parent : List String) (entries : Directory) :
    (entries.modifyAt (putFile path name content) missing parent).map (fun _ => ())
      = if entries.at? parent ≠ some .directory then .error missing
        else if entries.at? (parent ++ [name]) = some .directory then .error (.isADirectory path)
        else .ok () := by
  induction parent generalizing entries with
  | nil => simp [modifyAt, result_putFile]
  | cons first parent ih =>
    rw [List.cons_append]
    cases hfind : NameMap.find? first entries with
    | none => simp [modifyAt, hfind, at?_cons_of_none hfind, Except.map]
    | some node =>
      cases node with
      | file old =>
        rw [at?_cons_of_file hfind]
        by_cases hparent : parent = [] <;> simp [modifyAt, hfind, hparent, Except.map]
      | directory below =>
        rw [at?_cons_of_directory hfind, at?_cons_of_directory hfind, ← ih]
        simp only [modifyAt, hfind]
        exact map_map_result _ _ _

end Directory

namespace Tree

variable {tree : Tree} {path other content : String}

lemma result_edit_write_eq_map (tree : Tree) (path content : String) :
    (tree.edit (.write path content)).2 = (tree.write path content).map fun _ => () := by
  cases hwrite : tree.write path content with
  | error cause => rw [edit_write_of_eq_error hwrite]; rfl
  | ok written => rw [edit_write_of_eq_ok hwrite]; rfl

/-- How a write ends can be read off the view, by `resultOfWrite`. -/
theorem result_edit_write (tree : Tree) (path content : String) :
    (tree.edit (.write path content)).2 = tree.at?.resultOfWrite path := by
  rw [result_edit_write_eq_map, write, View.resultOfWrite]
  cases hcut : parentAndName? path with
  | none => rfl
  | some cut =>
    obtain ⟨parent, name⟩ := cut
    simp only
    split
    · rfl
    · rw [segments_of_parentAndName? hcut, map_map_result]
      exact Directory.result_modifyAt_putFile (segments parent) tree.entries

lemma edit_write_of_ne_ok (h : (tree.edit (.write path content)).2 ≠ .ok ()) :
    (tree.edit (.write path content)).1 = tree := by
  cases hwrite : tree.write path content with
  | error cause => rw [edit_write_of_eq_error hwrite]
  | ok written =>
    rw [edit_write_of_eq_ok hwrite] at h
    exact absurd rfl h

/-- After a write the file stands at its segments, if `resultOfWrite` is good, and all else is as it
was. -/
theorem at?_edit_write (tree : Tree) (path content : String) (names : List String) :
    (tree.edit (.write path content)).1.at? names
      = if tree.at?.resultOfWrite path = .ok () ∧ names = segments path then some (.file content)
        else tree.at? names := by
  rw [← result_edit_write tree path content]
  cases hwrite : tree.write path content with
  | error cause => simp [edit_write_of_eq_error hwrite]
  | ok written => simp [edit_write_of_eq_ok hwrite, at?_write hwrite]

/-! ## When a file is written -/

/-- A file is written if its path has a slash in front of those at its end, its last segment names,
the other ones lead to a directory, and no directory has them all. -/
theorem result_edit_write_eq_ok_iff :
    (tree.edit (.write path content)).2 = .ok ()
      ↔ '/' ∈ path.toList.rdropWhile (· == '/') ∧
        (∀ name ∈ (segments path).getLast?, isRelative name = false) ∧
        tree.at? (segments path).dropLast = some .directory ∧
        tree.at? (segments path) ≠ some .directory := by
  rw [edit_write_eq_ok_iff, write_isOk_iff, ← exists_parentAndName?_iff]
  constructor
  · intro h
    obtain ⟨parent, name, hcut, hrel, hparent, hfree⟩ := h
    have hsegments := segments_of_parentAndName? hcut
    refine ⟨⟨parent, name, hcut⟩, ?_, ?_, hfree⟩
    · rw [hsegments, List.getLast?_concat]
      intro last hlast
      rw [Option.mem_some.1 hlast] at hrel
      exact hrel
    · rw [hsegments, List.dropLast_concat]
      exact hparent
  · intro h
    obtain ⟨⟨parent, name, hcut⟩, hlast, hparent, hfree⟩ := h
    have hsegments := segments_of_parentAndName? hcut
    rw [hsegments, List.getLast?_concat] at hlast
    rw [hsegments, List.dropLast_concat] at hparent
    exact ⟨parent, name, hcut, hlast name rfl, hparent, hfree⟩

/-! ## What a write does -/

lemma at?_edit_write_segments (h : (tree.edit (.write path content)).2 = .ok ()) :
    (tree.edit (.write path content)).1.at? (segments path) = some (.file content) := by
  rw [result_edit_write] at h
  rw [at?_edit_write, if_pos ⟨h, rfl⟩]

lemma at?_edit_write_of_ne {names : List String} (h : names ≠ segments path) :
    (tree.edit (.write path content)).1.at? names = tree.at? names := by
  rw [at?_edit_write, if_neg fun hwritten => h hwritten.2]

lemma lookup_edit_write_of_below (h : (tree.edit (.write path content)).2 = .ok ())
    (hbelow : IsAbove (segments path) (segments other)) :
    (tree.edit (.write path content)).1.lookup other = none := by
  have hfile := at?_edit_write_segments h
  cases hlookup : (tree.edit (.write path content)).1.lookup other with
  | none => rfl
  | some node =>
    have hnode : (tree.edit (.write path content)).1.at? (segments other) = some node.entry := by
      rw [← entry_lookup, hlookup]
      rfl
    -- a directory would be on the way, where the file is
    have hway := Directory.at?_of_prefix hnode hbelow.1 hbelow.2
    exact absurd (hfile.symm.trans hway) (by simp)

lemma at?_edit_write_of_above (h : (tree.edit (.write path content)).2 = .ok ())
    (habove : IsAbove (segments other) (segments path)) :
    tree.at? (segments other) = some .directory ∧
      (tree.edit (.write path content)).1.at? (segments other) = some .directory := by
  have hafter : (tree.edit (.write path content)).1.at? (segments other) = some .directory :=
    Directory.at?_of_prefix (at?_edit_write_segments h) habove.1 habove.2
  exact ⟨(at?_edit_write_of_ne habove.2).symm.trans hafter, hafter⟩

/-- A path that is not on the way to a written file leads to the node that it led to before. -/
lemma Tidy.lookup_edit_write (h : tree.Tidy) (hoff : ¬ segments other <+: segments path) :
    (tree.edit (.write path content)).1.lookup other = tree.lookup other := by
  apply (h.edit (.write path content)).lookup_congr h
  intro names hnames
  apply at?_edit_write_of_ne
  intro heq
  exact hoff (heq ▸ hnames)

/-- **Writing a file.** Whatever edits grew a tree: a write is made if the path has a slash in front
of those at its end, its last segment names, the other ones lead to a directory, and no directory
has them all. Then the content is read back, and for every path: the same segments lead to the file,
nothing is below it, above it are the directories that were there, and a path that is not on the way
to the file leads to the same node as before. A write that is not made leaves the tree as it was. -/
theorem edit_write_spec (edits : List Edit) (path content : String) :
    let tree := Tree.empty.grow edits
    let after := (tree.edit (.write path content)).1
    let result := (tree.edit (.write path content)).2
    (result = .ok ()
      ↔ '/' ∈ path.toList.rdropWhile (· == '/') ∧
        (∀ name ∈ (segments path).getLast?, isRelative name = false) ∧
        tree.at? (segments path).dropLast = some .directory ∧
        tree.at? (segments path) ≠ some .directory) ∧
    (result = .ok () →
      after.read? path = some content ∧
      ∀ other,
        (segments other = segments path → after.lookup other = some (.file content)) ∧
        (IsAbove (segments path) (segments other) → after.lookup other = none) ∧
        (IsAbove (segments other) (segments path) →
          tree.at? (segments other) = some .directory ∧
            after.at? (segments other) = some .directory) ∧
        (¬ segments other <+: segments path → after.lookup other = tree.lookup other)) ∧
    (result ≠ .ok () → after = tree) := by
  intro tree after result
  have htidy : tree.Tidy := tidy_empty.grow edits
  refine ⟨result_edit_write_eq_ok_iff, fun hok => ?_, edit_write_of_ne_ok⟩
  -- spellings with the same segments are one place in the tree
  have hfile : ∀ other, segments other = segments path →
      after.lookup other = some (.file content) := by
    intro other hsame
    rw [lookup_eq_file, hsame]
    exact at?_edit_write_segments hok
  have hread : after.read? path = some content := by
    rw [read?, hfile path rfl]
    rfl
  exact ⟨hread, fun other => ⟨hfile other, lookup_edit_write_of_below hok,
    at?_edit_write_of_above hok, htidy.lookup_edit_write⟩⟩

/-- A file is written again under another spelling, and a directory is not written over. -/
theorem edit_write_spec_respelled :
    let edits : List Edit := [.makeDirectory "a//b/c", .write "/a/f" "old"]
    let tree := Tree.empty.grow edits
    let written := (tree.edit (.write "a///f//" "new")).1
    (tree.edit (.write "a///f//" "new")).2 = .ok () ∧
      written.read? "a///f//" = some "new" ∧
      written.lookup "/a/f" = some (.file "new") ∧
      written.lookup "/a/f/x" = none ∧
      tree.at? ["a"] = some .directory ∧ written.at? ["a"] = some .directory ∧
      written.lookup "/a/b" = tree.lookup "/a/b" ∧
      (tree.edit (.write "/a/b" "new")).2 ≠ .ok () ∧
      (tree.edit (.write "/a/b" "new")).1 = tree := by
  intro edits tree written
  obtain ⟨hiff, hmade, -⟩ := edit_write_spec edits "a///f//" "new"
  have hok : (tree.edit (.write "a///f//" "new")).2 = .ok () := hiff.2 (by decide +kernel)
  obtain ⟨hread, hlookup⟩ := hmade hok
  obtain ⟨hfile, -, -, -⟩ := hlookup "/a/f"
  obtain ⟨-, hbelow, -, -⟩ := hlookup "/a/f/x"
  obtain ⟨-, -, habove, -⟩ := hlookup "/a"
  obtain ⟨-, -, -, hoff⟩ := hlookup "/a/b"
  obtain ⟨hiff', -, hrefused⟩ := edit_write_spec edits "/a/b" "new"
  have hnot : (tree.edit (.write "/a/b" "new")).2 ≠ .ok () := by
    intro hdone
    exact (hiff'.1 hdone).2.2.2 (by decide +kernel)
  obtain ⟨hbefore, hafter⟩ := habove (by decide +kernel)
  exact ⟨hok, hread, hfile (by decide +kernel), hbelow (by decide +kernel), hbefore, hafter,
    hoff (by decide +kernel), hnot, hrefused hnot⟩

end Tree

end MiniShell
