import MiniShell.Proofs.Tree.Extensionality

/-!
# Making directories

Directories are made one after the other along a path, and what stops the making leaves those that
were made before. Only two things can stop it: a text that moves instead of naming, and a file. A
file stops it before anything was made, since everything on the way to a file is there already.

* `Directory.result_makeDirectories_congr`: how the making ends depends on where files are;
* `Tree.GainsAlong`: directories along some names and no other change;
* `Tree.Tidy.makeDirectory_of_blocked`, `Tree.Tidy.gainsAlong_makeDirectory`: with a file on the
  way, and without one;
* `Tree.Tidy.makeDirectory_makeDirectory`: making a directory twice;
* `Tree.makeDirectory_spec`: all that making a directory does.
-/

namespace MiniShell

open MiniShell.Path

/-! ## Files on the way -/

/-- In a `Tidy` tree a file is on a way if it is on the `plain` part of the way. -/
lemma Tree.Tidy.blocked_plain_iff {tree : Tree} (h : tree.Tidy) {names : List String} :
    tree.at?.Blocked (plain names) ↔ tree.at?.Blocked names := by
  constructor
  · exact fun hblocked => hblocked.of_prefix (List.takeWhile_prefix _)
  · intro hblocked
    obtain ⟨before, content, hbefore, hfile⟩ := hblocked
    obtain ⟨node, hnode, -⟩ := Option.map_eq_some_iff.1 hfile
    obtain ⟨-, hnames⟩ := Node.Tidy.descend h hnode
    exact ⟨before, content,
      prefix_plain_iff.2 ⟨hbefore, fun name hname => (hnames name hname).not_relative⟩, hfile⟩

/-! ## How the making ends -/

/-- Where the same ways are `Blocked`, making a chain of directories ends in the same way. -/
lemma Directory.result_makeDirectories_congr {path : String} {names : List String}
    {entries others : Directory}
    (h : ∀ names, entries.at?.Blocked names ↔ others.at?.Blocked names) :
    (entries.makeDirectories path names).2 = (others.makeDirectories path names).2 := by
  induction names generalizing entries others with
  | nil => rfl
  | cons name names ih =>
    cases hrel : isRelative name with
    | true => rw [makeDirectories_of_relative hrel, makeDirectories_of_relative hrel]
    | false =>
      have hsame : entries.enter? name = none ↔ others.enter? name = none := by
        rw [← blocked_singleton_iff, h, blocked_singleton_iff]
      cases hmine : entries.enter? name with
      | none =>
        have hyours := hsame.1 hmine
        rw [makeDirectories_of_not_enter hrel hmine, makeDirectories_of_not_enter hrel hyours]
      | some below =>
        cases hyours : others.enter? name with
        | none => exact absurd (hsame.2 hyours) (by simp [hmine])
        | some twin =>
          rw [makeDirectories_of_enter hrel hmine, makeDirectories_of_enter hrel hyours]
          -- what is blocked further down is what is blocked behind the name
          apply ih
          intro rest
          rw [← blocked_cons_of_enter hmine, h, blocked_cons_of_enter hyours]

namespace Tree

variable {tree : Tree} {path : String} {names : List String}

lemma at?_makeDirectory_eq_file_iff {content : String} :
    (tree.makeDirectory path).1.at? names = some (.file content)
      ↔ tree.at? names = some (.file content) := by
  rw [at?_makeDirectory]
  split
  · rename_i hmade
    -- what was made is a directory, and no file was there
    exact ⟨fun h => by simp at h, fun h => absurd (.of_file h) hmade.2⟩
  · rfl

lemma blocked_makeDirectory_iff :
    (tree.makeDirectory path).1.at?.Blocked names ↔ tree.at?.Blocked names := by
  simp only [View.Blocked, at?_makeDirectory_eq_file_iff]

lemma result_makeDirectory_congr {other : Tree}
    (h : ∀ names, tree.at?.Blocked names ↔ other.at?.Blocked names) (path : String) :
    (tree.makeDirectory path).2 = (other.makeDirectory path).2 :=
  Directory.result_makeDirectories_congr h

/-! ## What the making changes -/

/-- From one tree to another, directories came to be along some names, and nothing else changed. -/
structure GainsAlong (before after : Tree) (names : List String) : Prop where
  /-- Along the names there are directories. -/
  directories : ∀ above, above <+: names → after.at? above = some .directory
  /-- A path that is not on the way leads to the same node as before. -/
  elsewhere : ∀ path, ¬ segments path <+: names → after.lookup path = before.lookup path
  /-- A directory that was there has the children that it had, and the directory next on the way. -/
  listed : ∀ path listings, before.list? path = some listings →
    ∃ more, after.list? path = some more ∧
      ∀ listing, listing ∈ more
        ↔ listing ∈ listings ∨
          listing.kind = .directory ∧ segments path ++ [listing.name] <+: names

lemma exists_list?_iff :
    (∃ listings, tree.list? path = some listings) ↔ tree.at? (segments path) = some .directory := by
  rw [← lookup_eq_directory, list?]
  cases tree.lookup path with
  | none => simp
  | some node => cases node <;> simp [Node.entries?]

/-- A tidy tree `GainsAlong` some names if its view shows directories there afterwards, where it
showed no file, and shows the same everywhere else. -/
lemma GainsAlong.of_view {before after : Tree} (hbefore : before.Tidy) (hafter : after.Tidy)
    (hmade : ∀ above, above <+: names → after.at? above = some .directory)
    (hkept : ∀ above, ¬ above <+: names → after.at? above = before.at? above)
    (hfree : ∀ above, above <+: names → ∀ content, before.at? above ≠ some (.file content)) :
    before.GainsAlong after names := by
  refine ⟨hmade, fun path hpath => ?_, fun path listings hlist => ?_⟩
  · -- off the way, and below what is off it, nothing changed
    apply hafter.lookup_congr hbefore
    intro further hfurther
    exact hkept further fun hpre => hpath (hfurther.trans hpre)
  · have hdirectory := exists_list?_iff.1 ⟨listings, hlist⟩
    -- a directory is still one, whether it is on the way or not
    have hstays : after.at? (segments path) = some .directory := by
      by_cases hpre : segments path <+: names
      · exact hmade _ hpre
      · rw [hkept _ hpre, hdirectory]
    obtain ⟨more, hmore⟩ := exists_list?_iff.2 hstays
    refine ⟨more, hmore, fun listing => ?_⟩
    rw [(hafter.of_list? hmore).2, (hbefore.of_list? hlist).2]
    by_cases hpre : segments path ++ [listing.name] <+: names
    · -- on the way is a directory now, and what was there before was one
      rw [hmade _ hpre]
      cases hchild : before.at? (segments path ++ [listing.name]) with
      | none => simp [Entry.kind, hpre, eq_comm]
      | some entry =>
        cases entry with
        | directory => simp [Entry.kind, hpre, eq_comm]
        | file content => exact absurd hchild (hfree _ hpre content)
    · rw [hkept _ hpre]
      simp [hpre]

namespace Tidy

lemma makeDirectory (h : tree.Tidy) (path : String) : (tree.makeDirectory path).1.Tidy :=
  h.edit (.makeDirectory path)

/-- With a file on the way, `makeDirectory` makes nothing. -/
theorem makeDirectory_of_blocked (h : tree.Tidy) (hblocked : tree.at?.Blocked (segments path)) :
    (tree.makeDirectory path).1 = tree := by
  obtain ⟨before, content, hbefore, hfile⟩ := h.blocked_plain_iff.2 hblocked
  apply Tree.Tidy.ext (h.makeDirectory path) h
  intro names
  rw [at?_makeDirectory]
  split
  · rename_i hmade
    obtain ⟨hnames, hfree⟩ := hmade
    -- the names end before the file, so there was a directory
    rcases List.prefix_or_prefix_of_prefix hnames hbefore with habove | hbeyond
    · have hne : names ≠ before :=
        fun heq => hfree ⟨before, content, heq ▸ List.prefix_rfl, hfile⟩
      exact (Directory.at?_of_prefix hfile habove hne).symm
    · exact absurd ⟨before, content, hbeyond, hfile⟩ hfree
  · rfl

/-- With no file on the way, directories are made along the `plain` part of the path. -/
theorem gainsAlong_makeDirectory (h : tree.Tidy) (hfree : ¬ tree.at?.Blocked (segments path)) :
    tree.GainsAlong (tree.makeDirectory path).1 (plain (segments path)) := by
  have hway : ∀ names, names <+: plain (segments path) → ¬ tree.at?.Blocked names :=
    fun names hnames hblocked => hfree (h.blocked_plain_iff.1 (hblocked.of_prefix hnames))
  apply GainsAlong.of_view h (h.makeDirectory path)
  · intro names hnames
    rw [at?_makeDirectory, if_pos ⟨hnames, hway names hnames⟩]
  · intro names hnames
    rw [at?_makeDirectory, if_neg fun hnew => hnames hnew.1]
  · exact fun names hnames content hfile => hway names hnames (.of_file hfile)

/-- Making a directory a second time ends as the first time and changes nothing more. -/
theorem makeDirectory_makeDirectory (h : tree.Tidy) (path : String) :
    (tree.makeDirectory path).1.makeDirectory path
      = ((tree.makeDirectory path).1, (tree.makeDirectory path).2) := by
  have hafter := h.makeDirectory path
  have htree :
      ((tree.makeDirectory path).1.makeDirectory path).1 = (tree.makeDirectory path).1 := by
    apply Tree.Tidy.ext (hafter.makeDirectory path) hafter
    intro names
    rw [at?_makeDirectory (tree.makeDirectory path).1, blocked_makeDirectory_iff]
    split
    · -- where a directory would be made, there is one since the first time
      rename_i hmade
      rw [at?_makeDirectory, if_pos hmade]
    · rfl
  have hresult : ((tree.makeDirectory path).1.makeDirectory path).2 = (tree.makeDirectory path).2 :=
    result_makeDirectory_congr (fun _ => blocked_makeDirectory_iff) path
  exact Prod.ext htree hresult

end Tidy

/-- **Making a directory.** Whatever edits grew a tree: a directory is made if all its segments name
and no file is on the way. Then there are directories along its segments, and nothing else changed.
If it cannot be made, a file on the way leaves the tree as it was, and otherwise there are
directories along the segments before the first that does not name, and nothing else changed. The
same edit once more ends in the same way and changes nothing. -/
theorem makeDirectory_spec (edits : List Edit) (path : String) :
    let tree := Tree.empty.grow edits
    let after := (tree.makeDirectory path).1
    let result := (tree.makeDirectory path).2
    (result = .ok ()
      ↔ (∀ name ∈ segments path, isRelative name = false) ∧
        ¬ tree.at?.Blocked (segments path)) ∧
    (result = .ok () → tree.GainsAlong after (segments path)) ∧
    (result ≠ .ok () →
      (tree.at?.Blocked (segments path) → after = tree) ∧
      (¬ tree.at?.Blocked (segments path) → tree.GainsAlong after (plain (segments path)))) ∧
    after.makeDirectory path = (after, result) := by
  intro tree after result
  have htidy : tree.Tidy := tidy_empty.grow edits
  refine ⟨makeDirectory_eq_ok_iff, fun hok => ?_, fun _ => ⟨htidy.makeDirectory_of_blocked,
    htidy.gainsAlong_makeDirectory⟩, htidy.makeDirectory_makeDirectory path⟩
  obtain ⟨hnames, hfree⟩ := makeDirectory_eq_ok_iff.1 hok
  have hgains := htidy.gainsAlong_makeDirectory hfree
  rw [plain_of_forall hnames] at hgains
  exact hgains

/-- One directory is made to its end, one stops at a file, and one stops at a text that moves. -/
theorem makeDirectory_spec_stopped :
    let edits : List Edit := [.makeDirectory "/a", .write "/a/f" "x"]
    let tree := Tree.empty.grow edits
    let stopped := (tree.makeDirectory "/b/c/../d").1
    (tree.makeDirectory "/a//b").2 = .ok () ∧
      (tree.makeDirectory "/a//b").1.at? ["a", "b"] = some .directory ∧
      (tree.makeDirectory "/a//b").1.lookup "/a/f" = tree.lookup "/a/f" ∧
      (tree.makeDirectory "/a/f/.").2 ≠ .ok () ∧ (tree.makeDirectory "/a/f/.").1 = tree ∧
      (tree.makeDirectory "/b/c/../d").2 ≠ .ok () ∧
      stopped.at? ["b", "c"] = some .directory ∧ stopped.lookup "/d" = tree.lookup "/d" ∧
      stopped.makeDirectory "/b/c/../d" = (stopped, (tree.makeDirectory "/b/c/../d").2) := by
  intro edits tree stopped
  obtain ⟨hiff, hmade, -, -⟩ := makeDirectory_spec edits "/a//b"
  have hok : (tree.makeDirectory "/a//b").2 = .ok () :=
    hiff.2 (makeDirectory_eq_ok_iff.1 (by decide +kernel))
  obtain ⟨hdirectories, helsewhere, -⟩ := hmade hok
  -- a file in the way
  obtain ⟨hiffFile, -, hrefused, -⟩ := makeDirectory_spec edits "/a/f/."
  have hblocked : tree.at?.Blocked (segments "/a/f/.") :=
    ⟨["a", "f"], "x", by decide +kernel, by decide +kernel⟩
  have hnotFile : (tree.makeDirectory "/a/f/.").2 ≠ .ok () :=
    fun hdone => (hiffFile.1 hdone).2 hblocked
  -- a text in the way that moves
  obtain ⟨hiffText, -, hstopped, htwice⟩ := makeDirectory_spec edits "/b/c/../d"
  have hnotText : (tree.makeDirectory "/b/c/../d").2 ≠ .ok () :=
    fun hdone => absurd ((hiffText.1 hdone).1 ".." (by decide +kernel)) (by decide)
  have hfree : ¬ tree.at?.Blocked (segments "/b/c/../d") := by
    rw [← (tidy_empty.grow edits).blocked_plain_iff]
    exact (makeDirectory_eq_ok_iff.1
      (show (tree.makeDirectory "/b/c").2 = .ok () by decide +kernel)).2
  obtain ⟨hbefore, haside, -⟩ := (hstopped hnotText).2 hfree
  exact ⟨hok, hdirectories ["a", "b"] (by decide +kernel),
    helsewhere "/a/f" (by decide +kernel), hnotFile, (hrefused hnotFile).1 hblocked, hnotText,
    hbefore ["b", "c"] (by decide +kernel), haside "/d" (by decide +kernel), htwice⟩

end Tree

end MiniShell
