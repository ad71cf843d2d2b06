import MiniShell.Proofs.Path.Offsets
import MiniShell.Proofs.Seed.Tree
import MiniShell.Proofs.Tree.Writing

/-!
# Parents of configured files

The path of a configured file is cut twice: once for the directory that is made, and once more for
the directory that the file is written into. However the path is spelled, the two cuts lead to the
same directory, so no configured file misses its parent.

* `TreeError.says_missingParent_iff`: what only an error about a missing parent says;
* `Tree.FindsParents`: edits that miss no parent, whatever tree they start from;
* `SeedFile.findsParents_edits`, `Config.seededTree_ne_missingParent`: configured files and whole
  configurations;
* `SeedFile.parents_agree`: the two cuts.
-/

namespace MiniShell

open MiniShell.Path

/-! ## Errors about missing parents -/

namespace TreeError

/-- What an error says, its `message` without the path that it quotes. -/
def words : TreeError → String
  | relativeComponent _ => "relative component in path: "
  | notADirectory _ => "not a directory: "
  | fileExists _ => "file exists: "
  | invalidFilePath _ => "invalid file path: "
  | missingParent _ => "parent directory does not exist: "
  | isADirectory _ => "is a directory: "

def path : TreeError → String
  | relativeComponent path | notADirectory path | fileExists path | invalidFilePath path
  | missingParent path | isADirectory path => path

lemma message_eq (cause : TreeError) : cause.message = cause.words ++ cause.path := by
  cases cause <;> rfl

/-- Only a `missingParent` error starts by saying that the parent does not exist. -/
theorem says_missingParent_iff {cause : TreeError} :
    "parent directory does not exist".toList <+: cause.message.toList
      ↔ ∃ parent, cause = .missingParent parent := by
  rw [message_eq, String.toList_append]
  -- the words of the other errors start with another letter
  cases cause <;> simp [words]

end TreeError

namespace Directory

variable {entries : Directory} {path parent : String} {names : List String}

/-- Making a chain of directories by `makeDirectories` misses no parent. -/
lemma makeDirectories_ne_missingParent :
    (entries.makeDirectories path names).2 ≠ .error (.missingParent parent) := by
  induction names generalizing entries with
  | nil => simp [makeDirectories]
  | cons name names ih =>
    cases hrel : isRelative name with
    | true => simp [makeDirectories_of_relative hrel]
    | false =>
      cases henter : entries.enter? name with
      | none =>
        rw [makeDirectories_of_not_enter hrel henter]
        -- at a file the error is about the file, or about what comes behind it
        cases names with
        | nil => simp [TreeError.belowFile]
        | cons next names =>
          cases hnext : isRelative next <;> simp [TreeError.belowFile, hnext]
      | some below =>
        rw [makeDirectories_of_enter hrel henter]
        exact ih

end Directory

namespace Tree

variable {tree : Tree} {path parent content : String} {e : Edit} {edits : List Edit}
  {cause : TreeError}

/-! ## Edits that miss no parent -/

/-- A write misses the directory of `parentAndName?`, if that is not there. -/
lemma edit_write_eq_missingParent
    (h : (tree.edit (.write path content)).2 = .error (.missingParent parent)) :
    ∃ name, parentAndName? path = some (parent, name) ∧
      tree.at? (segments parent) ≠ some .directory := by
  rw [result_edit_write, View.resultOfWrite] at h
  cases hcut : parentAndName? path with
  | none => simp [hcut] at h
  | some cut =>
    obtain ⟨before, name⟩ := cut
    simp only [hcut] at h
    split at h
    · simp at h
    · split at h
      · rename_i hmissing
        obtain rfl : before = parent := by simpa using h
        exact ⟨name, rfl, hmissing⟩
      · split at h <;> simp at h

lemma at?_makeDirectory_of_eq_ok (h : (tree.makeDirectory path).2 = .ok ()) :
    (tree.makeDirectory path).1.at? (segments path) = some .directory := by
  obtain ⟨hnames, hfree⟩ := makeDirectory_eq_ok_iff.1 h
  rw [at?_makeDirectory, if_pos ⟨(plain_of_forall hnames).symm ▸ List.prefix_rfl, hfree⟩]

lemma editAll_cons_eq_error_iff :
    tree.editAll (e :: edits) = .error cause
      ↔ (tree.edit e).2 = .error cause ∨
        (tree.edit e).2 = .ok () ∧ (tree.edit e).1.editAll edits = .error cause := by
  rw [editAll]
  cases hedit : tree.edit e with
  | mk edited result => cases result <;> simp

/-- Edits in two parts make `editAll` fail as the first part does, or after it as the second. -/
lemma editAll_append_eq_error_iff {first second : List Edit} :
    tree.editAll (first ++ second) = .error cause
      ↔ tree.editAll first = .error cause ∨
        ∃ edited, tree.editAll first = .ok edited ∧ edited.editAll second = .error cause := by
  induction first generalizing tree with
  | nil => simp [editAll]
  | cons e first ih =>
    rw [List.cons_append, editAll, editAll]
    cases hedit : tree.edit e with
    | mk edited result =>
      cases result with
      | error other => simp
      | ok => exact ih

/-- Edits that miss no parent, whatever tree they start from. -/
def FindsParents (edits : List Edit) : Prop :=
  ∀ (tree : Tree) (parent : String), tree.editAll edits ≠ .error (.missingParent parent)

namespace FindsParents

lemma nil : FindsParents [] := by
  intro tree parent h
  simp [editAll] at h

lemma append {first second : List Edit} (hfirst : FindsParents first)
    (hsecond : FindsParents second) : FindsParents (first ++ second) := by
  intro tree parent h
  rcases editAll_append_eq_error_iff.1 h with h | ⟨edited, -, h⟩
  · exact hfirst tree parent h
  · exact hsecond edited parent h

/-- Edits after a `makeDirectory` find their parents if they do so where that directory is. -/
lemma makeDirectory_cons
    (h : ∀ (tree : Tree) (parent : String), tree.at? (segments path) = some .directory →
      tree.editAll edits ≠ .error (.missingParent parent)) :
    FindsParents (.makeDirectory path :: edits) := by
  intro tree parent hfail
  rcases editAll_cons_eq_error_iff.1 hfail with hfirst | ⟨hmade, hrest⟩
  · exact Directory.makeDirectories_ne_missingParent hfirst
  · exact h _ parent (at?_makeDirectory_of_eq_ok hmade) hrest

end FindsParents

lemma editAll_write_ne_missingParent
    (h : ∀ before name, parentAndName? path = some (before, name) →
      tree.at? (segments before) = some .directory) :
    tree.editAll [.write path content] ≠ .error (.missingParent parent) := by
  intro hfail
  rcases editAll_cons_eq_error_iff.1 hfail with hwrite | ⟨-, hnone⟩
  · obtain ⟨name, hcut, hmissing⟩ := edit_write_eq_missingParent hwrite
    exact hmissing (h parent name hcut)
  · exact FindsParents.nil _ parent hnone

end Tree

/-! ## Configured files -/

namespace SeedFile

/-- The edits that add a file are a write, after the directory that `cut?` has in front of the last
slash is made, if there is any. -/
lemma edits_eq (path content : String) :
    ({ path, content } : SeedFile).edits
      = (((cut? path).map Prod.fst).filter (· ≠ "")).toList.map .makeDirectory
        ++ [.write path content] := by
  rw [edits]
  cases hcut : cut? path with
  | none => simp
  | some cut =>
    obtain ⟨before, name⟩ := cut
    by_cases hbefore : before = "" <;> simp [hbefore, Option.filter]

theorem findsParents_edits (file : SeedFile) : Tree.FindsParents file.edits := by
  rw [edits]
  cases hcut : cut? file.path with
  | none =>
    -- such a path lies in no directory
    intro tree parent
    apply Tree.editAll_write_ne_missingParent
    simp [parentAndName?, hcut]
  | some cut =>
    obtain ⟨before, name⟩ := cut
    have hparent : ∀ parent last, parentAndName? file.path = some (parent, last) →
        segments parent = segments before := by
      intro parent last h
      rw [parentAndName?, hcut, Option.map_some, Option.some.injEq, Prod.mk.injEq] at h
      rw [← h.1, segments_parent]
    simp only
    split
    · rename_i hbefore
      intro tree parent
      apply Tree.editAll_write_ne_missingParent
      intro other last h
      rw [hparent other last h, hbefore, segments_empty]
      exact Directory.at?_nil
    · apply Tree.FindsParents.makeDirectory_cons
      intro tree parent hthere
      apply Tree.editAll_write_ne_missingParent
      intro other last h
      rw [hparent other last h]
      exact hthere

lemma findsParents_flatMap_edits (files : List SeedFile) :
    Tree.FindsParents (files.flatMap edits) := by
  induction files with
  | nil => exact .nil
  | cons file files ih =>
    rw [List.flatMap_cons]
    exact file.findsParents_edits.append ih

end SeedFile

/-- No configuration fails to have a `seededTree` because a parent is missing, usable or not. -/
theorem Config.seededTree_ne_missingParent (config : Config) (parent : String) :
    config.seededTree ≠ .error (.missingParent parent) := by
  intro h
  rw [seededTree, edits] at h
  rcases Tree.editAll_append_eq_error_iff.1 h with hstock | ⟨edited, -, hrest⟩
  · obtain ⟨tree, htree⟩ :=
      (Layout.Describes.empty.editAll_isOk_iff Stock.edits).2 Stock.admits_edits
    rw [htree] at hstock
    exact absurd hstock (by simp)
  · have hfind : Tree.FindsParents
        (.makeDirectory config.home :: config.files.flatMap SeedFile.edits) :=
      .makeDirectory_cons fun tree parent _ =>
        SeedFile.findsParents_flatMap_edits config.files tree parent
    exact hfind edited parent hrest

/-! ## The two cuts -/

namespace SeedFile

/-- The cut for the directory that is made and the cut for the directory that is written into lead
to the same directory. -/
structure ParentsAgree (path : String) : Prop where
  /-- What a write takes apart is cut out of the path. -/
  written : parentAndNameInBytes? path = some (parentAndName? path)
  /-- A file is written after the directory cut out of its path is made, if there is any. -/
  made : ∃ made?, directoryInBytes? path = some made? ∧ ∀ content,
    ({ path, content } : SeedFile).edits = made?.toList.map .makeDirectory ++ [.write path content]
  /-- The name that is cut off is the last segment, and the parent has the others. -/
  named : ∀ parent name, parentAndName? path = some (parent, name) →
    (segments path).getLast? = some name ∧ segments path = segments parent ++ [name]
  /-- The directory that is made has the segments of the parent. -/
  below : ∀ parent name i, parentAndName? path = some (parent, name) →
    lastSlash? (trimSlashes path) = some i → 0 < i →
      ∃ before, directoryInBytes? path = some (some before) ∧ segments before = segments parent
  /-- Where no directory is made because nothing is in front of the slash, the parent is the
  root. -/
  atRoot : ∀ parent name, parentAndName? path = some (parent, name) →
    lastSlash? (trimSlashes path) = some 0 → parent = "/" ∧ directoryInBytes? path = some none
  /-- A path that lies in no directory has slashes at its end only. -/
  unnamed : parentAndName? path = none → '/' ∉ (trimSlashes path).toList

lemma parentsAgree (path : String) : ParentsAgree path where
  written := parentAndNameInBytes?_eq path
  made := ⟨_, directoryInBytes?_eq path, edits_eq path⟩
  named parent name h := by
    have hsegments := segments_of_parentAndName? h
    rw [hsegments, List.getLast?_concat]
    exact ⟨rfl, rfl⟩
  below parent name i h hslash hpos := by
    obtain ⟨⟨before, last⟩, hcut, hparent⟩ := Option.map_eq_some_iff.1 h
    rw [lastSlash?_of_cut? hcut, Option.some.injEq] at hslash
    -- the slash is not at the start, so there is text in front of it
    have hne : before ≠ "" := by
      rintro rfl
      exact absurd hslash (by simp; omega)
    simp only [Prod.mk.injEq] at hparent
    refine ⟨before, ?_, ?_⟩
    · rw [directoryInBytes?_eq, hcut]
      simp [Option.filter, hne]
    · rw [← hparent.1, segments_parent]
  atRoot parent name h hslash := by
    obtain ⟨⟨before, last⟩, hcut, hparent⟩ := Option.map_eq_some_iff.1 h
    rw [lastSlash?_of_cut? hcut, Option.some.injEq, String.utf8ByteSize_eq_zero_iff] at hslash
    subst hslash
    simp only [Prod.mk.injEq] at hparent
    refine ⟨hparent.1.symm, ?_⟩
    rw [directoryInBytes?_eq, hcut]
    rfl
  unnamed h := by
    rw [trimSlashes, String.toList_ofList]
    exact cut?_eq_none_iff_no_slash.1 (Option.map_eq_none_iff.1 h)

/-- **One parent.** However a path is spelled, the directory that is made for a file has the
segments of the one that the file is written into, as `ParentsAgree` says. So no configuration,
usable or not, fails to give a tree with an error that says that a parent does not exist. -/
theorem parents_agree :
    (∀ path, ParentsAgree path) ∧
      ∀ (config : Config) (cause : TreeError), config.seededTree = .error cause →
        ¬ "parent directory does not exist".toList <+: cause.message.toList := by
  refine ⟨parentsAgree, fun config cause hfail hsays => ?_⟩
  obtain ⟨parent, rfl⟩ := TreeError.says_missingParent_iff.1 hsays
  exact config.seededTree_ne_missingParent parent hfail

/-- A name of two bytes between slashes, a file at the root, and a file in no directory, which is
not added. -/
theorem parents_agree_respelled :
    let config : Config := { files := [⟨"//é//b//", ""⟩, ⟨"b//", ""⟩] }
    parentAndName? "//é//b//" = some ("//é/", "b") ∧
      segments "//é//b//" = segments "//é/" ++ ["b"] ∧
      (∃ before, directoryInBytes? "//é//b//" = some (some before) ∧
        segments before = segments "//é/") ∧
      parentAndName? "/b/" = some ("/", "b") ∧ directoryInBytes? "/b/" = some none ∧
      parentAndName? "b//" = none ∧ '/' ∉ (trimSlashes "b//").toList ∧
      ∃ cause, config.seededTree = .error cause ∧
        ¬ "parent directory does not exist".toList <+: cause.message.toList := by
  intro config
  obtain ⟨hpaths, hseeded⟩ := parents_agree
  have hdeep : parentAndName? "//é//b//" = some ("//é/", "b") := by decide +kernel
  have hslash : lastSlash? (trimSlashes "//é//b//") = some 5 := by decide +kernel
  have htop : parentAndName? "/b/" = some ("/", "b") := by decide +kernel
  have hfirst : lastSlash? (trimSlashes "/b/") = some 0 := by decide +kernel
  have hnowhere : parentAndName? "b//" = none := by decide +kernel
  have hnot : config.seededTree.isOk = false := by decide +kernel
  refine ⟨hdeep, ((hpaths _).named _ _ hdeep).2, (hpaths _).below _ _ 5 hdeep hslash (by decide),
    htop, ((hpaths _).atRoot _ _ htop hfirst).2, hnowhere, (hpaths _).unnamed hnowhere, ?_⟩
  cases hfail : config.seededTree with
  | error cause => exact ⟨cause, rfl, hseeded config cause hfail⟩
  | ok tree => simp [hfail, Except.isOk, Except.toBool] at hnot

end SeedFile

end MiniShell
