import MiniShell.Proofs.Tree.Edit

/-!
# Layouts

A layout lists the directories that edits ask for and the files that they write. A tree that grew
by edits is described by the layout of these edits, and whether one more edit can be made in full
is decided by the layout alone.

* `Layout.Describes.edit_eq_ok_iff`, `Layout.Describes.edit`: one edit;
* `Layout.Describes.editAll_isOk_iff`, `Layout.Describes.editAll`: a list of edits.
-/

namespace MiniShell

open MiniShell.Path

def Edit.directory? : Edit → Option (List String)
  | .makeDirectory path => some (segments path)
  | .write _ _ => none

def Edit.file? : Edit → Option (List String × String)
  | .makeDirectory _ => none
  | .write path content => some (segments path, content)

/-- The directories that were asked for and the files that were written, in order. -/
structure Layout where
  directories : List (List String)
  files : List (List String × String)

namespace Layout

def root : Layout :=
  { directories := [[]], files := [] }

/-- The layout after more edits: each adds its `Edit.directory?` or its `Edit.file?`. -/
def addAll (layout : Layout) (edits : List Edit) : Layout :=
  { directories := layout.directories ++ edits.filterMap Edit.directory?
    files := layout.files ++ edits.filterMap Edit.file? }

/-- Do the names lead to one of the `directories` of the layout or lie on the way to one? -/
def Covers (layout : Layout) (names : List String) : Prop :=
  ∃ directory ∈ layout.directories, names <+: directory

instance (layout : Layout) (names : List String) : Decidable (layout.Covers names) :=
  inferInstanceAs (Decidable (∃ directory ∈ layout.directories, names <+: directory))

/-- What was last written at the names, among the `files` of the layout. -/
def content? (layout : Layout) (names : List String) : Option String :=
  ((layout.files.filter fun file => file.1 = names).getLast?).map Prod.snd

/-- The `View` of a tree that the layout stands for: what stands at the names. -/
def at? (layout : Layout) : View := fun names =>
  match layout.content? names with
  | some content => some (.file content)
  | none => if layout.Covers names then some .directory else none

/-- A layout has a root, and none of its `directories` at a file or below it. -/
structure Consistent (layout : Layout) : Prop where
  rooted : [] ∈ layout.directories
  apart : ∀ file ∈ layout.files, ¬ layout.Covers file.1

/-- Can the edit be made in full where the layout holds? -/
def Fits (layout : Layout) : Edit → Prop
  | .makeDirectory path =>
    (∀ name ∈ segments path, isRelative name = false) ∧
      ∀ file ∈ layout.files, ¬ file.1 <+: segments path
  | .write path _ =>
    ∃ parent name, parentAndName? path = some (parent, name) ∧ isRelative name = false ∧
      layout.Covers (segments parent) ∧ ¬ layout.Covers (segments path)

/-- Can the edits be made in full, each where it `Fits` what those before it have made? -/
def Admits : Layout → List Edit → Prop
  | _, [] => True
  | layout, e :: edits => layout.Fits e ∧ (layout.addAll [e]).Admits edits

/-- A tree that looks as a `Consistent` layout says. -/
structure Describes (layout : Layout) (tree : Tree) : Prop where
  consistent : layout.Consistent
  view : ∀ names, tree.at? names = layout.at? names

variable {layout : Layout} {names : List String} {path content : String}

/-! ## Reading a layout -/

lemma content?_eq_none_iff :
    layout.content? names = none ↔ ∀ file ∈ layout.files, file.1 ≠ names := by
  rw [content?, Option.map_eq_none_iff, List.getLast?_eq_none_iff, List.filter_eq_nil_iff]
  simp

lemma at?_of_content (h : layout.content? names = some content) :
    layout.at? names = some (.file content) := by
  simp [at?, h]

lemma at?_of_content_none (h : layout.content? names = none) :
    layout.at? names = if layout.Covers names then some .directory else none := by
  simp [at?, h]

/-- The way along the names is `Blocked` by the files on it. -/
lemma blocked_iff : layout.at?.Blocked names ↔ ∃ file ∈ layout.files, file.1 <+: names := by
  constructor
  · intro h
    obtain ⟨before, content, hbefore, hfile⟩ := h
    by_contra hnone
    -- otherwise nothing was written where the view has a file
    have hcontent : layout.content? before = none := by
      rw [content?_eq_none_iff]
      intro file hmem hnames
      exact hnone ⟨file, hmem, hnames ▸ hbefore⟩
    rw [at?_of_content_none hcontent] at hfile
    split at hfile <;> simp at hfile
  · intro h
    obtain ⟨file, hmem, hpre⟩ := h
    cases hcontent : layout.content? file.1 with
    | none => exact absurd rfl (content?_eq_none_iff.1 hcontent file hmem)
    | some content => exact ⟨file.1, content, hpre, at?_of_content hcontent⟩

namespace Consistent

lemma covers_nil (h : layout.Consistent) : layout.Covers [] :=
  ⟨[], h.rooted, List.prefix_rfl⟩

/-- Directories stand exactly where the layout `Covers` the names. -/
lemma at?_eq_directory_iff (h : layout.Consistent) :
    layout.at? names = some .directory ↔ layout.Covers names := by
  cases hcontent : layout.content? names with
  | none => simp [at?_of_content_none hcontent]
  | some content =>
    simp only [at?_of_content hcontent, Option.some.injEq, reduceCtorEq, false_iff]
    intro hcovers
    have hnone : layout.content? names = none := by
      rw [content?_eq_none_iff]
      intro file hmem hnames
      exact h.apart file hmem (hnames ▸ hcovers)
    rw [hnone] at hcontent
    exact absurd hcontent (by simp)

end Consistent

/-! ## More edits -/

lemma addAll_append (first second : List Edit) :
    layout.addAll (first ++ second) = (layout.addAll first).addAll second := by
  simp [addAll]

lemma addAll_makeDirectory :
    layout.addAll [.makeDirectory path]
      = { layout with directories := layout.directories ++ [segments path] } := by
  rw [addAll]
  simp [List.filterMap_cons, Edit.directory?, Edit.file?]

lemma addAll_write :
    layout.addAll [.write path content]
      = { layout with files := layout.files ++ [(segments path, content)] } := by
  rw [addAll]
  simp [List.filterMap_cons, Edit.directory?, Edit.file?]

lemma covers_addAll_makeDirectory :
    (layout.addAll [.makeDirectory path]).Covers names
      ↔ layout.Covers names ∨ names <+: segments path := by
  simp [Covers, addAll_makeDirectory, or_and_right, exists_or]

lemma covers_addAll_write :
    (layout.addAll [.write path content]).Covers names ↔ layout.Covers names := by
  simp [Covers, addAll_write]

lemma content?_addAll_makeDirectory :
    (layout.addAll [.makeDirectory path]).content? names = layout.content? names := by
  simp [content?, addAll_makeDirectory]

lemma content?_addAll_write :
    (layout.addAll [.write path content]).content? names
      = if names = segments path then some content else layout.content? names := by
  by_cases hnames : names = segments path
  · simp [content?, addAll_write, hnames, List.filter_append]
  · simp [content?, addAll_write, hnames, Ne.symm hnames, List.filter_append]

/-- An edit that `Fits` keeps a layout consistent. -/
lemma Consistent.addAll {e : Edit} (h : layout.Consistent) (hfits : layout.Fits e) :
    (layout.addAll [e]).Consistent := by
  refine ⟨List.mem_append_left _ h.rooted, ?_⟩
  cases e with
  | makeDirectory path =>
    intro file hmem hcovers
    have hold : file ∈ layout.files := by simpa [addAll_makeDirectory] using hmem
    rcases covers_addAll_makeDirectory.1 hcovers with hcovers | hpre
    · exact h.apart file hold hcovers
    · exact hfits.2 file hold hpre
  | write path content =>
    -- a file covers nothing, and was not written over a directory
    obtain ⟨parent, name, -, -, -, hfree⟩ := hfits
    intro file hmem hcovers
    rw [covers_addAll_write] at hcovers
    rw [addAll_write, List.mem_append, List.mem_singleton] at hmem
    rcases hmem with hold | rfl
    · exact h.apart file hold hcovers
    · exact hfree hcovers

/-! ## What a layout says of a tree -/

namespace Describes

variable {tree : Tree}

lemma empty : root.Describes Tree.empty := by
  refine ⟨⟨by simp [root], by simp [root]⟩, fun names => ?_⟩
  cases names with
  | nil => rfl
  | cons name names =>
    have hempty : Tree.empty.at? (name :: names) = none := Directory.at?_empty_cons
    simp [hempty, at?, content?, root, Covers]

/-- An edit is made in full exactly if it `Fits`. -/
theorem edit_eq_ok_iff (h : layout.Describes tree) (e : Edit) :
    (tree.edit e).2 = .ok () ↔ layout.Fits e := by
  have hview : tree.at? = layout.at? := funext h.view
  cases e with
  | makeDirectory path =>
    rw [Tree.edit, Tree.makeDirectory_eq_ok_iff, hview, blocked_iff, Fits]
    simp
  | write path content =>
    rw [Tree.edit_write_eq_ok_iff, Tree.write_isOk_iff, hview, Fits]
    simp only [h.consistent.at?_eq_directory_iff, ne_eq]

/-- An edit that `Fits` takes the tree where it takes the layout. -/
theorem edit (h : layout.Describes tree) {e : Edit} (hfits : layout.Fits e) :
    (layout.addAll [e]).Describes (tree.edit e).1 := by
  refine ⟨h.consistent.addAll hfits, fun names => ?_⟩
  have hok := (h.edit_eq_ok_iff e).2 hfits
  cases e with
  | makeDirectory path =>
    have hview : tree.at? = layout.at? := funext h.view
    have hfree : names <+: segments path → ¬ layout.at?.Blocked names := by
      intro hpre hblocked
      obtain ⟨file, hmem, hfile⟩ := blocked_iff.1 hblocked
      exact hfits.2 file hmem (hfile.trans hpre)
    have hmake := Tree.at?_makeDirectory tree path names
    rw [hview, plain_of_forall hfits.1] at hmake
    rw [Tree.edit, hmake]
    by_cases hpre : names <+: segments path
    · -- nothing was written on the way to the new directory
      have hnone : layout.content? names = none := by
        rw [content?_eq_none_iff]
        intro file hmem hnames
        exact hfits.2 file hmem (hnames ▸ hpre)
      have hnone' : (layout.addAll [.makeDirectory path]).content? names = none :=
        content?_addAll_makeDirectory.trans hnone
      rw [if_pos ⟨hpre, hfree hpre⟩, at?_of_content_none hnone']
      simp [covers_addAll_makeDirectory, hpre]
    · rw [if_neg (fun hc => hpre hc.1)]
      simp [at?, content?_addAll_makeDirectory, covers_addAll_makeDirectory, hpre]
  | write path content =>
    obtain ⟨written, hwritten⟩ := Tree.edit_write_eq_ok_iff.1 hok
    -- both views change at the segments of the path only
    rw [Tree.edit_write_of_eq_ok hwritten, Tree.at?_write hwritten, h.view]
    by_cases hnames : names = segments path
    · simp [at?, content?_addAll_write, hnames]
    · simp [at?, content?_addAll_write, covers_addAll_write, hnames]

/-- Edits are made in full exactly if the layout `Admits` them. -/
theorem editAll_isOk_iff (h : layout.Describes tree) (edits : List Edit) :
    (∃ edited, tree.editAll edits = .ok edited) ↔ layout.Admits edits := by
  induction edits generalizing layout tree with
  | nil => simp [Tree.editAll, Admits]
  | cons e edits ih =>
    have hstep := h.edit_eq_ok_iff e
    rw [Tree.editAll, Admits]
    cases hedit : tree.edit e with
    | mk edited result =>
      rw [hedit] at hstep
      cases result with
      | error cause =>
        -- the edit failed, so it does not fit and admits nothing after it
        have hunfit : ¬ layout.Fits e := fun hfits => by simpa using hstep.2 hfits
        simp [hunfit]
      | ok =>
        have hfits : layout.Fits e := hstep.1 rfl
        have hnext := h.edit hfits
        rw [hedit] at hnext
        simp [hfits, ih hnext]

/-- Edits that `editAll` makes in full take the tree where they take the layout. -/
theorem editAll (h : layout.Describes tree) {edits : List Edit} {edited : Tree}
    (hok : tree.editAll edits = .ok edited) : (layout.addAll edits).Describes edited := by
  induction edits generalizing layout tree with
  | nil =>
    rw [Tree.editAll, Except.ok.injEq] at hok
    subst hok
    simpa [addAll] using h
  | cons e edits ih =>
    rw [Tree.editAll] at hok
    split at hok
    · rename_i next hedit
      have hfits : layout.Fits e := (h.edit_eq_ok_iff e).1 (by rw [hedit])
      have hnext := h.edit hfits
      rw [hedit] at hnext
      have hrest := ih hnext hok
      rwa [← addAll_append] at hrest
    · exact absurd hok (by simp)

end Describes

lemma admits_append (first second : List Edit) :
    layout.Admits (first ++ second)
      ↔ layout.Admits first ∧ (layout.addAll first).Admits second := by
  induction first generalizing layout with
  | nil => simp [Admits, addAll]
  | cons e first ih =>
    have hadd : (layout.addAll [e]).addAll first = layout.addAll (e :: first) :=
      (addAll_append [e] first).symm
    rw [List.cons_append, Admits, Admits, ih, hadd, and_assoc]

end Layout

end MiniShell
