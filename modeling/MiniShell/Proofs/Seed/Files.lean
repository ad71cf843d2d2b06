import MiniShell.Proofs.Seed.Layout
import MiniShell.Seed.Tree

/-!
# Configured files in a layout

A configured file asks for the directory it lies in and is then written. When a list of such files
can be added to a layout is said without an order: no file may lie above another one or above
itself being a directory.

* `Layout.admits_files_iff`: when the files can be added;
* `Layout.covers_addAll_files`, `Layout.files_addAll_files`: the layout afterwards.
-/

namespace MiniShell

open MiniShell.Path

namespace SeedFile

/-- The `Path.segments` that lead to a configured file. -/
def names (file : SeedFile) : List String :=
  segments file.path

lemma filterMap_file?_edits (file : SeedFile) :
    file.edits.filterMap Edit.file? = [(file.names, file.content)] := by
  unfold edits
  split
  · rfl
  · split <;> rfl

/-- The directory that `SeedFile.edits` asks for is the one the file lies in. -/
lemma covers_edits {file : SeedFile} {names : List String}
    (habs : file.path.toList.head? = some '/') (hne : names ≠ []) :
    (∃ directory ∈ file.edits.filterMap Edit.directory?, names <+: directory)
      ↔ IsAbove names file.names := by
  unfold edits
  split
  · rename_i hcut
    have hnil : file.names = [] := (cut?_eq_none_iff habs).1 hcut
    simp [hnil, Edit.directory?, not_isAbove_nil]
  · rename_i before name hcut
    have hnames : file.names = segments before ++ [name] := segments_of_cut? hcut
    rw [hnames, isAbove_concat]
    split
    · rename_i hbefore
      have hnil : segments before = [] := by rw [hbefore, segments_empty]
      simp [Edit.directory?, hnil, hne]
    · simp [Edit.directory?]

end SeedFile

namespace Layout

variable {layout : Layout} {file : SeedFile} {files : List SeedFile} {names : List String}

/-! ## One file -/

lemma covers_addAll_edits (habs : file.path.toList.head? = some '/') (hne : names ≠ []) :
    (layout.addAll file.edits).Covers names ↔ layout.Covers names ∨ IsAbove names file.names := by
  rw [← SeedFile.covers_edits habs hne]
  simp [Covers, addAll, or_and_right, exists_or]

/-- A file `Fits` if its last name names, its directory is there and none is at it. -/
lemma fits_write_iff {before name : String} (hcut : cut? file.path = some (before, name)) :
    layout.Fits (.write file.path file.content)
      ↔ isRelative name = false ∧ layout.Covers (segments before) ∧
          ¬ layout.Covers file.names := by
  have hparent : parentAndName? file.path = some (if before = "" then "/" else before, name) := by
    rw [parentAndName?, hcut]
    rfl
  rw [Fits, hparent]
  simp only [Option.some.injEq, Prod.mk.injEq]
  constructor
  · intro h
    obtain ⟨_, _, ⟨rfl, rfl⟩, hfits⟩ := h
    rwa [segments_parent] at hfits
  · intro hfits
    exact ⟨_, _, ⟨rfl, rfl⟩, by rwa [segments_parent]⟩

/-- The edits of a file are admitted if its `names` name, no file lies above it and no directory is
at it. -/
lemma admits_edits_iff (h : layout.Consistent) (habs : file.path.toList.head? = some '/') :
    layout.Admits file.edits
      ↔ (file.names ≠ [] ∧ ∀ name ∈ file.names, isRelative name = false) ∧
          (∀ old ∈ layout.files, ¬ IsAbove old.1 file.names) ∧ ¬ layout.Covers file.names := by
  have hroot : ∀ old ∈ layout.files, old.1 ≠ [] := by
    intro old hold hnil
    exact h.apart old hold (hnil ▸ h.covers_nil)
  unfold SeedFile.edits
  cases hcut : cut? file.path with
  | none =>
    have hnil : file.names = [] := (cut?_eq_none_iff habs).1 hcut
    simp [Admits, Fits, parentAndName?, hcut, hnil]
  | some cut =>
    obtain ⟨before, name⟩ := cut
    have hnames : file.names = segments before ++ [name] := segments_of_cut? hcut
    -- making the directory in front of the file does not put one at the file
    have hcovers : layout.Covers file.names ∨ file.names <+: segments before
        ↔ layout.Covers file.names := by
      rw [hnames, or_iff_left (not_prefix_of_concat (segments before) name)]
    by_cases hbefore : before = ""
    · -- the file lies in the root, and nothing is above it but the root
      have hnil : segments before = [] := by rw [hbefore, segments_empty]
      simp only [hbefore, if_true, Admits, and_true, fits_write_iff hcut]
      rw [← hbefore, hnames, hnil]
      simp only [h.covers_nil, true_and, List.nil_append]
      constructor
      · intro hfits
        obtain ⟨hname, hfree⟩ := hfits
        refine ⟨⟨by simp, by simpa using hname⟩, fun old hold habove => ?_, hfree⟩
        exact hroot old hold (List.prefix_nil.1 (isAbove_concat.1 (by simpa using habove)))
      · intro hall
        obtain ⟨⟨-, hname⟩, -, hfree⟩ := hall
        exact ⟨by simpa using hname, hfree⟩
    · simp only [hbefore, if_false, Admits, and_true, fits_write_iff hcut,
        covers_addAll_makeDirectory, hcovers, List.prefix_rfl, or_true, true_and]
      simp only [Fits, hnames, isAbove_concat, List.mem_append, List.mem_singleton]
      constructor
      · intro hfits
        obtain ⟨⟨hplain, hfiles⟩, hname, hfree⟩ := hfits
        refine ⟨⟨by simp, fun n hn => ?_⟩, hfiles, hfree⟩
        rcases hn with hn | hn
        · exact hplain n hn
        · rw [hn]
          exact hname
      · intro hall
        obtain ⟨⟨-, hplain⟩, hfiles, hfree⟩ := hall
        exact ⟨⟨fun n hn => hplain n (Or.inl hn), hfiles⟩, hplain name (Or.inr rfl), hfree⟩

/-- Edits that the layout `Admits` keep it `Consistent`. -/
lemma Consistent.addAll_of_admits {edits : List Edit} (h : layout.Consistent)
    (hadmits : layout.Admits edits) : (layout.addAll edits).Consistent := by
  induction edits generalizing layout with
  | nil => simpa [Layout.addAll] using h
  | cons e edits ih =>
    obtain ⟨hfits, hrest⟩ := hadmits
    have hnext := ih (h.addAll hfits) hrest
    rwa [← addAll_append] at hnext

/-! ## A list of files -/

lemma files_addAll_files :
    (layout.addAll (files.flatMap SeedFile.edits)).files
      = layout.files ++ files.map fun file => (file.names, file.content) := by
  have hfiles : (files.flatMap SeedFile.edits).filterMap Edit.file?
      = files.map fun file => (file.names, file.content) := by
    induction files with
    | nil => rfl
    | cons file files ih => simp [SeedFile.filterMap_file?_edits, ih]
  rw [addAll, hfiles]

/-- Adding files covers what `IsAbove` them. -/
lemma covers_addAll_files (habs : ∀ file ∈ files, file.path.toList.head? = some '/')
    (hne : names ≠ []) :
    (layout.addAll (files.flatMap SeedFile.edits)).Covers names
      ↔ layout.Covers names ∨ ∃ file ∈ files, IsAbove names file.names := by
  induction files generalizing layout with
  | nil => simp [addAll]
  | cons file files ih =>
    rw [List.flatMap_cons, addAll_append, ih fun f hf => habs f (List.mem_cons_of_mem _ hf),
      covers_addAll_edits (habs file List.mem_cons_self) hne]
    simp [or_assoc]

/-- Files are admitted if each one's names name, no file lies above another one or above one of
the layout, or below one of these, and no directory is at one. -/
theorem admits_files_iff (h : layout.Consistent)
    (habs : ∀ file ∈ files, file.path.toList.head? = some '/') :
    layout.Admits (files.flatMap SeedFile.edits)
      ↔ (∀ file ∈ files, file.names ≠ [] ∧ ∀ name ∈ file.names, isRelative name = false) ∧
          (∀ file ∈ files, (∀ old ∈ layout.files, ¬ IsAbove old.1 file.names) ∧
            ∀ other ∈ files, ¬ IsAbove other.names file.names) ∧
          ∀ file ∈ files, ¬ layout.Covers file.names := by
  induction files generalizing layout with
  | nil => simp [Admits]
  | cons file files ih =>
    have hfile : file.path.toList.head? = some '/' := habs file List.mem_cons_self
    have hfiles : ∀ f ∈ files, f.path.toList.head? = some '/' :=
      fun f hf => habs f (List.mem_cons_of_mem _ hf)
    rw [List.flatMap_cons, admits_append]
    constructor
    · intro h'
      obtain ⟨hfirst, hrest⟩ := h'
      -- the other files are admitted by the layout that has the first one
      have hnext := h.addAll_of_admits hfirst
      obtain ⟨hnamed, hold, hfree⟩ := (admits_edits_iff h hfile).1 hfirst
      obtain ⟨hnamed', hapart, hfree'⟩ := (ih hnext hfiles).1 hrest
      simp only [List.forall_mem_cons]
      refine ⟨⟨hnamed, hnamed'⟩, ⟨⟨hold, not_isAbove_self _, ?_⟩, ?_⟩, hfree, ?_⟩
      · -- a later file above this one would have become a directory
        intro other hother habove
        exact hfree' other hother
          ((covers_addAll_edits hfile (hnamed' other hother).1).2 (Or.inr habove))
      · intro other hother
        obtain ⟨hold', hother'⟩ := hapart other hother
        simp only [addAll, SeedFile.filterMap_file?_edits, List.forall_mem_append,
          List.forall_mem_singleton] at hold'
        exact ⟨hold'.1, hold'.2, hother'⟩
      · intro other hother hcovers
        exact hfree' other hother
          ((covers_addAll_edits hfile (hnamed' other hother).1).2 (Or.inl hcovers))
    · simp only [List.forall_mem_cons]
      intro hall
      obtain ⟨⟨hnamed, hnamed'⟩, ⟨⟨hold, -, hbelow⟩, hapart⟩, hfree, hfree'⟩ := hall
      have hfirst : layout.Admits file.edits := (admits_edits_iff h hfile).2 ⟨hnamed, hold, hfree⟩
      refine ⟨hfirst, (ih (h.addAll_of_admits hfirst) hfiles).2 ⟨hnamed', ?_, ?_⟩⟩
      · intro other hother
        obtain ⟨hold', habove, hother'⟩ := hapart other hother
        simp only [addAll, SeedFile.filterMap_file?_edits, List.forall_mem_append,
          List.forall_mem_singleton]
        exact ⟨⟨hold', habove⟩, hother'⟩
      · intro other hother hcovers
        rcases (covers_addAll_edits hfile (hnamed' other hother).1).1 hcovers with hcovers | habove
        · exact hfree' other hother hcovers
        · exact hbelow other hother habove

end Layout

end MiniShell
