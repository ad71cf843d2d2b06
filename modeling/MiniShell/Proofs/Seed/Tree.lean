import MiniShell.Proofs.Path.Normal
import MiniShell.Proofs.Seed.Files

/-!
# The tree of a configuration

Growing the tree of a configuration is a long list of edits, each of which can fail on what the
others left behind. What becomes of it is nevertheless said without an order.

* `Config.Seedable`: when all edits can be made, which is when the configuration has a tree;
* `Config.entry?`: what stands where afterwards, which is what every lookup in the tree finds;
* `Config.at?_home`: the home is a directory of the tree.
-/

namespace MiniShell

open MiniShell.Path

lemma getLast?_filter_of_nodup {files : List (List String × String)}
    (h : (files.map Prod.fst).Nodup) (names : List String) :
    (files.filter fun file => file.1 = names).getLast?
      = files.find? fun file => file.1 = names := by
  induction files with
  | nil => rfl
  | cons file files ih =>
    rw [List.map_cons, List.nodup_cons] at h
    by_cases hfile : file.1 = names
    · have hrest : files.filter (fun file => decide (file.1 = names)) = [] := by
        rw [List.filter_eq_nil_iff]
        intro other hother hnames
        have heq : other.1 = file.1 := (by simpa using hnames : other.1 = names).trans hfile.symm
        exact h.1 (heq ▸ List.mem_map_of_mem hother)
      simp [hfile, hrest]
    · simp only [List.filter_cons, List.find?_cons, hfile, decide_false]
      exact ih h.2

/-! ## The stock tree -/

namespace Stock

/-- The names of the directories that `edits` asks for; those above them are asked for with them. -/
def directories : List (List String) :=
  edits.filterMap Edit.directory?

def files : List (List String × String) :=
  edits.filterMap Edit.file?

/-- Do the names lead to one of the stock `directories` or lie on the way to one? -/
def IsDirectory (names : List String) : Prop :=
  ∃ directory ∈ directories, names <+: directory

instance (names : List String) : Decidable (IsDirectory names) :=
  inferInstanceAs (Decidable (∃ directory ∈ directories, names <+: directory))

def content? (names : List String) : Option String :=
  (files.find? fun file => file.1 = names).map Prod.snd

/-- The `Layout` of the stock tree. -/
def layout : Layout :=
  Layout.root.addAll edits

/-- The stock `edits` can be made. -/
lemma admits_edits : Layout.root.Admits edits := by
  rw [← Layout.Describes.empty.editAll_isOk_iff]
  exact exists_eq_ok_of_isOk (by decide +kernel)

lemma consistent_layout : layout.Consistent :=
  Layout.Describes.empty.consistent.addAll_of_admits admits_edits

lemma files_layout : layout.files = files := rfl

/-- The stock `directories` and the root are the directories of the stock layout. -/
lemma covers_layout {names : List String} : layout.Covers names ↔ IsDirectory names := by
  have hroot : IsDirectory [] := by decide +kernel
  rw [layout, Layout.Covers, Layout.addAll, Layout.root]
  simp only [List.mem_append, List.mem_singleton, or_and_right, exists_or, exists_eq_left,
    List.prefix_nil]
  constructor
  · intro h
    rcases h with hnil | hcovers
    · rw [hnil]
      exact hroot
    · exact hcovers
  · exact Or.inr

lemma nodup_files : (files.map Prod.fst).Nodup := by
  decide +kernel

end Stock

/-! ## When a configuration has a tree -/

namespace Config

/-- No edit for a configuration is in the way of another one. -/
structure Seedable (config : Config) : Prop where
  /-- No stock file is the home or above it. -/
  home_free : ∀ stock ∈ Stock.files, ¬ stock.1 <+: segments config.home
  /-- Configured files have a name, and nothing along their paths moves. -/
  files_named : ∀ file ∈ config.files,
    file.names ≠ [] ∧ ∀ name ∈ file.names, isRelative name = false
  /-- No stock file and no other configured file is above a configured file. -/
  files_free : ∀ file ∈ config.files,
    (∀ stock ∈ Stock.files, ¬ IsAbove stock.1 file.names) ∧
      ∀ other ∈ config.files, ¬ IsAbove other.names file.names
  /-- No configured file is a stock directory, the home, or above the home. -/
  files_vacant : ∀ file ∈ config.files,
    ¬ Stock.IsDirectory file.names ∧ ¬ file.names <+: segments config.home

lemma problem?_eq_none_iff {config : Config} :
    config.problem? = none ↔ isNormal config.home = true ∧ config.user ≠ "" ∧
      ∀ file ∈ config.files, file.path.toList.head? = some '/' := by
  unfold problem?
  by_cases hhome : isNormal config.home = true
  · by_cases huser : config.user = ""
    · simp [hhome, huser]
    · simp [hhome, huser]
  · simp [hhome]

section

variable {config : Config}

/-- The layout with `Stock.layout` and the home. -/
def base (config : Config) : Layout :=
  Stock.layout.addAll [.makeDirectory config.home]

lemma fits_home (hhome : isNormal config.home = true) :
    Stock.layout.Fits (.makeDirectory config.home)
      ↔ ∀ stock ∈ Stock.files, ¬ stock.1 <+: segments config.home := by
  rw [Layout.Fits, Stock.files_layout, and_iff_right]
  intro name hname
  exact (isName_of_isNormal hhome name hname).not_relative

lemma addAll_edits (config : Config) :
    Layout.root.addAll config.edits = config.base.addAll (config.files.flatMap SeedFile.edits) := by
  rw [edits, ← List.singleton_append, Layout.addAll_append, Layout.addAll_append]
  rfl

/-- The edits of a configuration can be made if it is `Seedable`. -/
lemma admits_edits_iff (valid : config.problem? = none) :
    Layout.root.Admits config.edits ↔ config.Seedable := by
  obtain ⟨hhome, -, habs⟩ := problem?_eq_none_iff.1 valid
  have hcovers : ∀ names, config.base.Covers names
      ↔ Stock.IsDirectory names ∨ names <+: segments config.home := by
    intro names
    rw [base, Layout.covers_addAll_makeDirectory, Stock.covers_layout]
  have hfiles : config.base.files = Stock.files := by
    rw [base, Layout.addAll_makeDirectory, ← Stock.files_layout]
  rw [edits, ← List.singleton_append, Layout.admits_append, Layout.admits_append,
    and_iff_right Stock.admits_edits]
  have hsingle : Stock.layout.Admits [.makeDirectory config.home]
      ↔ ∀ stock ∈ Stock.files, ¬ stock.1 <+: segments config.home := by
    rw [← fits_home hhome, Layout.Admits, Layout.Admits, and_true]
  -- the home keeps the stock layout consistent if it can be made
  have hbase : (∀ stock ∈ Stock.files, ¬ stock.1 <+: segments config.home) →
      config.base.Consistent := fun hfree =>
    Stock.consistent_layout.addAll ((fits_home hhome).2 hfree)
  constructor
  · intro h
    obtain ⟨hmake, hrest⟩ := h
    have hfree := hsingle.1 hmake
    obtain ⟨hnamed, hapart, hvacant⟩ :=
      (Layout.admits_files_iff (hbase hfree) habs).1 hrest
    rw [hfiles] at hapart
    exact ⟨hfree, hnamed, hapart, fun file hfile =>
      not_or.1 fun hcov => hvacant file hfile ((hcovers _).2 hcov)⟩
  · intro h
    refine ⟨hsingle.2 h.home_free, (Layout.admits_files_iff (hbase h.home_free) habs).2
      ⟨h.files_named, ?_, ?_⟩⟩
    · rw [hfiles]
      exact h.files_free
    · intro file hfile hcov
      rcases (hcovers _).1 hcov with hstock | hpre
      · exact (h.files_vacant file hfile).1 hstock
      · exact (h.files_vacant file hfile).2 hpre

/-- A configuration has a `seededTree` exactly if it is `Seedable`. -/
lemma exists_seededTree_iff (valid : config.problem? = none) :
    (∃ tree, config.seededTree = .ok tree) ↔ config.Seedable := by
  rw [seededTree, Layout.Describes.empty.editAll_isOk_iff, admits_edits_iff valid]

lemma problem?_of_perm {files : List SeedFile} (hperm : files.Perm config.files)
    (valid : config.problem? = none) : { config with files }.problem? = none := by
  obtain ⟨hhome, huser, habs⟩ := problem?_eq_none_iff.1 valid
  exact problem?_eq_none_iff.2 ⟨hhome, huser, fun file hfile => habs file (hperm.mem_iff.1 hfile)⟩

/-- Whether a configuration is `Seedable` does not depend on the order of its files. -/
lemma seedable_of_perm {files : List SeedFile} (hperm : files.Perm config.files) :
    { config with files }.Seedable ↔ config.Seedable := by
  constructor
  · intro h
    obtain ⟨hhome, hnamed, hfree, hvacant⟩ := h
    simp only [hperm.mem_iff] at hnamed hfree hvacant
    exact ⟨hhome, hnamed, hfree, hvacant⟩
  · intro h
    obtain ⟨hhome, hnamed, hfree, hvacant⟩ := h
    refine ⟨hhome, ?_, ?_, ?_⟩ <;> simp only [hperm.mem_iff]
    · exact hnamed
    · exact hfree
    · exact hvacant

/-- **Success of seeding.** A usable configuration has a `seededTree` exactly if it is `Seedable`,
so that no edit is in the way of another one, and the order of its files does not count. -/
theorem seededTree_isOk_iff (config : Config) (valid : config.problem? = none) :
    ((∃ tree, config.seededTree = .ok tree) ↔ config.Seedable) ∧
      ∀ files : List SeedFile, files.Perm config.files →
        ((∃ tree, { config with files }.seededTree = .ok tree)
          ↔ ∃ tree, config.seededTree = .ok tree) := by
  refine ⟨exists_seededTree_iff valid, fun files hperm => ?_⟩
  rw [exists_seededTree_iff valid, exists_seededTree_iff (problem?_of_perm hperm valid),
    seedable_of_perm hperm]

/-- Files at one place, spelled with different slashes, and a file over a stock file: this
configuration is `Seedable`, and its `seededTree` is made with its files in either order. -/
theorem seededTree_isOk_respelled :
    let config : Config :=
      { files := [⟨"/etc//motd/", "be nice"⟩, ⟨"/etc/motd", ""⟩, ⟨"/home/namour/notes.txt", "x"⟩] }
    config.problem? = none ∧ (∃ tree, config.seededTree = .ok tree) ∧ config.Seedable ∧
      ∃ tree, { config with files := config.files.reverse }.seededTree = .ok tree := by
  intro config
  have valid : config.problem? = none := by decide +kernel
  have hmade : ∃ tree, config.seededTree = .ok tree := exists_eq_ok_of_isOk (by decide +kernel)
  obtain ⟨hseedable, horder⟩ := seededTree_isOk_iff config valid
  exact ⟨valid, hmade, hseedable.1 hmade,
    (horder config.files.reverse (List.reverse_perm config.files)).2 hmade⟩

end

/-! ## What stands where -/

/-- The content that `config.files` gives last to a file at the names. -/
def content? (config : Config) (names : List String) : Option String :=
  ((config.files.filter fun file => file.names = names).getLast?).map SeedFile.content

/-- What stands at the names in the tree of a configuration: the configured file that comes last,
or else the stock file, or else a directory on the way to a stock directory, to the home or to the
directory of a configured file. -/
def entry? (config : Config) (names : List String) : Option Entry :=
  match config.content? names with
  | some content => some (.file content)
  | none =>
    match Stock.content? names with
    | some content => some (.file content)
    | none =>
      if Stock.IsDirectory names ∨ names <+: segments config.home ∨
          ∃ file ∈ config.files, names <+: file.names.dropLast then
        some .directory
      else none

section

variable {config : Config} {names : List String}

/-- What was last written at the names is configured, or else stock. -/
lemma content?_addAll_edits :
    (Layout.root.addAll config.edits).content? names
      = (config.content? names).or (Stock.content? names) := by
  have hstock : (Stock.files.filter fun file => file.1 = names).getLast?
      = Stock.files.find? fun file => file.1 = names :=
    getLast?_filter_of_nodup Stock.nodup_files names
  have hfiles : (Layout.root.addAll config.edits).files
      = Stock.files ++ config.files.map fun file => (file.names, file.content) := by
    rw [addAll_edits, Layout.files_addAll_files, base, Layout.addAll_makeDirectory,
      ← Stock.files_layout]
  rw [Layout.content?, hfiles, List.filter_append, List.getLast?_append, hstock, List.filter_map,
    List.getLast?_map, Option.map_or, Option.map_map]
  rfl

/-- The directories of the `seededTree` of a configuration. -/
lemma covers_addAll_edits (valid : config.problem? = none) (h : config.Seedable) :
    (Layout.root.addAll config.edits).Covers names
      ↔ Stock.IsDirectory names ∨ names <+: segments config.home ∨
          ∃ file ∈ config.files, names <+: file.names.dropLast := by
  obtain ⟨-, -, habs⟩ := problem?_eq_none_iff.1 valid
  by_cases hne : names = []
  · subst hne
    -- a consistent layout covers the root
    have hroot : (Layout.root.addAll config.edits).Covers [] :=
      (Layout.Describes.empty.consistent.addAll_of_admits
        ((admits_edits_iff valid).2 h)).covers_nil
    simp [hroot]
  · have habove : (∃ file ∈ config.files, IsAbove names file.names)
        ↔ ∃ file ∈ config.files, names <+: file.names.dropLast := by
      constructor
      · intro hex
        obtain ⟨file, hfile, hab⟩ := hex
        exact ⟨file, hfile, (isAbove_iff_prefix_dropLast (h.files_named file hfile).1).1 hab⟩
      · intro hex
        obtain ⟨file, hfile, hpre⟩ := hex
        exact ⟨file, hfile, (isAbove_iff_prefix_dropLast (h.files_named file hfile).1).2 hpre⟩
    rw [addAll_edits, Layout.covers_addAll_files habs hne, habove, base,
      Layout.covers_addAll_makeDirectory, Stock.covers_layout, or_assoc]

/-- The `seededTree` of a configuration, by names, is its `entry?`. -/
lemma at?_seededTree (valid : config.problem? = none) {tree : Tree}
    (built : config.seededTree = .ok tree) : tree.at? names = config.entry? names := by
  have h : config.Seedable := (exists_seededTree_iff valid).1 ⟨tree, built⟩
  have hcovers : (Layout.root.addAll config.edits).Covers names ↔ _ :=
    covers_addAll_edits valid h
  rw [(Layout.Describes.empty.editAll built).view, Layout.at?, content?_addAll_edits, entry?]
  cases hconf : config.content? names with
  | some content => rfl
  | none =>
    cases hstock : Stock.content? names with
    | some content => rfl
    | none => simp [hcovers]

/-- A configured file is in the `seededTree`, with the content it was given last. -/
lemma exists_at?_of_mem (valid : config.problem? = none) {tree : Tree}
    (built : config.seededTree = .ok tree) {file : SeedFile} (hfile : file ∈ config.files) :
    ∃ content, config.content? file.names = some content ∧
      tree.at? file.names = some (.file content) := by
  have hmem : file ∈ config.files.filter fun other => other.names = file.names :=
    List.mem_filter.2 ⟨hfile, by simp⟩
  obtain ⟨last, hlast⟩ : ∃ last, (config.files.filter fun other =>
      other.names = file.names).getLast? = some last :=
    ⟨_, List.getLast?_eq_some_getLast (List.ne_nil_of_mem hmem)⟩
  have hcontent : config.content? file.names = some last.content := by rw [content?, hlast]; rfl
  exact ⟨last.content, hcontent, by rw [at?_seededTree valid built, entry?, hcontent]⟩

lemma at?_home (valid : config.problem? = none) {tree : Tree}
    (built : config.seededTree = .ok tree) :
    tree.at? (segments config.home) = some .directory := by
  have h : config.Seedable := (exists_seededTree_iff valid).1 ⟨tree, built⟩
  have hdescribes := Layout.Describes.empty.editAll built
  rw [hdescribes.view, hdescribes.consistent.at?_eq_directory_iff, covers_addAll_edits valid h]
  exact Or.inr (Or.inl List.prefix_rfl)

end

/-- **Contents of the seeded tree.** Every `lookup` in the tree of a usable configuration finds what
`entry?` says stands at the segments of the path, and nothing else. -/
theorem entry_lookup_seededTree (config : Config) (valid : config.problem? = none) (tree : Tree)
    (built : config.seededTree = .ok tree) (path : String) :
    (tree.lookup path).map Node.entry = config.entry? (segments path) := by
  rw [Tree.entry_lookup, at?_seededTree valid built]

/-- A file configured twice holds what came last, its directory is made, and nothing is below
it. -/
theorem entry_lookup_respelled :
    let config : Config :=
      { files := [⟨"/opt/a//b", "first"⟩, ⟨"/opt//a/b/", "last"⟩] }
    ∃ tree, config.problem? = none ∧ config.seededTree = .ok tree ∧
      (tree.lookup "/opt/a/b").map Node.entry = some (.file "last") ∧
      (tree.lookup "/opt/a/").map Node.entry = some .directory ∧
      (tree.lookup "/opt/a/b/c").map Node.entry = none := by
  intro config
  have valid : config.problem? = none := by decide +kernel
  have hok : config.seededTree.isOk = true := by decide +kernel
  cases built : config.seededTree with
  | error cause => simp [built, Except.isOk, Except.toBool] at hok
  | ok tree =>
    have h := entry_lookup_seededTree config valid tree built
    refine ⟨tree, valid, rfl, ?_, ?_, ?_⟩
    · exact (h "/opt/a/b").trans (by decide +kernel)
    · exact (h "/opt/a/").trans (by decide +kernel)
    · exact (h "/opt/a/b/c").trans (by decide +kernel)

end Config

end MiniShell
