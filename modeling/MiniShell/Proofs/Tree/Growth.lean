import MiniShell.Proofs.NameMap
import MiniShell.Proofs.Tree.Edit

/-!
# Trees that grow

A tree grows edit by edit, and an edit that fails may have made some directories. Whatever the
edits, the tree stays tidy: all names in it are names, in order. And it only grows: what stands
somewhere stays there, and of a file the content is all that can change.

* `Node.Tidy`: names in order at every depth;
* `Tree.Tidy.edit`, `Tree.Tidy.grow`: edits keep a tree tidy;
* `Tree.Tidy.of_list?`: a listing has each child once, in order;
* `Tree.at?_edit`, `Tree.at?_grow`: what becomes of what stands in a tree.
-/

namespace MiniShell

open MiniShell.Path

/-- The tree after each `edit`, whether or not it could be made in full. -/
def Tree.grow (tree : Tree) (edits : List Edit) : Tree :=
  edits.foldl (fun grown e => (grown.edit e).1) tree

/-- Directories at every depth hold names with `IsName`, in order. -/
inductive Node.Tidy : Node → Prop
  | file (content : String) : Tidy (.file content)
  | directory {entries : Directory} (named : ∀ entry ∈ entries, IsName entry.1)
      (ordered : NameMap.Ordered entries) (below : ∀ entry ∈ entries, Tidy entry.2) :
      Tidy (.directory entries)

/-- The tree is `Node.Tidy` from its root on. -/
def Tree.Tidy (tree : Tree) : Prop :=
  tree.root.Tidy

/-! ## Names in order -/

namespace Node.Tidy

variable {entries below : Directory} {name path content : String} {names : List String}
  {node found : Node}

lemma empty : (Node.directory []).Tidy :=
  directory nofun List.Pairwise.nil nofun

lemma ordered (h : (Node.directory entries).Tidy) : NameMap.Ordered entries := by
  cases h with
  | directory _ ordered _ => exact ordered

lemma of_find? (h : (Node.directory entries).Tidy)
    (hfind : NameMap.find? name entries = some node) : IsName name ∧ node.Tidy := by
  cases h with
  | directory named _ below =>
    have hmem := NameMap.mem_of_find? hfind
    exact ⟨named _ hmem, below _ hmem⟩

/-- Binding a name by `NameMap.insert` to something tidy keeps a directory tidy. -/
lemma insert (h : (Node.directory entries).Tidy) (hname : IsName name) (hnode : node.Tidy) :
    (Node.directory (NameMap.insert name node entries)).Tidy := by
  cases h with
  | directory named ordered below =>
    refine directory (fun entry hentry => ?_) (ordered.insert name node) (fun entry hentry => ?_)
    · rcases NameMap.mem_insert hentry with rfl | hentry
      · exact hname
      · exact named entry hentry
    · rcases NameMap.mem_insert hentry with rfl | hentry
      · exact hnode
      · exact below entry hentry

lemma enter (h : (Node.directory entries).Tidy) (henter : entries.enter? name = some below) :
    (Node.directory below).Tidy := by
  rcases Directory.enter?_eq_some_iff.1 henter with hfind | ⟨-, rfl⟩
  · exact (h.of_find? hfind).2
  · exact empty

/-- What `descend` finds below something tidy is tidy, and what leads there are names. -/
lemma descend (h : node.Tidy) (hdescend : node.descend names = some found) :
    found.Tidy ∧ ∀ name ∈ names, IsName name := by
  induction names generalizing node with
  | nil => exact ⟨Option.some.inj hdescend ▸ h, nofun⟩
  | cons name names ih =>
    cases node with
    | file content => nomatch hdescend
    | directory entries =>
      obtain ⟨child, hchild, hbelow⟩ := Option.bind_eq_some_iff.1 hdescend
      obtain ⟨hname, htidy⟩ := h.of_find? hchild
      obtain ⟨hfound, hnames⟩ := ih htidy hbelow
      exact ⟨hfound, List.forall_mem_cons.2 ⟨hname, hnames⟩⟩

lemma makeDirectories (h : (Node.directory entries).Tidy)
    (hnames : ∀ name ∈ names, name ≠ "" ∧ '/' ∉ name.toList) :
    (Node.directory (entries.makeDirectories path names).1).Tidy := by
  induction names generalizing entries with
  | nil => exact h
  | cons name names ih =>
    obtain ⟨⟨hne, hslash⟩, hrest⟩ := List.forall_mem_cons.1 hnames
    cases hrel : isRelative name with
    | true =>
      rw [Directory.makeDirectories_of_relative hrel]
      exact h
    | false =>
      cases henter : entries.enter? name with
      | none =>
        rw [Directory.makeDirectories_of_not_enter hrel henter]
        exact h
      | some below =>
        rw [Directory.makeDirectories_of_enter hrel henter]
        exact h.insert ⟨hne, hslash, hrel⟩ (ih (h.enter henter) hrest)

lemma putFile {changed : Directory} (h : (Node.directory entries).Tidy) (hname : IsName name)
    (hput : Directory.putFile path name content entries = .ok changed) :
    (Node.directory changed).Tidy := by
  unfold Directory.putFile at hput
  split at hput
  · nomatch hput
  · rw [Except.ok.injEq] at hput
    exact hput ▸ h.insert hname (.file content)

/-- A change that `modifyAt` makes further down keeps a directory tidy if it does so there. -/
lemma modifyAt {change : Directory → Except TreeError Directory} {missing : TreeError}
    {changed : Directory} (h : (Node.directory entries).Tidy)
    (hchange : ∀ before after : Directory, (Node.directory before).Tidy →
      change before = .ok after → (Node.directory after).Tidy)
    (hmodify : entries.modifyAt change missing names = .ok changed) :
    (Node.directory changed).Tidy := by
  induction names generalizing entries changed with
  | nil => exact hchange entries changed h hmodify
  | cons name names ih =>
    rw [Directory.modifyAt] at hmodify
    split at hmodify
    · rename_i below hfind
      obtain ⟨inner, hinner, rfl⟩ := map_eq_ok_iff.1 hmodify
      obtain ⟨hname, hbelow⟩ := h.of_find? hfind
      exact h.insert hname (ih hbelow hinner)
    · exact absurd hmodify (by simp)

end Node.Tidy

namespace Tree

variable {tree : Tree} {path content : String} {names : List String} {entry : Entry}

lemma tidy_empty : Tree.empty.Tidy :=
  Node.Tidy.empty

lemma Tidy.write {written : Tree} (h : tree.Tidy) (hwrite : tree.write path content = .ok written) :
    written.Tidy := by
  unfold Tree.write at hwrite
  split at hwrite
  · nomatch hwrite
  · rename_i parent name hcut
    split at hwrite
    · nomatch hwrite
    · rename_i hrel
      obtain ⟨changed, hmodify, rfl⟩ := map_eq_ok_iff.1 hwrite
      have hmem : name ∈ segments path := by simp [segments_of_parentAndName? hcut]
      obtain ⟨hne, hslash⟩ := of_mem_segments hmem
      have hname : IsName name := ⟨hne, hslash, by simpa using hrel⟩
      exact Node.Tidy.modifyAt h (fun before after hbefore => hbefore.putFile hname) hmodify

/-- An `edit` keeps a tree tidy, also one that fails. -/
theorem Tidy.edit (h : tree.Tidy) (e : Edit) : (tree.edit e).1.Tidy := by
  cases e with
  | makeDirectory path => exact Node.Tidy.makeDirectories h fun name => of_mem_segments
  | write path content =>
    cases hwrite : tree.write path content with
    | ok written => rw [edit_write_of_eq_ok hwrite]; exact h.write hwrite
    | error cause => rw [edit_write_of_eq_error hwrite]; exact h

/-- Edits keep a tree `Tidy`, in whatever way each of them ends. -/
theorem Tidy.grow (h : tree.Tidy) (edits : List Edit) : (tree.grow edits).Tidy := by
  induction edits generalizing tree with
  | nil => exact h
  | cons e edits ih => exact ih (h.edit e)

end Tree

/-! ## Listings -/

namespace Node.Tidy

variable {entries : Directory}

/-- The `listings` of a tidy directory are in strictly increasing order of names. -/
lemma pairwise_listings (h : (Node.directory entries).Tidy) :
    entries.listings.Pairwise fun earlier later => earlier.name < later.name :=
  List.pairwise_map.2 h.ordered

lemma mem_listings_iff_find? (h : (Node.directory entries).Tidy) {listing : Listing} :
    listing ∈ entries.listings
      ↔ ∃ node, NameMap.find? listing.name entries = some node ∧ node.kind = listing.kind := by
  rw [Directory.listings, List.mem_map]
  constructor
  · rintro ⟨⟨name, node⟩, hentry, rfl⟩
    exact ⟨node, h.ordered.find?_eq_some_iff.2 hentry, rfl⟩
  · rintro ⟨node, hfind, hkind⟩
    refine ⟨(listing.name, node), NameMap.mem_of_find? hfind, ?_⟩
    show ({ name := listing.name, kind := node.kind } : Listing) = listing
    rw [hkind]

/-- The `listings` of a tidy directory are its children, each with its kind. -/
lemma mem_listings_iff (h : (Node.directory entries).Tidy) {listing : Listing} :
    listing ∈ entries.listings
      ↔ (entries.at? [listing.name]).map Entry.kind = some listing.kind := by
  rw [h.mem_listings_iff_find?, Directory.at?_singleton, Option.map_map, Option.map_eq_some_iff]
  simp only [Function.comp_apply, Node.kind_entry]

end Node.Tidy

namespace Tree

variable {tree : Tree} {path content : String} {names : List String} {entry : Entry}

theorem Tidy.of_list? (h : tree.Tidy) {listings : List Listing}
    (hlist : tree.list? path = some listings) :
    (listings.Pairwise fun earlier later => earlier.name < later.name) ∧
      ∀ listing, listing ∈ listings
        ↔ (tree.at? (segments path ++ [listing.name])).map Entry.kind = some listing.kind := by
  obtain ⟨entries, hentries, rfl⟩ := Option.map_eq_some_iff.1 hlist
  obtain ⟨node, hlookup, hnode⟩ := Option.bind_eq_some_iff.1 hentries
  cases node with
  | file content => nomatch hnode
  | directory held =>
    rw [Node.entries?, Option.some.injEq] at hnode
    subst hnode
    have hheld : (Node.directory held).Tidy := (Node.Tidy.descend h hlookup).1
    refine ⟨hheld.pairwise_listings, fun listing => ?_⟩
    -- the child at a name is what the tree has one segment further down
    have hbelow : tree.at? (segments path ++ [listing.name])
        = Directory.at? held [listing.name] := by
      have hdescend : tree.root.descend (segments path) = some (.directory held) := hlookup
      show (tree.root.descend (segments path ++ [listing.name])).map Node.entry = _
      rw [Node.descend_append, hdescend]
      rfl
    rw [hbelow]
    exact hheld.mem_listings_iff

/-! ## What stays -/

/-- What stands in a tree is there after an `edit`, unless it is a file that the edit writes. -/
theorem at?_edit (h : tree.at? names = some entry) (e : Edit) :
    (tree.edit e).1.at? names = some entry ∨
      ∃ path old new, e = .write path new ∧ segments path = names ∧ entry = .file old ∧
        (tree.edit e).2 = .ok () ∧ (tree.edit e).1.at? names = some (.file new) := by
  cases e with
  | makeDirectory path =>
    left
    have hmake := tree.at?_makeDirectory path names
    rw [Tree.edit, hmake]
    split
    · -- no file is in the way, so a file is not what stood there
      rename_i hmade
      cases entry with
      | directory => rfl
      | file content => exact absurd (.of_file h) hmade.2
    · exact h
  | write path new =>
    cases hwrite : tree.write path new with
    | error cause =>
      left
      rw [edit_write_of_eq_error hwrite]
      exact h
    | ok written =>
      rw [edit_write_of_eq_ok hwrite, at?_write hwrite]
      by_cases hnames : names = segments path
      · right
        -- a write that was made was not one over a directory
        obtain ⟨-, -, -, -, -, hfree⟩ := write_isOk_iff.1 ⟨written, hwrite⟩
        rw [← hnames, h] at hfree
        cases entry with
        | directory => exact absurd rfl hfree
        | file old => exact ⟨path, old, new, rfl, hnames.symm, rfl, rfl, if_pos hnames⟩
      · left
        rw [if_neg hnames]
        exact h

/-- What stands in a tree is there after `grow`, unless it is a file that the edits write, which
then has the content written last. -/
theorem at?_grow (h : tree.at? names = some entry) (edits : List Edit) :
    (tree.grow edits).at? names = some entry ∨
      ∃ before path old new after, edits = before ++ .write path new :: after ∧
        segments path = names ∧ entry = .file old ∧
        ((tree.grow before).edit (.write path new)).2 = .ok () ∧
        (tree.grow edits).at? names = some (.file new) := by
  induction edits generalizing tree entry with
  | nil => exact Or.inl h
  | cons e edits ih =>
    rcases at?_edit h e with hstays | ⟨path, old, new, rfl, hpath, rfl, hok, hnew⟩
    · rcases ih hstays with hgrown | ⟨before, path, old, new, after, rfl, hpath, hold, hok, hgrown⟩
      · exact Or.inl hgrown
      · exact Or.inr ⟨e :: before, path, old, new, after, rfl, hpath, hold, hok, hgrown⟩
    · rcases ih hnew with hgrown | ⟨before, path', -, new', after, rfl, hpath', -, hok', hgrown⟩
      · exact Or.inr ⟨[], path, old, new, edits, rfl, hpath, rfl, hok, hgrown⟩
      · exact Or.inr ⟨.write path new :: before, path', old, new', after, rfl, hpath', rfl, hok',
          hgrown⟩

/-- **Trees only grow.** Whatever edits made a tree `grow`, made in full or not: every name in it,
at every depth, can name a child, and names are in order, so that a listing has each child once, in
strictly increasing order of names. Whatever edits follow, what stands in the tree stays and keeps
its kind, and a file with another content was written at its segments by an edit made in full. -/
theorem tidy_and_stable (edits : List Edit) :
    let tree := Tree.empty.grow edits
    tree.root.Tidy ∧
    (∀ path listings, tree.list? path = some listings →
      (listings.Pairwise fun earlier later => earlier.name < later.name) ∧
        ∀ listing, listing ∈ listings
          ↔ (tree.at? (segments path ++ [listing.name])).map Entry.kind = some listing.kind) ∧
    ∀ (more : List Edit) (names : List String),
      (∀ kind, (tree.at? names).map Entry.kind = some kind →
        ((tree.grow more).at? names).map Entry.kind = some kind) ∧
      ∀ old new, tree.at? names = some (.file old) →
        (tree.grow more).at? names = some (.file new) → old ≠ new →
        ∃ before path after, more = before ++ .write path new :: after ∧
          segments path = names ∧ ((tree.grow before).edit (.write path new)).2 = .ok () := by
  intro tree
  have htidy : tree.Tidy := tidy_empty.grow edits
  refine ⟨htidy, fun path listings => htidy.of_list?, fun more names => ⟨fun kind hkind => ?_,
    fun old new hold hnew hne => ?_⟩⟩
  · -- what stands stays, or is a file that is overwritten and so is one still
    obtain ⟨entry, hentry, rfl⟩ := Option.map_eq_some_iff.1 hkind
    rcases at?_grow hentry more with hstays | ⟨-, -, old, new, -, -, -, rfl, -, hgrown⟩
    · rw [hstays]
      rfl
    · rw [hgrown]
      rfl
  · rcases at?_grow hold more with
      hstays | ⟨before, path, -, last, after, hmore, hpath, -, hok, hgrown⟩
    · rw [hstays, Option.some.injEq, Entry.file.injEq] at hnew
      -- had it stayed, its content would be the old one
      exact absurd hnew hne
    · rw [hgrown, Option.some.injEq, Entry.file.injEq] at hnew
      subst hnew
      exact ⟨before, path, after, hmore, hpath, hok⟩

/-- Directories that could not be made to their end, a file that could not be written over one, and
a file that is written again under another spelling. -/
theorem tidy_and_stable_overwritten :
    let edits : List Edit :=
      [.makeDirectory "a//b/", .write "/a/z" "old", .makeDirectory "/a/z/c", .write "/a/b" "x",
        .makeDirectory "/a/c/../d"]
    let more : List Edit := [.makeDirectory "/a/z", .write "//a/z/" "new", .write "/a" "y"]
    let tree := Tree.empty.grow edits
    let listings : List Listing := [⟨"b", .directory⟩, ⟨"c", .directory⟩, ⟨"z", .file⟩]
    tree.root.Tidy ∧ tree.list? "/a" = some listings ∧
      (listings.Pairwise fun earlier later => earlier.name < later.name) ∧
      (tree.at? ["a", "b"]).map Entry.kind = some .directory ∧
      ((tree.grow more).at? ["a", "b"]).map Entry.kind = some .directory ∧
      tree.at? ["a", "z"] = some (.file "old") ∧
      (tree.grow more).at? ["a", "z"] = some (.file "new") ∧
      ∃ before path after, more = before ++ .write path "new" :: after ∧
        segments path = ["a", "z"] ∧ ((tree.grow before).edit (.write path "new")).2 = .ok () := by
  intro edits more tree listings
  have hlist : tree.list? "/a" = some listings := by decide +kernel
  have hkind : (tree.at? ["a", "b"]).map Entry.kind = some .directory := by decide +kernel
  have hold : tree.at? ["a", "z"] = some (.file "old") := by decide +kernel
  have hnew : (tree.grow more).at? ["a", "z"] = some (.file "new") := by decide +kernel
  obtain ⟨htidy, hlistings, hstable⟩ := tidy_and_stable edits
  exact ⟨htidy, hlist, (hlistings "/a" listings hlist).1, hkind,
    (hstable more ["a", "b"]).1 .directory hkind, hold, hnew,
    (hstable more ["a", "z"]).2 "old" "new" hold hnew (by decide)⟩

end Tree

end MiniShell
