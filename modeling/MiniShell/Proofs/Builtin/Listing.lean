import MiniShell.Proofs.Builtin
import MiniShell.Proofs.Tree.Growth

/-!
# Listings

`ls` shows the names in a directory on one line, in order, with two spaces between them. A separator
is put in front of a name if the line has something on it, which tells the first name from the
others because every name shows as something.

* `spans_foldl_addListing`: names added to a line that is not blank;
* `listingLine_eq`: a listing as its spans;
* `eq_of_ordered`: names in order are known by which they are;
* `runCommand_ls_shows`: what `ls` shows.
-/

namespace MiniShell.Builtin

open MiniShell.Path

variable {line : Line} {listing : Listing} {listings : List Listing}

/-! ## The line of a listing -/

/-- What stands between two names on a `listingLine`. -/
def separator : Span :=
  { text := "  ", style := .plain }

lemma text_listingSpan_ne (h : listing.name ≠ "") :
    (listingSpan listing).text ≠ "" := by
  unfold listingSpan
  split
  · simp
  · exact h

lemma addListing_empty (h : listing.name ≠ "") :
    addListing .empty listing = { spans := [listingSpan listing] } :=
  Line.push_of_ne (text_listingSpan_ne h) .empty _

/-- A name that `addListing` adds to a line with names comes behind a `separator`. -/
lemma addListing_of_ne (h : listing.name ≠ "") (hline : line.spans ≠ []) :
    addListing line listing = { spans := line.spans ++ [separator, listingSpan listing] } := by
  have hsome : ¬ line.isEmpty = true := by
    rw [Line.isEmpty, List.isEmpty_iff]
    exact hline
  simp only [addListing, if_neg hsome]
  rw [Line.push_of_ne (text_listingSpan_ne h), Line.push_of_ne (show "  " ≠ "" by decide)]
  simp [separator]

/-- Names added to a line that ends in a name stand behind it with a `separator` between any two. -/
lemma spans_foldl_addListing (h : ∀ listing ∈ listings, listing.name ≠ "") (front : List Span)
    (last : Span) :
    (listings.foldl addListing { spans := front ++ [last] }).spans
      = front ++ (last :: listings.map listingSpan).intersperse separator := by
  induction listings generalizing front last with
  | nil => rfl
  | cons listing rest ih =>
    obtain ⟨hname, hrest⟩ := List.forall_mem_cons.1 h
    have hadd : addListing { spans := front ++ [last] } listing
        = { spans := (front ++ [last, separator]) ++ [listingSpan listing] } := by
      rw [addListing_of_ne hname (by simp)]
      simp
    -- from here on the name just added is the last one
    rw [List.foldl_cons, hadd, ih hrest, List.map_cons, List.intersperse_cons_cons,
      List.append_assoc]
    rfl

/-- The visible names of a directory without empty names stand on the `listingLine` with a
`separator` between any two. -/
theorem listingLine_eq (all : Bool) (h : ∀ listing ∈ listings, listing.name ≠ "") :
    listingLine all listings
      = { spans := ((listings.filter fun listing => all || !listing.isHidden).map
            listingSpan).intersperse separator } := by
  have hvisible : ∀ listing ∈ listings.filter fun listing => all || !listing.isHidden,
      listing.name ≠ "" :=
    fun listing hmem => h listing (List.mem_of_mem_filter hmem)
  rw [listingLine]
  generalize (listings.filter fun listing => all || !listing.isHidden) = shown at hvisible
  cases shown with
  | nil => rfl
  | cons first rest =>
    obtain ⟨hfirst, hrest⟩ := List.forall_mem_cons.1 hvisible
    rw [List.foldl_cons, addListing_empty hfirst]
    exact congrArg Line.mk (spans_foldl_addListing hrest [] (listingSpan first))

/-! ## The names in order -/

lemma eq_of_ordered {shown other : List Listing}
    (h : shown.Pairwise fun earlier later => earlier.name < later.name)
    (h' : other.Pairwise fun earlier later => earlier.name < later.name)
    (hmem : ∀ listing, listing ∈ shown ↔ listing ∈ other) : shown = other := by
  have hnodup : ∀ {names : List Listing},
      (names.Pairwise fun earlier later => earlier.name < later.name) → names.Nodup :=
    fun hnames => hnames.imp fun hlt heq => hlt.ne (congrArg Listing.name heq)
  have hperm : shown.Perm other := (List.perm_ext_iff_of_nodup (hnodup h) (hnodup h')).2 hmem
  exact hperm.eq_of_pairwise (fun _ _ _ _ hlt hgt => absurd hgt hlt.asymm) h h'

/-! ## The command -/

/-- Without a path among the arguments, the path of `ls` is the working directory, since
`Path.resolve` leaves it as it is. -/
lemma resolve_firstTarget? (env : Environment) (arguments : List String) :
    env.resolve ((firstTarget? arguments).getD "")
      = match arguments.find? fun argument => argument.toList.head? ≠ some '-' with
        | some typed => env.resolve typed
        | none => env.cwd := by
  have hoption : (fun argument : String => argument.toList.head? != some '-')
      = fun argument => decide (argument.toList.head? ≠ some '-') := by
    funext argument
    rw [Bool.eq_iff_iff]
    simp
  rw [firstTarget?, hoption]
  cases arguments.find? fun argument => decide (argument.toList.head? ≠ some '-') with
  | none => exact resolve_empty env.cwd env.config.home
  | some typed => rfl

/-- **`ls` shows what is visible.** In a tree that edits grew, let the first argument that does not
start with `-`, or the working directory if there is none, lead to a directory. Then `ls` shows one
line and stays. On it are the names in the directory, those that start with a dot only if `-a` is
among the arguments, in strictly increasing order: a directory's with a slash, a file's as it is,
and two spaces between one name and the next. -/
theorem runCommand_ls_shows (edits : List Edit) (env : Environment)
    (htree : env.tree = Tree.empty.grow edits) (arguments : List String) (entries : Directory)
    (hdir : env.tree.lookup
        (match arguments.find? fun argument => argument.toList.head? ≠ some '-' with
          | some typed => env.resolve typed
          | none => env.cwd)
      = some (.directory entries)) :
    ∃ shown : List Listing,
      (shown.Pairwise fun earlier later => earlier.name < later.name) ∧
      (∀ listing, listing ∈ shown ↔
        (∃ node, NameMap.find? listing.name entries = some node ∧ node.kind = listing.kind) ∧
          ("-a" ∈ arguments ∨ listing.name.toList.head? ≠ some '.')) ∧
      registry.runCommand "ls" arguments env
        = { result := .ok (.lines
              [{ spans := (shown.map fun listing =>
                    match listing.kind with
                    | .directory => { text := listing.name ++ "/", style := .directory }
                    | .file => { text := listing.name, style := .plain }).intersperse
                  { text := "  ", style := .plain } }])
            cwd := env.cwd } := by
  rw [← resolve_firstTarget?] at hdir
  have htidy : env.tree.Tidy := by
    rw [htree]
    exact Tree.tidy_empty.grow edits
  have hentries : (Node.directory entries).Tidy := (Node.Tidy.descend htidy hdir).1
  -- a tidy directory has no empty names, so the spans of the line are known
  have hnames : ∀ listing ∈ entries.listings, listing.name ≠ "" := by
    intro listing hmem
    obtain ⟨node, hfind, -⟩ := hentries.mem_listings_iff_find?.1 hmem
    exact (hentries.of_find? hfind).1.ne_empty
  refine ⟨entries.listings.filter fun listing => arguments.contains "-a" || !listing.isHidden,
    hentries.pairwise_listings.filter _, fun listing => ?_, ?_⟩
  · rw [List.mem_filter, hentries.mem_listings_iff_find?]
    simp [Listing.isHidden]
  · rw [runCommand_ls hdir, listingLine_eq _ hnames]
    rfl

/-- Options on both sides of the path, a hidden directory, and names that are not in the order in
which they were made. -/
theorem runCommand_ls_shows_hidden :
    let edits : List Edit :=
      [.makeDirectory "/d/b", .write "/d/a" "x", .makeDirectory "/d/.h"]
    let env : Environment :=
      { config := {}
        tree := Tree.empty.grow edits
        clock := .ok (.ofUnixSeconds 0)
        cwd := "/d/b"
        history := [] }
    (∃ entries, env.tree.lookup (env.resolve "..") = some (.directory entries)) ∧
      registry.runCommand "ls" ["-l", "..", "-a", "/"] env
        = { result := .ok (.lines
              [{ spans := [⟨".h/", .directory⟩, ⟨"  ", .plain⟩, ⟨"a", .plain⟩, ⟨"  ", .plain⟩,
                  ⟨"b/", .directory⟩] }])
            cwd := "/d/b" } := by
  intro edits env
  obtain ⟨entries, hdir⟩ : ∃ entries : Directory,
      env.tree.lookup (env.resolve "..") = some (.directory entries) :=
    Tree.lookup_eq_directory.2 (by decide +kernel)
  have hlist : env.tree.list? (env.resolve "..")
      = some [⟨".h", .directory⟩, ⟨"a", .file⟩, ⟨"b", .directory⟩] := by
    decide +kernel
  have hlistings : entries.listings = [⟨".h", .directory⟩, ⟨"a", .file⟩, ⟨"b", .directory⟩] := by
    rw [Tree.list?, hdir] at hlist
    exact Option.some.inj hlist
  have htidy : (Node.directory entries).Tidy :=
    (Node.Tidy.descend (Tree.tidy_empty.grow edits) hdir).1
  obtain ⟨shown, hordered, hmem, hrun⟩ :=
    runCommand_ls_shows edits env rfl ["-l", "..", "-a", "/"] entries hdir
  have hshown : shown = entries.listings := by
    refine eq_of_ordered hordered htidy.pairwise_listings fun listing => ?_
    rw [hmem, htidy.mem_listings_iff_find?]
    simp
  rw [hshown, hlistings] at hrun
  exact ⟨⟨entries, hdir⟩, hrun⟩

end MiniShell.Builtin
