import MiniShell.Proofs.Path.Cut
import MiniShell.Proofs.Path.Detour
import MiniShell.Proofs.Tree.Growth

/-!
# Lookups of resolved paths

A lookup takes a path as it stands, and resolution rewrites it first. In a tidy tree no name moves,
so a path that leads somewhere has nothing in it to be rewritten but slashes, and the two agree. A
name that was read off a listing leads to the child that has it when it is typed in the directory
listed. Only `~` is taken for something else, and has to be typed as `./~`.

* `Path.resolve_child`, `Path.resolve_dot_child`: a name typed in a directory;
* `Tree.Tidy.lookup_normalize`: a path that leads somewhere, normalized;
* `Tree.lookup_of_segments_concat`: one name further;
* `Tree.lookup_resolve_agrees`: lookups before and after resolution.
-/

namespace MiniShell

/-! ## Names typed in a directory -/

namespace Path

variable {dir name : String}

/-- A name other than the tilde `IsOnward`. -/
lemma IsName.isOnward (h : IsName name) (htilde : name ≠ "~") : IsOnward name := by
  refine ⟨?_, htilde, ?_⟩
  · intro hhead
    exact h.no_slash (List.mem_of_mem_head? hhead)
  · intro hhomeward
    have hslash : '/' ∈ ['~', '/'] := by simp
    exact h.no_slash (hhomeward.subset hslash)

lemma isOnward_dot_append_slash (rest : String) : IsOnward ("." ++ "/" ++ rest) := by
  have hdot : IsOnward "." := ⟨by simp, by decide, by simp⟩
  exact hdot.append_slash (by decide) rest

lemma resolve_child (hname : IsName name) (htilde : name ≠ "~") (dir home : String) :
    resolve dir home name = normalize (dir ++ "/" ++ name) := by
  rw [resolve_eq_normalize_expand hname.ne_empty, expand_of_isOnward (hname.isOnward htilde)]

/-- Behind `./` every text is resolved behind the working directory. -/
lemma resolve_dot_child (dir home name : String) :
    resolve dir home ("./" ++ name) = normalize (dir ++ "/" ++ name) := by
  have htyped : "./" ++ name = "." ++ "/" ++ name := rfl
  rw [htyped, resolve_eq_normalize_expand (by simp),
    expand_of_isOnward (isOnward_dot_append_slash name)]
  simp only [← String.append_assoc]
  exact normalize_of_isDetour isDetour_dot dir name

lemma segments_normalize_child (hdir : isNormal dir = true) (hname : IsName name) :
    segments (normalize (dir ++ "/" ++ name)) = segments dir ++ [name] := by
  have hsegments : segments (dir ++ "/" ++ name) = segments dir ++ [name] := by
    rw [segments_append_slash, segments_of_no_slash hname.ne_empty hname.no_slash]
  have hstill : ∀ other ∈ segments (dir ++ "/" ++ name), isRelative other = false := by
    rw [hsegments]
    intro other hother
    rcases List.mem_append.1 hother with hother | hother
    · exact (isName_of_isNormal hdir other hother).not_relative
    · rw [List.mem_singleton.1 hother]
      exact hname.not_relative
  rw [segments_normalize hstill, hsegments]

end Path

open MiniShell.Path

namespace Tree

variable {tree : Tree} {path dir name home : String} {node : Node} {entries : Directory}
  {listing : Listing}

/-! ## Lookups -/

/-- In a `Tidy` tree, no segment of a path that leads somewhere moves. -/
lemma Tidy.not_relative_of_lookup (h : tree.Tidy) (hlookup : tree.lookup path = some node) :
    ∀ name ∈ segments path, isRelative name = false :=
  fun name hname => ((Node.Tidy.descend h hlookup).2 name hname).not_relative

/-- In a `Tidy` tree, a path that leads somewhere leads there after it was normalized. -/
lemma Tidy.lookup_normalize (h : tree.Tidy) (hlookup : tree.lookup path = some node) :
    tree.lookup (normalize path) = some node := by
  rw [lookup, segments_normalize (h.not_relative_of_lookup hlookup)]
  exact hlookup

lemma lookup_of_segments_concat (hdir : tree.lookup dir = some (.directory entries))
    (hpath : segments path = segments dir ++ [name]) :
    tree.lookup path = NameMap.find? name entries := by
  have hdescend : tree.root.descend (segments dir) = some (.directory entries) := hdir
  rw [lookup, hpath, Node.descend_append, hdescend, Option.bind_some, Node.descend]
  cases NameMap.find? name entries <;> rfl

/-- In a `Tidy` tree, a name out of a listing leads to the child that has it, from the directory
listed and behind a dot, and without the dot as well unless it is the tilde. -/
lemma Tidy.lookup_of_mem_listings (h : tree.Tidy) (hnormal : isNormal dir = true)
    (hdir : tree.lookup dir = some (.directory entries)) (hmem : listing ∈ entries.listings)
    (home : String) :
    ∃ child, NameMap.find? listing.name entries = some child ∧ child.kind = listing.kind ∧
      tree.lookup (resolve dir home ("./" ++ listing.name)) = some child ∧
      (listing.name ≠ "~" → tree.lookup (resolve dir home listing.name) = some child) := by
  have hentries : (Node.directory entries).Tidy := (Node.Tidy.descend h hdir).1
  obtain ⟨child, hfind, hkind⟩ := hentries.mem_listings_iff_find?.1 hmem
  have hname : IsName listing.name := (hentries.of_find? hfind).1
  -- both spellings resolve to the directory with the name behind it
  have hchild : tree.lookup (normalize (dir ++ "/" ++ listing.name)) = some child := by
    rw [lookup_of_segments_concat hdir (segments_normalize_child hnormal hname), hfind]
  refine ⟨child, hfind, hkind, ?_, fun htilde => ?_⟩
  · rw [resolve_dot_child, hchild]
  · rw [resolve_child hname htilde, hchild]

/-- **Lookups agree before and after resolution.** In a tree that edits grew, made in full or not,
a path with a slash in front that leads to a node has no segment `.` or `..`, and leads to the same
node after it was resolved, in any directory and for any home. A directory can be listed, and each
name listed, typed in the directory behind `./`, resolves to a path to the child that has it, which
is of the kind listed; so does the name by itself, unless it is `~`. -/
theorem lookup_resolve_agrees (edits : List Edit) (home : String) :
    let tree := Tree.empty.grow edits
    (∀ cwd path node, path.toList.head? = some '/' → tree.lookup path = some node →
      (∀ name ∈ segments path, name ≠ "." ∧ name ≠ "..") ∧
        tree.lookup (resolve cwd home path) = some node) ∧
    ∀ (dir : String) (entries : Directory), isNormal dir = true →
      tree.lookup dir = some (.directory entries) →
      ∃ listings, tree.list? dir = some listings ∧
        ∀ listing ∈ listings, ∃ child, NameMap.find? listing.name entries = some child ∧
          child.kind = listing.kind ∧
          tree.lookup (resolve dir home ("./" ++ listing.name)) = some child ∧
          (listing.name ≠ "~" → tree.lookup (resolve dir home listing.name) = some child) := by
  intro tree
  have htidy : tree.Tidy := tidy_empty.grow edits
  refine ⟨fun cwd path node habsolute hlookup => ⟨fun name hname => ?_, ?_⟩,
    fun dir entries hnormal hdir => ⟨entries.listings, ?_, fun listing hmem => ?_⟩⟩
  · exact isRelative_eq_false_iff.1 (htidy.not_relative_of_lookup hlookup name hname)
  · rw [resolve_of_absolute habsolute]
    exact htidy.lookup_normalize hlookup
  · rw [list?, hdir]
    rfl
  · exact htidy.lookup_of_mem_listings hnormal hdir hmem home

/-- A file spelled with more slashes than it needs; and a file that is called like the tilde, which
leads to it behind a dot, and home without. -/
theorem lookup_resolve_agrees_tilde :
    let edits : List Edit :=
      [.makeDirectory "a/../b", .write "/a/~" "tilde", .makeDirectory "/a/c"]
    let tree := Tree.empty.grow edits
    "//a///~/".toList.head? = some '/' ∧ tree.lookup "//a///~/" = some (.file "tilde") ∧
      tree.lookup (resolve "/a/c" "/a/c" "//a///~/") = some (.file "tilde") ∧
      isNormal "/a" = true ∧
      ∃ entries, tree.lookup "/a" = some (.directory entries) ∧
        tree.list? "/a" = some [⟨"c", .directory⟩, ⟨"~", .file⟩] ∧
        (∃ child, NameMap.find? "~" entries = some child ∧ child.kind = .file ∧
          tree.lookup (resolve "/a" "/a/c" "./~") = some child) ∧
        (∃ child, child.kind = .directory ∧
          tree.lookup (resolve "/a" "/a/c" "c") = some child) ∧
        ∃ held, tree.lookup (resolve "/a" "/a/c" "~") = some (.directory held) := by
  intro edits tree
  have hfile : tree.lookup "//a///~/" = some (.file "tilde") :=
    lookup_eq_file.2 (by decide +kernel)
  have hnormal : isNormal "/a" = true := by decide +kernel
  have hlist : tree.list? "/a" = some [⟨"c", .directory⟩, ⟨"~", .file⟩] := by decide +kernel
  obtain ⟨entries, hdir⟩ : ∃ entries, tree.lookup "/a" = some (.directory entries) :=
    lookup_eq_directory.2 (by decide +kernel)
  obtain ⟨hpaths, hlistings⟩ := lookup_resolve_agrees edits "/a/c"
  obtain ⟨listings, hlistings, hchildren⟩ := hlistings "/a" entries hnormal hdir
  obtain rfl := Option.some.inj (hlist.symm.trans hlistings)
  obtain ⟨child, hfind, hkind, hdot, -⟩ := hchildren ⟨"~", .file⟩ (by simp)
  obtain ⟨other, -, hother, -, hplain⟩ := hchildren ⟨"c", .directory⟩ (by simp)
  have hhome : ∃ held, tree.lookup (resolve "/a" "/a/c" "~") = some (.directory held) :=
    lookup_eq_directory.2 (by decide +kernel)
  exact ⟨by simp, hfile, (hpaths "/a/c" "//a///~/" _ (by simp) hfile).2, hnormal, entries, hdir,
    hlist, ⟨child, hfind, hkind, hdot⟩, ⟨other, hother, hplain (by decide)⟩, hhome⟩

end Tree

end MiniShell
