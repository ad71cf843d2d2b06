import MiniShell.Proofs.Tree.Growth

/-!
# Tidy trees are their views

In a tidy tree names are in order, so there is only one way to hold the same nodes. Whatever is said
of views, such as that two edits do the same in either order, is therefore true of the trees
themselves.

* `Tree.Tidy.ext`: tidy trees with the same view are the same;
* `Tree.Tidy.lookup_congr`: where the views agree from some names on, lookups find the same node.
-/

namespace MiniShell

open MiniShell.Path

/-! ## Nodes -/

/-- Nodes that are `Tidy` with the same below them everywhere are the same. -/
theorem Node.Tidy.ext {node other : Node} (h : node.Tidy) (h' : other.Tidy)
    (hview : ∀ names, (node.descend names).map Node.entry = (other.descend names).map Node.entry) :
    node = other := by
  induction h generalizing other with
  | file content =>
    have hhere := hview []
    cases other with
    | file held => simpa [Node.descend, Node.entry] using hhere
    | directory held => simp [Node.descend, Node.entry] at hhere
  | @directory entries named ordered below ih =>
    cases other with
    | file held =>
      have hhere := hview []
      simp [Node.descend, Node.entry] at hhere
    | directory held =>
      have hfind : ∀ name, NameMap.find? name entries = NameMap.find? name held := by
        intro name
        -- one name down, the views still agree
        have hbelow : ∀ names,
            ((NameMap.find? name entries).bind (Node.descend names)).map Node.entry
              = ((NameMap.find? name held).bind (Node.descend names)).map Node.entry :=
          fun names => hview (name :: names)
        cases hmine : NameMap.find? name entries with
        | none =>
          cases hyours : NameMap.find? name held with
          | none => rfl
          | some twin => simpa [hmine, hyours, Node.descend] using hbelow []
        | some child =>
          cases hyours : NameMap.find? name held with
          | none => simpa [hmine, hyours, Node.descend] using hbelow []
          | some twin =>
            have hsame : child = twin := by
              apply ih (name, child) (NameMap.mem_of_find? hmine) (h'.of_find? hyours).2
              intro names
              simpa [hmine, hyours] using hbelow names
            rw [hsame]
      rw [ordered.ext h'.ordered hfind]

namespace Tree.Tidy

variable {tree other : Tree} {path : String}

/-! ## Trees -/

/-- Trees that are `Tidy` and in which the same stands everywhere are the same. -/
theorem ext (h : tree.Tidy) (h' : other.Tidy) (hview : ∀ names, tree.at? names = other.at? names) :
    tree = other := by
  have hroot : tree.root = other.root := Node.Tidy.ext h h' hview
  have hentries : tree.entries = other.entries := Node.directory.inj hroot
  show Tree.mk tree.entries = Tree.mk other.entries
  rw [hentries]

/-- Where tidy trees agree on everything that starts with the segments of a path, the path leads to
the same node in both. -/
theorem lookup_congr (h : tree.Tidy) (h' : other.Tidy)
    (hview : ∀ names, segments path <+: names → tree.at? names = other.at? names) :
    tree.lookup path = other.lookup path := by
  -- the two nodes look the same along every way below them
  have hbelow : ∀ names, ((tree.lookup path).bind (Node.descend names)).map Node.entry
      = ((other.lookup path).bind (Node.descend names)).map Node.entry := by
    intro names
    rw [Tree.lookup, Tree.lookup, ← Node.descend_append, ← Node.descend_append]
    exact hview (segments path ++ names) (List.prefix_append _ names)
  cases hmine : tree.lookup path with
  | none =>
    cases hyours : other.lookup path with
    | none => rfl
    | some twin => simpa [hmine, hyours, Node.descend] using hbelow []
  | some node =>
    cases hyours : other.lookup path with
    | none => simpa [hmine, hyours, Node.descend] using hbelow []
    | some twin =>
      have hsame : node = twin := by
        apply Node.Tidy.ext (Node.Tidy.descend h hmine).1 (Node.Tidy.descend h' hyours).1
        intro names
        simpa [hmine, hyours] using hbelow names
      rw [hsame]

end Tree.Tidy

end MiniShell
