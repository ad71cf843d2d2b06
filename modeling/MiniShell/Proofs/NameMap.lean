import Mathlib.Data.String.Basic
import MiniShell.NameMap

/-!
# Maps in order of names

Binding a name keeps the bindings in order, and in an order that is strict every binding is found by
its name.

* `Ordered.insert`: binding keeps the order;
* `Ordered.find?_eq_some_iff`: what is bound is what is found;
* `Ordered.ext`: maps in order that find the same are the same.
-/

namespace MiniShell.NameMap

variable {α : Type} {name : String} {value : α} {entries : NameMap α}

/-- Every name is less than those after it. -/
def Ordered (entries : NameMap α) : Prop :=
  entries.Pairwise fun earlier later => earlier.1 < later.1

lemma mem_of_find? (h : find? name entries = some value) : (name, value) ∈ entries := by
  induction entries with
  | nil => nomatch h
  | cons entry rest ih =>
    obtain ⟨other, old⟩ := entry
    rw [find?] at h
    split at h
    · rename_i hname
      rw [Option.some.injEq] at h
      rw [hname, h]
      exact List.mem_cons_self
    · exact List.mem_cons_of_mem _ (ih h)

/-- The bindings after an `insert` are the new one and old ones. -/
lemma mem_insert {entry : String × α} (h : entry ∈ insert name value entries) :
    entry = (name, value) ∨ entry ∈ entries := by
  induction entries with
  | nil => exact Or.inl (List.mem_singleton.1 h)
  | cons first rest ih =>
    obtain ⟨other, old⟩ := first
    rw [insert] at h
    split at h
    · rcases List.mem_cons.1 h with h | h
      · exact Or.inl h
      · exact Or.inr (List.mem_cons_of_mem _ h)
    · split at h
      · exact List.mem_cons.1 h
      · rcases List.mem_cons.1 h with h | h
        · exact Or.inr (List.mem_cons.2 (Or.inl h))
        · exact (ih h).imp_right (List.mem_cons_of_mem _)

namespace Ordered

/-- The order is kept by `NameMap.insert`. -/
theorem insert (h : entries.Ordered) (name : String) (value : α) :
    Ordered (NameMap.insert name value entries) := by
  induction entries with
  | nil => exact List.pairwise_singleton _ _
  | cons first rest ih =>
    obtain ⟨other, old⟩ := first
    obtain ⟨hfirst, hrest⟩ := List.pairwise_cons.1 h
    rw [NameMap.insert]
    split
    · rename_i hsame
      subst hsame
      exact List.pairwise_cons.2 ⟨hfirst, hrest⟩
    · rename_i hne
      split
      · rename_i hbefore
        -- the name is before the first one, and so before all of them
        refine List.pairwise_cons.2 ⟨fun entry hentry => ?_, h⟩
        rcases List.mem_cons.1 hentry with rfl | hentry
        · exact hbefore
        · exact hbefore.trans (hfirst entry hentry)
      · rename_i hafter
        refine List.pairwise_cons.2 ⟨fun entry hentry => ?_, ih hrest⟩
        rcases mem_insert hentry with rfl | hentry
        · exact lt_of_le_of_ne (not_lt.1 hafter) hne
        · exact hfirst entry hentry

/-- Where names are in order, `find?` finds what is bound, wherever it stands. -/
theorem find?_eq_some_iff (h : entries.Ordered) :
    find? name entries = some value ↔ (name, value) ∈ entries := by
  refine ⟨mem_of_find?, fun hmem => ?_⟩
  induction entries with
  | nil => nomatch hmem
  | cons first rest ih =>
    obtain ⟨other, old⟩ := first
    obtain ⟨hfirst, hrest⟩ := List.pairwise_cons.1 h
    rcases List.mem_cons.1 hmem with heq | hmem
    · rw [Prod.mk.injEq] at heq
      obtain ⟨rfl, rfl⟩ := heq
      rw [find?, if_pos rfl]
    · have hne : other ≠ name := (hfirst (name, value) hmem).ne
      rw [find?, if_neg hne, ih hrest hmem]

lemma nodup (h : entries.Ordered) : entries.Nodup :=
  h.imp fun hlt heq => hlt.ne (congrArg Prod.fst heq)

/-- Maps in order are the same if `find?` finds the same in them under every name. -/
theorem ext {other : NameMap α} (h : entries.Ordered) (h' : other.Ordered)
    (hfind : ∀ name, find? name entries = find? name other) : entries = other := by
  have hmem : ∀ entry, entry ∈ entries ↔ entry ∈ other := by
    intro entry
    obtain ⟨name, value⟩ := entry
    rw [← h.find?_eq_some_iff, hfind name, h'.find?_eq_some_iff]
  have hperm : entries.Perm other := (List.perm_ext_iff_of_nodup h.nodup h'.nodup).2 hmem
  exact hperm.eq_of_pairwise (fun _ _ _ _ hlt hgt => absurd hgt hlt.asymm) h h'

end Ordered

end MiniShell.NameMap
