import MiniShell.Proofs.Path.Cut
import MiniShell.Proofs.Text.Slice

/-!
# Cutting paths at byte positions

The last name of a path can be cut off at the byte position of a slash, and so can the directory in
front of it, from the path with or without the slashes at its end. These cuts are at borders of
characters whatever the names are, and they give what cutting by characters gives.

* `trimSlashes_of_cut?`, `lastSlash?_of_cut?`: where the last slash is;
* `parentAndNameInBytes?_eq`: the directory and the name;
* `directoryInBytes?_eq`: the directory, unless it is the root.
-/

namespace MiniShell

namespace Path

variable {path before name : String}

def trimSlashes (path : String) : String :=
  String.ofList (path.toList.rdropWhile (· == '/'))

/-- The byte position of the last slash of a text, found in its `Text.charIndices`. -/
def lastSlash? (text : String) : Option Nat :=
  ((Text.charIndices 0 text.toList).reverse.find? fun (_, c) => c == '/').map Prod.fst

/-- Computes `parentAndName?` with cuts at byte positions of the path without the slashes at its
end. Fails if a cut is within a character. -/
def parentAndNameInBytes? (path : String) : Option (Option (String × String)) :=
  let trimmed := trimSlashes path
  match lastSlash? trimmed with
  | none => some none
  | some i => do
    let name ← Text.slice? trimmed (i + 1) trimmed.utf8ByteSize
    if name = "" then pure none
    else
      let parent ← if i = 0 then pure "/" else Text.slice? trimmed 0 i
      pure (some (parent, name))

/-- The text in front of the last slash but those at the end, cut out of the path as it is, if there
is any. Fails if a cut is within a character. -/
def directoryInBytes? (path : String) : Option (Option String) :=
  match lastSlash? (trimSlashes path) with
  | none => some none
  | some i => if 0 < i then (Text.slice? path 0 i).map some else some none

/-! ## Where the last slash is -/

lemma find?_charIndices_eq_none {text : List Char} (h : '/' ∉ text) (position : Nat) :
    (Text.charIndices position text).reverse.find? (fun (_, c) => c == '/') = none := by
  rw [List.find?_eq_none]
  intro pair hpair hslash
  have hmem : pair.2 ∈ (Text.charIndices position text).map Prod.snd :=
    List.mem_map_of_mem (List.mem_reverse.1 hpair)
  rw [Text.map_charIndices, beq_iff_eq.1 hslash] at hmem
  exact h hmem

lemma lastSlash?_of_no_slash {text : String} (h : '/' ∉ text.toList) : lastSlash? text = none := by
  rw [lastSlash?, find?_charIndices_eq_none h, Option.map_none]

/-- The position that `lastSlash?` finds comes after the bytes in front of the slash. -/
lemma lastSlash?_append (before : String) (h : '/' ∉ name.toList) :
    lastSlash? (before ++ "/" ++ name) = some before.utf8ByteSize := by
  have hlist : (before ++ "/" ++ name).toList = before.toList ++ '/' :: name.toList := by simp
  rw [lastSlash?, hlist, Text.charIndices_append, Text.charIndices, List.reverse_append,
    List.reverse_cons, List.append_assoc, List.find?_append, find?_charIndices_eq_none h]
  simp

/-- Where `cut?` cuts a path, its name ends it but for slashes. -/
lemma trimSlashes_of_cut? (h : cut? path = some (before, name)) :
    trimSlashes path = before ++ "/" ++ name := by
  obtain ⟨hne, hslash, k, hpath⟩ := eq_of_cut?_eq_some h
  have hlist : path.toList = (before ++ "/" ++ name).toList ++ List.replicate k '/' := by
    rw [hpath]
    simp
  have hname : name.toList ≠ [] := by simpa using hne
  -- the name ends in a character other than a slash
  have hself : (before ++ "/" ++ name).toList.rdropWhile (· == '/')
      = (before ++ "/" ++ name).toList := by
    rw [List.rdropWhile_eq_self_iff]
    intro hne' hlast
    simp only [String.toList_append, List.getLast_append_of_ne_nil _ hname, beq_iff_eq] at hlast
    exact hslash (hlast ▸ List.getLast_mem hname)
  have hdrop : path.toList.rdropWhile (· == '/')
      = (before ++ "/" ++ name).toList.rdropWhile (· == '/') := by
    rw [hlist, List.rdropWhile, List.reverse_append, List.reverse_replicate,
      List.dropWhile_append_of_pos (by simp), ← List.rdropWhile]
  rw [trimSlashes, hdrop, hself, String.ofList_toList]

lemma lastSlash?_of_cut? (h : cut? path = some (before, name)) :
    lastSlash? (trimSlashes path) = some before.utf8ByteSize := by
  rw [trimSlashes_of_cut? h]
  exact lastSlash?_append before (eq_of_cut?_eq_some h).2.1

lemma lastSlash?_of_cut?_eq_none (h : cut? path = none) : lastSlash? (trimSlashes path) = none := by
  apply lastSlash?_of_no_slash
  rw [trimSlashes, String.toList_ofList]
  exact cut?_eq_none_iff_no_slash.1 h

/-! ## Cutting there -/

/-- The directory and the name are cut out without failure, and are those of `parentAndName?`. -/
theorem parentAndNameInBytes?_eq (path : String) :
    parentAndNameInBytes? path = some (parentAndName? path) := by
  cases hcut : cut? path with
  | none =>
    simp only [parentAndNameInBytes?, lastSlash?_of_cut?_eq_none hcut, parentAndName?, hcut]
    rfl
  | some cut =>
    obtain ⟨before, name⟩ := cut
    have htrim := trimSlashes_of_cut? hcut
    -- both cuts are at a slash, so each is at a border of characters
    have hname : Text.slice? (trimSlashes path) (before.utf8ByteSize + 1)
        (trimSlashes path).utf8ByteSize = some name := by
      have hslice := Text.slice?_append (before ++ "/") name ""
      rw [String.append_empty, ← htrim, String.utf8ByteSize_append] at hslice
      exact hslice
    have hparent : Text.slice? (trimSlashes path) 0 before.utf8ByteSize = some before := by
      have hslice := Text.slice?_append "" before ("/" ++ name)
      rw [String.empty_append, ← String.append_assoc, ← htrim] at hslice
      exact hslice
    have hne : name ≠ "" := (eq_of_cut?_eq_some hcut).1
    simp only [parentAndNameInBytes?, lastSlash?_of_cut? hcut, hname, hparent, parentAndName?,
      hcut, String.utf8ByteSize_eq_zero_iff]
    by_cases hbefore : before = "" <;> simp [hbefore, hne]

/-- The text in front of the last slash is cut out without failure, and is what `cut?` has there. -/
theorem directoryInBytes?_eq (path : String) :
    directoryInBytes? path = some (((cut? path).map Prod.fst).filter (· ≠ "")) := by
  cases hcut : cut? path with
  | none =>
    simp only [directoryInBytes?, lastSlash?_of_cut?_eq_none hcut]
    rfl
  | some cut =>
    obtain ⟨before, name⟩ := cut
    obtain ⟨-, -, k, hpath⟩ := eq_of_cut?_eq_some hcut
    have hslice : Text.slice? path 0 before.utf8ByteSize = some before := by
      have hslice := Text.slice?_append "" before
        ("/" ++ (name ++ String.ofList (List.replicate k '/')))
      rw [String.empty_append, ← String.append_assoc, ← hpath] at hslice
      exact hslice
    simp only [directoryInBytes?, lastSlash?_of_cut? hcut, hslice, Nat.pos_iff_ne_zero, ne_eq,
      String.utf8ByteSize_eq_zero_iff]
    by_cases hbefore : before = "" <;> simp [hbefore, Option.filter]

end Path

end MiniShell
