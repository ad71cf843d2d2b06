import Mathlib.Data.List.DropRight
import Mathlib.Data.List.TakeWhile
import MiniShell.Proofs.Path.Names

/-!
# The last name of a path

Cutting a path at its last slash works on characters, while trees follow segments. The two agree:
the name that is cut off is the last segment, and what is in front of it has the others.

* `segments_of_cut?`, `segments_of_parentAndName?`: the segments before and after a cut;
* `cut?_eq_none_iff_no_slash`: a path can be cut if there is a slash in front of those at its end;
* `cut?_eq_none_iff`: an absolute path cannot be cut exactly if it has no segments.
-/

namespace MiniShell.Path

/-- The characters of a path without the slashes at its end, the last one first, as `cut?` reads
them. -/
def backward (path : String) : List Char :=
  path.toList.reverse.dropWhile (· == '/')

lemma toList_eq_backward (path : String) :
    ∃ k, path.toList = (backward path).reverse ++ List.replicate k '/' := by
  have hslashes : ∀ c ∈ path.toList.reverse.takeWhile (· == '/'), c = '/' := by
    intro c hc
    simpa using List.mem_takeWhile_imp hc
  have hrep := List.eq_replicate_of_mem hslashes
  refine ⟨(path.toList.reverse.takeWhile (· == '/')).length, ?_⟩
  calc path.toList
      = (path.toList.reverse.takeWhile (· == '/') ++ backward path).reverse := by
        rw [backward, List.takeWhile_append_dropWhile, List.reverse_reverse]
    _ = (backward path).reverse ++ (path.toList.reverse.takeWhile (· == '/')).reverse := by
        rw [List.reverse_append]
    _ = (backward path).reverse
          ++ List.replicate (path.toList.reverse.takeWhile (· == '/')).length '/' := by
        conv_lhs => rw [hrep, List.reverse_replicate]

lemma backward_ne_slash_cons (path : String) (rest : List Char) : backward path ≠ '/' :: rest := by
  intro h
  have hhead := List.head?_dropWhile_not (· == '/') path.toList.reverse
  rw [← backward, h] at hhead
  simp at hhead

/-- Slashes at the end of a text add no `segments`. -/
lemma segments_append_slashes (text : String) (k : Nat) :
    segments (text ++ String.ofList (List.replicate k '/')) = segments text := by
  induction k with
  | zero => simp
  | succ k ih =>
    have hend : text ++ String.ofList (List.replicate (k + 1) '/')
        = text ++ String.ofList (List.replicate k '/') ++ "/" ++ "" := by
      apply String.toList_inj.1
      simp [List.replicate_succ']
    rw [hend, segments_append_slash, ih, segments_empty, List.append_nil]

lemma segments_of_no_slash {name : String} (hne : name ≠ "") (hslash : '/' ∉ name.toList) :
    segments name = [name] := by
  rw [segments, components_of_no_slash hslash]
  simp [hne]

/-- What `cut?` takes apart: the text before the last slash, a name without slashes, and slashes at
the end. -/
lemma eq_of_cut?_eq_some {path before name : String} (h : cut? path = some (before, name)) :
    name ≠ "" ∧ '/' ∉ name.toList ∧
      ∃ k, path = before ++ "/" ++ (name ++ String.ofList (List.replicate k '/')) := by
  have hback : path.toList.reverse.dropWhile (· == '/') = backward path := rfl
  unfold cut? at h
  simp only [hback] at h
  split at h
  · exact absurd h (by simp)
  · rename_i slash front hdrop
    rw [Option.some.injEq, Prod.mk.injEq] at h
    obtain ⟨rfl, rfl⟩ := h
    have hslash : slash = '/' := by
      have hhead := List.head?_dropWhile_not (· != '/') (backward path)
      rw [hdrop] at hhead
      simpa using hhead
    subst hslash
    -- backward: the name, the slash that cuts, and what is in front of it
    have hparts := List.takeWhile_append_dropWhile (p := (· != '/')) (l := backward path)
    rw [hdrop] at hparts
    refine ⟨?_, ?_, ?_⟩
    · intro hempty
      have hnil : (backward path).takeWhile (· != '/') = [] := by
        simpa using congrArg String.toList hempty
      rw [hnil, List.nil_append] at hparts
      exact backward_ne_slash_cons path front hparts.symm
    · rw [String.toList_ofList, List.mem_reverse]
      intro hmem
      simpa using List.mem_takeWhile_imp hmem
    · obtain ⟨k, hpath⟩ := toList_eq_backward path
      refine ⟨k, String.toList_inj.1 ?_⟩
      rw [hpath]
      conv_lhs => rw [← hparts]
      simp

/-- The name that `cut?` cuts off is the last segment. -/
theorem segments_of_cut? {path before name : String} (h : cut? path = some (before, name)) :
    segments path = segments before ++ [name] := by
  obtain ⟨hne, hslash, k, hpath⟩ := eq_of_cut?_eq_some h
  rw [hpath, segments_append_slash, segments_append_slashes, segments_of_no_slash hne hslash]

/-- A path can be cut by `cut?` if it has a slash in front of those at its end, and only then. -/
theorem cut?_eq_none_iff_no_slash {path : String} :
    cut? path = none ↔ '/' ∉ path.toList.rdropWhile (· == '/') := by
  have hcut : cut? path = none ↔ (backward path).dropWhile (· != '/') = [] := by
    have hback : path.toList.reverse.dropWhile (· == '/') = backward path := rfl
    unfold cut?
    simp only [hback]
    split <;> simp [*]
  have hmem : '/' ∈ path.toList.rdropWhile (· == '/') ↔ '/' ∈ backward path :=
    List.mem_reverse
  rw [hcut, hmem, List.dropWhile_eq_nil_iff]
  constructor
  · intro hall hslash
    simpa using hall '/' hslash
  · intro hslash c hc
    simp only [bne_iff_ne, ne_eq]
    exact fun heq => hslash (heq ▸ hc)

/-- An absolute path cannot be cut by `cut?` if it has no segments, and only then. -/
theorem cut?_eq_none_iff {path : String} (habs : path.toList.head? = some '/') :
    cut? path = none ↔ segments path = [] := by
  constructor
  · intro h
    have hslash : '/' ∉ backward path :=
      fun hmem => cut?_eq_none_iff_no_slash.1 h (List.mem_reverse.2 hmem)
    obtain ⟨k, hpath⟩ := toList_eq_backward path
    have hback : backward path = [] := by
      by_contra hne
      -- the first character of the path would be one of those read backward
      have hhead : (backward path).reverse.head? = some '/' := by
        rw [hpath, List.head?_append] at habs
        cases hrev : (backward path).reverse with
        | nil => exact absurd (List.reverse_eq_nil_iff.1 hrev) hne
        | cons first rest => simpa [hrev] using habs
      exact hslash (List.mem_reverse.1 (List.mem_of_mem_head? hhead))
    -- nothing is left but slashes
    have hslashes : path = "" ++ String.ofList (List.replicate k '/') := by
      apply String.toList_inj.1
      rw [hpath, hback]
      simp
    rw [hslashes, segments_append_slashes, segments_empty]
  · intro h
    cases hcut : cut? path with
    | none => rfl
    | some cut =>
      rw [segments_of_cut? hcut] at h
      exact absurd h (by simp)

/-! ## Parents -/

lemma segments_parent (before : String) :
    segments (if before = "" then "/" else before) = segments before := by
  split
  · rename_i h
    rw [h, segments_root, segments_empty]
  · rfl

lemma exists_parentAndName?_iff {path : String} :
    (∃ parent name, parentAndName? path = some (parent, name))
      ↔ '/' ∈ path.toList.rdropWhile (· == '/') := by
  have hcut : ¬ cut? path = none ↔ '/' ∈ path.toList.rdropWhile (· == '/') :=
    cut?_eq_none_iff_no_slash.not_left
  rw [← hcut, parentAndName?]
  cases cut? path <;> simp

/-- The name of `parentAndName?` is the last segment, and the directory has the others. -/
theorem segments_of_parentAndName? {path parent name : String}
    (h : parentAndName? path = some (parent, name)) :
    segments path = segments parent ++ [name] := by
  obtain ⟨⟨before, last⟩, hcut, hparent⟩ := Option.map_eq_some_iff.1 h
  simp only [Prod.mk.injEq] at hparent
  obtain ⟨rfl, rfl⟩ := hparent
  rw [segments_parent, segments_of_cut? hcut]

end MiniShell.Path
