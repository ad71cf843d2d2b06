import MiniShell.Proofs.Path.Composition

/-!
# Detours

A piece of a path may lead back to where it starts: nothing between two slashes, `.`, or a name and
`..` behind it. Such a piece can be put between any two parts of a path, and what the path resolves
to stays the same. At the root, `..` is such a piece as well.

* `IsDetour`: a text whose components lead back, wherever they start;
* `resolve_of_isDetour`: a detour on the way changes nothing;
* `resolve_climb`: climbing from the root stays there.
-/

namespace MiniShell.Path

variable {name detour : String}

/-! ## Leading back -/

/-- Does a walk by `step` along the text end where it starts, wherever that is? -/
def IsDetour (text : String) : Prop :=
  ∀ passed : List String, (components text).foldl step passed = passed

lemma isDetour_empty : IsDetour "" := by
  intro passed
  rw [components_empty]
  rfl

lemma isDetour_dot : IsDetour "." := by
  intro passed
  rw [components_of_no_slash (by decide)]
  rfl

lemma isDetour_down_up (h : IsName name) : IsDetour (name ++ "/..") := by
  intro passed
  have htext : name ++ "/.." = name ++ "/" ++ ".." := by
    rw [String.append_assoc]
    rfl
  rw [htext, components_append_slash, components_of_no_slash h.no_slash,
    components_of_no_slash (by decide), List.singleton_append, List.foldl_cons, step_of_isName h]
  rfl

lemma normalize_of_isDetour (h : IsDetour detour) (front rest : String) :
    normalize (front ++ "/" ++ detour ++ "/" ++ rest) = normalize (front ++ "/" ++ rest) := by
  -- wherever the walk along the front ends, the detour leads back to
  have hback : (components detour).foldl step ((components front).foldl step [])
      = (components front).foldl step [] := h _
  simp only [normalize, walk, components_append_slash, List.foldl_append, hback]

/-! ## Resolving -/

/-- What a path is resolved behind depends on its part in front of a slash only, so that `normalize`
is all that is left to look at. -/
lemma exists_resolve_append_slash (cwd home front : String) :
    ∃ start, ∀ rest,
      resolve cwd home (front ++ "/" ++ rest) = normalize (start ++ "/" ++ rest) := by
  by_cases hfront : front = ""
  · -- with nothing in front of the slash, the path starts at the root
    subst hfront
    exact ⟨"", fun rest => resolve_of_absolute (by simp) cwd home⟩
  · refine ⟨expand cwd home front, fun rest => ?_⟩
    rw [resolve_eq_normalize_expand (by simp), expand_append_slash hfront]

/-- A text that `IsDetour` does not change what a path resolves to. -/
theorem resolve_of_isDetour (h : IsDetour detour) (cwd home front rest : String) :
    resolve cwd home (front ++ "/" ++ detour ++ "/" ++ rest)
      = resolve cwd home (front ++ "/" ++ rest) := by
  obtain ⟨start, hstart⟩ := exists_resolve_append_slash cwd home front
  calc resolve cwd home (front ++ "/" ++ detour ++ "/" ++ rest)
      = resolve cwd home (front ++ "/" ++ (detour ++ "/" ++ rest)) := by
        simp only [String.append_assoc]
    _ = normalize (start ++ "/" ++ detour ++ "/" ++ rest) := by
        rw [hstart]
        simp only [String.append_assoc]
    _ = normalize (start ++ "/" ++ rest) := normalize_of_isDetour h start rest
    _ = resolve cwd home (front ++ "/" ++ rest) := (hstart rest).symm

lemma normalize_up (rest : String) : normalize ("/../" ++ rest) = normalize ("/" ++ rest) := by
  have htext : "/../" ++ rest = "/" ++ (".." ++ "/" ++ rest) := by
    simp only [← String.append_assoc]
    rfl
  rw [htext, normalize, normalize, components_slash_append, components_slash_append,
    components_append_slash, components_of_no_slash (by decide)]
  rfl

/-- Any number of steps up from the root stays there. -/
theorem resolve_climb (k : Nat) (cwd home rest : String) :
    resolve cwd home ("/" ++ String.join (List.replicate k "../") ++ rest)
      = resolve cwd home ("/" ++ rest) := by
  rw [resolve_of_absolute (by simp), resolve_of_absolute (by simp)]
  induction k with
  | zero => simp
  | succ k ih =>
    have hstep : "/" ++ String.join (List.replicate (k + 1) "../") ++ rest
        = "/../" ++ (String.join (List.replicate k "../") ++ rest) := by
      rw [List.replicate_succ, String.join_cons]
      simp only [← String.append_assoc]
      rfl
    rw [hstep, normalize_up, ← String.append_assoc]
    exact ih

/-- **Detours change nothing.** Between two parts of a path, nothing, a dot, or a name and `..`
behind it can be left out, whatever the parts are; and so can any number of `..` at the root. -/
theorem resolve_append_detour (h : IsName name) (cwd home front rest : String) :
    (∀ detour ∈ ["", ".", name ++ "/.."],
      resolve cwd home (front ++ "/" ++ detour ++ "/" ++ rest)
        = resolve cwd home (front ++ "/" ++ rest)) ∧
    ∀ k : Nat, resolve cwd home ("/" ++ String.join (List.replicate k "../") ++ rest)
      = resolve cwd home ("/" ++ rest) := by
  refine ⟨fun detour hdetour => ?_, fun k => resolve_climb k cwd home rest⟩
  have hback : IsDetour detour := by
    simp only [List.mem_cons, List.not_mem_nil, or_false] at hdetour
    rcases hdetour with rfl | rfl | rfl
    · exact isDetour_empty
    · exact isDetour_dot
    · exact isDetour_down_up h
  exact resolve_of_isDetour hback cwd home front rest

/-- From home, a detour through a name of dots and then a real way up; and from the root, further up
than there is anything. -/
theorem resolve_append_detour_homeward :
    IsName "..." ∧
      resolve "/var" "/home/u" "~/.../../../log" = "/home/log" ∧
      resolve "/var" "/home/u" "/../../../log" = "/log" := by
  have hname : IsName "..." := ⟨by decide, by decide, by decide⟩
  obtain ⟨hdetour, -⟩ := resolve_append_detour hname "/var" "/home/u" "~" "../log"
  obtain ⟨-, hclimb⟩ := resolve_append_detour hname "/var" "/home/u" "" "log"
  have hhomeward : "~/.../../../log" = "~" ++ "/" ++ ("..." ++ "/..") ++ "/" ++ "../log" := by
    decide
  have habove : "/../../../log" = "/" ++ String.join (List.replicate 3 "../") ++ "log" := by
    decide
  refine ⟨hname, ?_, ?_⟩
  · rw [hhomeward, hdetour ("..." ++ "/..") (by simp)]
    decide +kernel
  · rw [habove, hclimb 3]
    decide +kernel

end MiniShell.Path
