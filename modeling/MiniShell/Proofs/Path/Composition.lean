import MiniShell.Proofs.Path.Resolve

/-!
# Resolving in two steps

A path typed behind another one, with a slash between them, means what it means in the directory
that the other one stands for. This holds for every path that does not start at the root or at home,
and whatever `..` in it takes back.

* `IsOnward`: a path that goes on from where it is typed;
* `expand`: the text that a typed path is short for;
* `normalize_normalize_append_slash`: a path can be normalized before more is put behind it;
* `resolve_append_slash`: resolving two paths as one, or one after the other.
-/

namespace MiniShell.Path

variable {cwd home typed : String}

/-! ## Going on -/

/-- A typed path that goes on from where it is typed: it starts neither at the root nor at home. -/
structure IsOnward (typed : String) : Prop where
  not_absolute : typed.toList.head? ≠ some '/'
  not_home : typed ≠ "~"
  not_homeward : ¬ ['~', '/'] <+: typed.toList

/-- Something typed is the home, starts at home or at the root, or `IsOnward`. -/
lemma isOnward_cases (typed : String) :
    typed = "~" ∨ (∃ rest, typed = "~/" ++ rest) ∨ (∃ rest, typed = "/" ++ rest) ∨
      IsOnward typed := by
  by_cases hhome : typed = "~"
  · exact Or.inl hhome
  · by_cases hhomeward : ['~', '/'] <+: typed.toList
    · obtain ⟨rest, hrest⟩ := hhomeward
      refine Or.inr (Or.inl ⟨String.ofList rest, String.toList_inj.1 ?_⟩)
      simp [← hrest]
    · by_cases habsolute : typed.toList.head? = some '/'
      · obtain ⟨rest, hrest⟩ := List.head?_eq_some_iff.1 habsolute
        refine Or.inr (Or.inr (Or.inl ⟨String.ofList rest, String.toList_inj.1 ?_⟩))
        simp [hrest]
      · exact Or.inr (Or.inr (Or.inr ⟨habsolute, hhome, hhomeward⟩))

lemma IsOnward.append_slash (h : IsOnward typed) (hne : typed ≠ "") (rest : String) :
    IsOnward (typed ++ "/" ++ rest) := by
  have hlist : (typed ++ "/" ++ rest).toList = typed.toList ++ '/' :: rest.toList := by simp
  cases htyped : typed.toList with
  | nil => exact absurd (String.toList_eq_nil_iff.1 htyped) hne
  | cons c more =>
    have habsolute := h.not_absolute
    have hhomeward := h.not_homeward
    rw [htyped] at hlist habsolute hhomeward
    refine ⟨?_, ?_, ?_⟩
    · rw [hlist]
      exact habsolute
    · intro htilde
      rw [htilde] at hlist
      simp at hlist
    · rw [hlist]
      intro hbegins
      cases more with
      | nil =>
        -- only the tilde alone becomes the start at home
        rw [List.singleton_append, List.cons_prefix_cons] at hbegins
        apply h.not_home
        apply String.toList_inj.1
        rw [htyped, ← hbegins.1]
        simp
      | cons d more =>
        apply hhomeward
        simpa using hbegins

/-! ## What a typed path is short for -/

/-- The text that a typed path is short for, before `normalize`: the path behind the home, the root
or the working directory. -/
def expand (cwd home typed : String) : String :=
  match typed.toList with
  | ['~'] => home
  | '~' :: '/' :: rest => home ++ "/" ++ String.ofList rest
  | '/' :: _ => typed
  | _ => cwd ++ "/" ++ typed

lemma expand_of_isOnward (h : IsOnward typed) (cwd home : String) :
    expand cwd home typed = cwd ++ "/" ++ typed := by
  unfold expand
  split
  case h_1 htilde => exact absurd (String.toList_inj.1 (by simp [htilde])) h.not_home
  case h_2 rest hhomeward => exact absurd ⟨rest, hhomeward.symm⟩ h.not_homeward
  case h_3 rest habsolute => exact absurd (by rw [habsolute]; rfl) h.not_absolute
  case h_4 => rfl

/-- Something typed is resolved by normalizing what `expand` gives. -/
lemma resolve_eq_normalize_expand (h : typed ≠ "") (cwd home : String) :
    resolve cwd home typed = normalize (expand cwd home typed) := by
  unfold resolve expand
  split
  case h_1 hnil => exact absurd (String.toList_eq_nil_iff.1 hnil) h
  case h_2 htilde => simp only [htilde]
  case h_3 rest hhomeward => simp only [hhomeward]
  case h_4 rest habsolute => simp only [habsolute]
  case h_5 htilde hhomeward habsolute =>
    split
    case h_1 hlist => exact absurd hlist htilde
    case h_2 rest hlist => exact absurd hlist (hhomeward rest)
    case h_3 rest hlist => exact absurd hlist (habsolute rest)
    case h_4 => rfl

lemma expand_append_slash (h : typed ≠ "") (cwd home rest : String) :
    expand cwd home (typed ++ "/" ++ rest) = expand cwd home typed ++ "/" ++ rest := by
  rcases isOnward_cases typed with rfl | ⟨more, rfl⟩ | ⟨more, rfl⟩ | honward
  · simp [expand]
  · simp [expand, String.append_assoc]
  · simp [expand]
  · rw [expand_of_isOnward (honward.append_slash h rest), expand_of_isOnward honward]
    simp only [String.append_assoc]

/-! ## Normalizing in two steps -/

/-- The segments of a normalized path are what a `walk` along the path passes. -/
lemma segments_normalize_eq_walk (path : String) :
    segments (normalize path) = walk (components path) :=
  segments_ofSegments (isName_of_mem_walk fun _ hc => no_slash_of_mem_components hc)

/-- A path can be given to `normalize` before more is put behind it. -/
theorem normalize_normalize_append_slash (path text : String) :
    normalize (normalize path ++ "/" ++ text) = normalize (path ++ "/" ++ text) := by
  rw [normalize_append_slash (isNormal_normalize path), segments_normalize_eq_walk, walk,
    List.reverse_reverse, ← List.foldl_append, ← components_append_slash]
  rfl

lemma normalize_append_slash_empty (path : String) :
    normalize (path ++ "/" ++ "") = normalize path := by
  rw [normalize, components_append_slash, components_empty, walk, List.foldl_append]
  rfl

/-- Something typed with an onward path behind it resolves as that path does where `resolve` leads
first. -/
theorem resolve_append_slash {second : String} (htyped : typed ≠ "") (hsecond : IsOnward second)
    (cwd home : String) :
    resolve cwd home (typed ++ "/" ++ second) = resolve (resolve cwd home typed) home second := by
  have hne : typed ++ "/" ++ second ≠ "" := by simp
  by_cases hempty : second = ""
  · subst hempty
    rw [resolve_eq_normalize_expand hne, expand_append_slash htyped, normalize_append_slash_empty,
      resolve_empty, resolve_eq_normalize_expand htyped]
  · calc resolve cwd home (typed ++ "/" ++ second)
        = normalize (expand cwd home typed ++ "/" ++ second) := by
          rw [resolve_eq_normalize_expand hne, expand_append_slash htyped]
      _ = normalize (resolve cwd home typed ++ "/" ++ second) := by
          rw [resolve_eq_normalize_expand htyped, normalize_normalize_append_slash]
      _ = resolve (resolve cwd home typed) home second := by
          rw [resolve_eq_normalize_expand hempty, expand_of_isOnward hsecond]

end MiniShell.Path
