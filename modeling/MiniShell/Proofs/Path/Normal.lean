import MiniShell.Proofs.Path.Names

/-!
# Paths in normal form

A path is in normal form when it is made of names. Normalizing always ends there and changes no
path that is there already, so resolving a typed path in a normal directory gives a normal path.

* `isNormal_iff`: the test for normal form, in terms of names;
* `isNormal_normalize`, `normalize_of_isNormal`: normalizing ends in normal form and stays there;
* `isNormal_resolve`: resolution never leaves normal form;
* `isNormal_iff_normalize_eq`: what the test accepts is what normalizing keeps and what it ends in.
-/

namespace MiniShell.Path

lemma isNormal_root : isNormal "/" = true := by
  simp [isNormal]

lemma isNormal_ofSegments {names : List String} (h : ∀ name ∈ names, IsName name) :
    isNormal (ofSegments names) = true := by
  by_cases hne : names = []
  · subst hne
    exact isNormal_root
  · have hslash : ∀ name ∈ names, '/' ∉ name.toList := fun name hname => (h name hname).no_slash
    have hpath : ofSegments names = "/" ++ "/".intercalate names := by
      cases names with
      | nil => exact absurd rfl hne
      | cons name rest => rfl
    have hlist : (ofSegments names).toList = '/' :: ("/".intercalate names).toList := by
      rw [hpath]
      simp
    -- what follows the first slash is cut into the names again
    rw [isNormal, hlist, Bool.or_eq_true]
    right
    simp only [String.ofList_toList, components_intercalate hne hslash]
    rw [List.all_eq_true]
    intro name hname
    simp [(h name hname).ne_empty, (h name hname).not_relative]

lemma exists_names_of_isNormal {path : String} (h : isNormal path = true) :
    ∃ names, (∀ name ∈ names, IsName name) ∧ path = ofSegments names := by
  rw [isNormal, Bool.or_eq_true] at h
  rcases h with hroot | hrest
  · exact ⟨[], by simp, beq_iff_eq.1 hroot⟩
  · split at hrest
    · rename_i rest hlist
      rw [List.all_eq_true] at hrest
      -- the names are the components of what follows the first slash
      refine ⟨components (String.ofList rest), fun name hname => ?_, ?_⟩
      · have hname' := hrest name hname
        simp only [Bool.and_eq_true, bne_iff_ne, ne_eq, Bool.not_eq_true'] at hname'
        exact ⟨hname'.1, no_slash_of_mem_components hname, hname'.2⟩
      · have hpath : path = "/" ++ String.ofList rest := by
          apply String.toList_inj.1
          rw [hlist]
          simp
        cases hcut : components (String.ofList rest) with
        -- a text has at least one component
        | nil =>
          have hne := List.splitOn_ne_nil '/' (String.ofList rest).toList
          exact absurd (List.map_eq_nil_iff.1 hcut) hne
        | cons name names =>
          rw [ofSegments, ← hcut, intercalate_components, hpath]
          simp
    · exact absurd hrest (by simp)

/-- The paths that are `isNormal` are those that `ofSegments` makes of names. -/
theorem isNormal_iff {path : String} :
    isNormal path = true ↔ ∃ names, (∀ name ∈ names, IsName name) ∧ path = ofSegments names := by
  constructor
  · exact exists_names_of_isNormal
  · intro h
    obtain ⟨names, hnames, rfl⟩ := h
    exact isNormal_ofSegments hnames

/-- A path that is `isNormal` is made of its `segments`. -/
lemma ofSegments_segments {path : String} (h : isNormal path = true) :
    ofSegments (segments path) = path := by
  obtain ⟨names, hnames, rfl⟩ := exists_names_of_isNormal h
  rw [segments_ofSegments hnames]

lemma isName_of_isNormal {path : String} (h : isNormal path = true) :
    ∀ name ∈ segments path, IsName name := by
  obtain ⟨names, hnames, rfl⟩ := exists_names_of_isNormal h
  rw [segments_ofSegments hnames]
  exact hnames

/-- What `normalize` makes of a path is in normal form. -/
theorem isNormal_normalize (path : String) : isNormal (normalize path) = true :=
  isNormal_ofSegments (isName_of_mem_walk fun _ hc => no_slash_of_mem_components hc)

/-- A path in normal form is kept by `normalize` as it is. -/
theorem normalize_of_isNormal {path : String} (h : isNormal path = true) :
    normalize path = path := by
  obtain ⟨names, hnames, rfl⟩ := exists_names_of_isNormal h
  by_cases hne : names = []
  · subst hne
    decide +kernel
  · have hcut := components_ofSegments hne fun name hname => (hnames name hname).no_slash
    -- the empty component before the first slash is a step that stays
    have hwalk : walk ("" :: names) = walk names := by
      rw [walk, walk, List.foldl_cons]
      rfl
    rw [normalize, hcut, hwalk, walk_of_isName hnames]

/-- **The test and the normalizer agree.** The paths that pass the test `isNormal` are those that
`normalize` keeps as they are, and they are those that it ends in. -/
theorem isNormal_iff_normalize_eq (path : String) :
    (isNormal path = true ↔ normalize path = path) ∧
      (isNormal path = true ↔ ∃ other, path = normalize other) := by
  constructor
  · constructor
    · exact normalize_of_isNormal
    · intro h
      rw [← h]
      exact isNormal_normalize path
  · constructor
    · intro h
      exact ⟨path, (normalize_of_isNormal h).symm⟩
    · rintro ⟨other, rfl⟩
      exact isNormal_normalize other

-- three dots are a name, and without a slash in front there is no normal form
example : isNormal "/..." = true ∧ normalize "/..." = "/..." ∧
    isNormal "" = false ∧ normalize "" = "/" ∧ isNormal "a" = false ∧ normalize "a" = "/a" := by
  decide +kernel

/-- What is typed in a normal directory, `resolve` takes to a path in normal form. -/
theorem isNormal_resolve {cwd : String} (h : isNormal cwd = true) (home typed : String) :
    isNormal (resolve cwd home typed) = true := by
  unfold resolve
  split
  · exact h
  all_goals exact isNormal_normalize _

lemma resolve_empty (cwd home : String) : resolve cwd home "" = cwd := by
  simp [resolve]

lemma resolve_tilde {home : String} (h : isNormal home = true) (cwd : String) :
    resolve cwd home "~" = home := by
  have hresolve : resolve cwd home "~" = normalize home := by simp [resolve]
  rw [hresolve, normalize_of_isNormal h]

end MiniShell.Path
