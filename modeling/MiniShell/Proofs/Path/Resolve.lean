import MiniShell.Proofs.Path.Normal

/-!
# Resolved paths

Whatever is typed, and wherever, resolves to an absolute path made of names, unless nothing is typed
in a directory that is no such path. A resolved path means the same to everyone: typed again, from
any directory and by the user of any home, it resolves to itself.

* `head?_of_isNormal`, `components_of_isNormal`, `getLast?_of_isNormal`: how a path in normal form
  is spelled;
* `isNormal_resolve_of_ne_empty`: something typed resolves to normal form from any directory;
* `resolve_of_isNormal`: a path in normal form resolves to itself;
* `resolve_eq`: where resolution starts, and the steps that it takes from there.
-/

namespace MiniShell.Path

variable {path cwd home typed : String}

/-! ## How normal form is spelled -/

lemma head?_of_isNormal (h : isNormal path = true) : path.toList.head? = some '/' := by
  obtain ⟨names, -, rfl⟩ := exists_names_of_isNormal h
  cases names with
  | nil => simp [ofSegments]
  | cons name names => simp [ofSegments]

lemma segments_ne_nil_of_isNormal (h : isNormal path = true) (hroot : path ≠ "/") :
    segments path ≠ [] := by
  intro hnil
  have hpath := ofSegments_segments h
  rw [hnil] at hpath
  exact hroot hpath.symm

/-- The components of a path that is `isNormal` are its segments behind nothing. -/
lemma components_of_isNormal (h : isNormal path = true) (hroot : path ≠ "/") :
    components path = "" :: segments path := by
  have hslash : ∀ name ∈ segments path, '/' ∉ name.toList :=
    fun name hname => (isName_of_isNormal h name hname).no_slash
  conv_lhs => rw [← ofSegments_segments h]
  exact components_ofSegments (segments_ne_nil_of_isNormal h hroot) hslash

lemma getLast?_of_isNormal (h : isNormal path = true) (hroot : path ≠ "/") :
    path.toList.getLast? ≠ some '/' := by
  intro hlast
  obtain ⟨front, hfront⟩ := List.getLast?_eq_some_iff.1 hlast
  have hpath : path = String.ofList front ++ "/" ++ "" := by
    apply String.toList_inj.1
    simp [hfront]
  -- the slash at the end would cut off an empty component, but names are not empty
  have hcut := components_of_isNormal h hroot
  rw [hpath, components_append_slash, components_empty, ← hpath] at hcut
  have hend := congrArg List.getLast? hcut
  rw [List.getLast?_concat,
    List.getLast?_cons_of_ne_nil (segments_ne_nil_of_isNormal h hroot)] at hend
  have hmem : "" ∈ segments path := List.mem_of_getLast? hend.symm
  exact (isName_of_isNormal h "" hmem).ne_empty rfl

/-! ## Resolving -/

lemma resolve_of_absolute (h : typed.toList.head? = some '/') (cwd home : String) :
    resolve cwd home typed = normalize typed := by
  obtain ⟨rest, hrest⟩ := List.head?_eq_some_iff.1 h
  simp [resolve, hrest]

/-- A path that is `isNormal` resolves to itself. -/
theorem resolve_of_isNormal (h : isNormal path = true) (cwd home : String) :
    resolve cwd home path = path := by
  rw [resolve_of_absolute (head?_of_isNormal h), normalize_of_isNormal h]

/-- What `resolve` makes of something typed is in normal form, from any directory. -/
theorem isNormal_resolve_of_ne_empty (h : typed ≠ "") (cwd home : String) :
    isNormal (resolve cwd home typed) = true := by
  unfold resolve
  split
  · rename_i hnil
    exact absurd (String.toList_eq_nil_iff.1 hnil) h
  all_goals exact isNormal_normalize _

/-- **Resolution ends in normal form.** What is typed in a normal directory, and anything but
nothing typed in any directory, resolves to a path that starts at the root, has no slash at its end
and no empty component, `.` or `..`, unless it is the root; and resolving that path again, from
anywhere, changes nothing. -/
theorem resolve_resolve (cwd home typed : String) (h : isNormal cwd = true ∨ typed ≠ "") :
    let resolved := resolve cwd home typed
    resolved.toList.head? = some '/' ∧
      (resolved ≠ "/" →
        resolved.toList.getLast? ≠ some '/' ∧
          ∀ component ∈ (components resolved).tail,
            component ≠ "" ∧ component ≠ "." ∧ component ≠ "..") ∧
      ∀ cwd' home' : String, resolve cwd' home' resolved = resolved := by
  intro resolved
  have hnormal : isNormal resolved = true := by
    rcases h with hcwd | htyped
    · exact isNormal_resolve hcwd home typed
    · exact isNormal_resolve_of_ne_empty htyped cwd home
  refine ⟨head?_of_isNormal hnormal, fun hroot => ⟨getLast?_of_isNormal hnormal hroot, ?_⟩,
    resolve_of_isNormal hnormal⟩
  rw [components_of_isNormal hnormal hroot, List.tail_cons]
  intro name hname
  have hisName := isName_of_isNormal hnormal name hname
  exact ⟨hisName.ne_empty, isRelative_eq_false_iff.1 hisName.not_relative⟩

/-- From a directory that is no path, climbing past the root and back down, with doubled slashes, a
slash at the end and a tilde that stands for itself. -/
theorem resolve_resolve_climbing :
    let resolved := resolve "not//normal" "~" "../.././..//a/./b/../~/"
    "../.././..//a/./b/../~/" ≠ "" ∧ resolved = "/a/~" ∧
      resolved.toList.head? = some '/' ∧ resolved.toList.getLast? ≠ some '/' ∧
      (∀ component ∈ (components resolved).tail,
        component ≠ "" ∧ component ≠ "." ∧ component ≠ "..") ∧
      resolve "/b" "/home" resolved = resolved := by
  intro resolved
  have htyped : "../.././..//a/./b/../~/" ≠ "" := by decide
  have hresolved : resolved = "/a/~" := by decide +kernel
  have hroot : resolved ≠ "/" := by simp [hresolved]
  obtain ⟨hhead, hspelled, hfixed⟩ :=
    resolve_resolve "not//normal" "~" "../.././..//a/./b/../~/" (Or.inr htyped)
  obtain ⟨hlast, hcomponents⟩ := hspelled hroot
  exact ⟨htyped, hresolved, hhead, hlast, hcomponents, hfixed "/b" "/home"⟩

/-! ## Resolving step by step -/

/-- Where the way along a typed path starts; the components that it goes along are those `ahead`. -/
def base (cwd home typed : String) : String :=
  match typed.toList with
  | ['~'] | '~' :: '/' :: _ => home
  | '/' :: _ => "/"
  | _ => cwd

/-- The components that a typed path goes along. -/
def ahead (typed : String) : List String :=
  match typed.toList with
  | ['~'] => []
  | '~' :: '/' :: rest => components (String.ofList rest)
  | _ => components typed

lemma segments_normalize (h : ∀ name ∈ segments path, isRelative name = false) :
    segments (normalize path) = segments path := by
  have hnames : ∀ name ∈ segments path, IsName name := by
    intro name hname
    obtain ⟨hne, hslash⟩ := of_mem_segments hname
    exact ⟨hne, hslash, h name hname⟩
  rw [normalize, walk_components, walk_of_isName hnames, segments_ofSegments hnames]

/-- Behind a path in normal form, the walk goes on by `step` from its segments. -/
lemma normalize_append_slash (h : isNormal path = true) (text : String) :
    normalize (path ++ "/" ++ text)
      = ofSegments ((components text).foldl step (segments path).reverse).reverse := by
  have hfold : (components path).foldl step [] = (segments path).reverse := by
    rw [← walk_of_isName (isName_of_isNormal h), ← walk_components, walk, List.reverse_reverse]
  rw [normalize, components_append_slash, walk, List.foldl_append, hfold]

lemma base_cases (cwd home typed : String) :
    base cwd home typed = home ∨ base cwd home typed = "/" ∨ base cwd home typed = cwd := by
  unfold base
  split <;> simp

lemma no_slash_of_mem_ahead : ∀ c ∈ ahead typed, '/' ∉ c.toList := by
  unfold ahead
  split
  · exact fun c hc => nomatch hc
  · exact fun c hc => no_slash_of_mem_components hc
  · exact fun c hc => no_slash_of_mem_components hc

/-- What `resolve` does is to take the steps that are `ahead`, from the segments of the `base`. -/
theorem resolve_eq (hcwd : isNormal cwd = true) (hhome : isNormal home = true) (typed : String) :
    resolve cwd home typed
      = ofSegments ((ahead typed).foldl step (segments (base cwd home typed)).reverse).reverse := by
  unfold resolve ahead base
  split
  case h_1 hnil =>
    -- nothing typed has one component, which is empty and stays
    have htyped : typed = "" := String.toList_eq_nil_iff.1 hnil
    have hstay : (components typed).foldl step (segments cwd).reverse = (segments cwd).reverse := by
      rw [htyped, components_empty]
      rfl
    simp only [hnil]
    rw [hstay, List.reverse_reverse, ofSegments_segments hcwd]
  case h_2 htilde =>
    -- the tilde has no components, so the walk ends at the home where it starts
    simp only [htilde]
    rw [List.foldl_nil, List.reverse_reverse, ofSegments_segments hhome,
      normalize_of_isNormal hhome]
  case h_3 rest hhomeward =>
    simp only [hhomeward]
    exact normalize_append_slash hhome _
  case h_4 rest habsolute =>
    -- at the root there is nothing to walk on from
    simp only [habsolute]
    show normalize typed = ofSegments ((components typed).foldl step (segments "/").reverse).reverse
    rw [segments_root]
    rfl
  case h_5 =>
    simp only
    exact normalize_append_slash hcwd typed

end MiniShell.Path
