import Mathlib.Tactic.Common
import MiniShell.Path
import MiniShell.Proofs.Text.Pieces

/-!
# Names along a path

Cutting a path at its slashes and joining names with slashes undo each other. `IsName` says which
texts can name a child of a directory: the ones that no path syntax interferes with.

* `segments_ofSegments`: the names that were joined are read back;
* `components_append_slash`, `segments_append_slash`: a slash between two texts always cuts;
* `isName_of_mem_walk`: a walk passes nothing but names;
* `isAbove_concat`: what is above the last of some names is on the way of the others.
-/

namespace MiniShell.Path

/-- Can the text name a child of a directory? -/
structure IsName (name : String) : Prop where
  ne_empty : name ≠ ""
  no_slash : '/' ∉ name.toList
  not_relative : isRelative name = false

/-- Do some names lead to a place on the way of other names, short of their end? -/
def IsAbove (above names : List String) : Prop :=
  above <+: names ∧ above ≠ names

instance (above names : List String) : Decidable (IsAbove above names) :=
  inferInstanceAs (Decidable (above <+: names ∧ above ≠ names))

lemma isRelative_eq_false_iff {name : String} :
    isRelative name = false ↔ name ≠ "." ∧ name ≠ ".." := by
  rw [isRelative, Bool.or_eq_false_iff, beq_eq_false_iff_ne, beq_eq_false_iff_ne]

/-- A component at which `step` neither stays nor goes up is a name. -/
lemma isName_of_component {component : String} (hstay : ¬ (component = "" ∨ component = "."))
    (hup : component ≠ "..") (hslash : '/' ∉ component.toList) : IsName component := by
  rw [not_or] at hstay
  exact ⟨hstay.1, hslash, isRelative_eq_false_iff.2 ⟨hstay.2, hup⟩⟩

/-! ## Cutting -/

/-- No piece that `splitOn` cuts contains the separator. -/
lemma not_mem_of_mem_splitOn {α : Type} [BEq α] [LawfulBEq α] {sep : α} {xs piece : List α}
    (h : piece ∈ xs.splitOn sep) : sep ∉ piece := by
  rw [List.splitOn_eq_splitOnP] at h
  intro hmem
  simpa using Text.forall_of_mem_splitOnP h sep hmem

lemma no_slash_of_mem_components {path component : String} (h : component ∈ components path) :
    '/' ∉ component.toList := by
  obtain ⟨piece, hpiece, rfl⟩ := List.mem_map.1 h
  rw [String.toList_ofList]
  exact not_mem_of_mem_splitOn hpiece

/-- A slash between two texts cuts their `components` apart. -/
lemma components_append_slash (before after : String) :
    components (before ++ "/" ++ after) = components before ++ components after := by
  have hlist : (before ++ "/" ++ after).toList = before.toList ++ '/' :: after.toList := by simp
  rw [components, hlist, List.splitOn_append_cons_self, List.map_append]
  rfl

lemma components_of_no_slash {text : String} (h : '/' ∉ text.toList) :
    components text = [text] := by
  rw [components, List.splitOn_eq_singleton h]
  simp

@[simp] lemma components_empty : components "" = [""] :=
  components_of_no_slash (by simp)

lemma components_slash_append (after : String) :
    components ("/" ++ after) = "" :: components after := by
  have h := components_append_slash "" after
  rw [components_empty] at h
  simpa using h

@[simp] lemma segments_empty : segments "" = [] := by
  decide +kernel

@[simp] lemma segments_root : segments "/" = [] := by
  decide +kernel

/-- A slash between two texts keeps the `segments` of both, in order. -/
lemma segments_append_slash (before after : String) :
    segments (before ++ "/" ++ after) = segments before ++ segments after := by
  rw [segments, components_append_slash, List.filter_append]
  rfl

lemma of_mem_segments {path name : String} (h : name ∈ segments path) :
    name ≠ "" ∧ '/' ∉ name.toList := by
  obtain ⟨hcomponent, hne⟩ := List.mem_filter.1 h
  exact ⟨by simpa using hne, no_slash_of_mem_components hcomponent⟩

/-! ## Joining -/

/-- Joining the `components` of a text gives the text back. -/
lemma intercalate_components (text : String) : "/".intercalate (components text) = text :=
  Text.intercalate_splitOn (by simp) text

/-- Joined texts without slashes are the `components` of what they make. -/
lemma components_intercalate {names : List String} (hne : names ≠ [])
    (h : ∀ name ∈ names, '/' ∉ name.toList) : components ("/".intercalate names) = names := by
  have hcut : (['/'].intercalate (names.map String.toList)).splitOn '/'
      = names.map String.toList := by
    apply List.splitOn_intercalate
    · intro l hl
      obtain ⟨name, hname, rfl⟩ := List.mem_map.1 hl
      exact h name hname
    · simpa using hne
  rw [components, String.toList_intercalate]
  have hslash : "/".toList = ['/'] := by simp
  rw [hslash, hcut, List.map_map]
  have hmap : (String.ofList ∘ String.toList : String → String) = id := by
    funext s
    simp
  rw [hmap, List.map_id]

lemma components_ofSegments {names : List String} (hne : names ≠ [])
    (h : ∀ name ∈ names, '/' ∉ name.toList) : components (ofSegments names) = "" :: names := by
  cases names with
  | nil => exact absurd rfl hne
  | cons name rest =>
    rw [ofSegments, components_slash_append, components_intercalate hne h]
    simp

/-- The names that `ofSegments` puts into a path are read back from it. -/
lemma segments_ofSegments {names : List String} (h : ∀ name ∈ names, IsName name) :
    segments (ofSegments names) = names := by
  by_cases hne : names = []
  · subst hne
    exact segments_root
  · rw [segments, components_ofSegments hne fun name hname => (h name hname).no_slash]
    have hkeep : names.filter (fun name => decide (name ≠ "")) = names :=
      List.filter_eq_self.2 fun name hname => by simpa using (h name hname).ne_empty
    rw [List.filter_cons_of_neg (by simp), hkeep]

/-! ## Walking -/

lemma isName_of_mem_step {passed : List String} {component : String}
    (hpassed : ∀ name ∈ passed, IsName name) (hslash : '/' ∉ component.toList) :
    ∀ name ∈ step passed component, IsName name := by
  intro name hname
  unfold step at hname
  split at hname
  · exact hpassed name hname
  · rename_i hstay
    split at hname
    · exact hpassed name (List.mem_of_mem_tail hname)
    · rename_i hup
      rcases List.mem_cons.1 hname with rfl | hname
      · exact isName_of_component hstay hup hslash
      · exact hpassed name hname

/-- A `walk` along texts without slashes passes nothing but names. -/
lemma isName_of_mem_walk {cs : List String} (h : ∀ c ∈ cs, '/' ∉ c.toList) :
    ∀ name ∈ walk cs, IsName name := by
  -- by induction on the texts, for whatever was passed before
  have hfold : ∀ (cs passed : List String), (∀ c ∈ cs, '/' ∉ c.toList) →
      (∀ name ∈ passed, IsName name) → ∀ name ∈ cs.foldl step passed, IsName name := by
    intro cs
    induction cs with
    | nil => exact fun passed _ hpassed => hpassed
    | cons c cs ih =>
      intro passed hcs hpassed
      apply ih (step passed c) fun c' hc' => hcs c' (List.mem_cons_of_mem _ hc')
      exact isName_of_mem_step hpassed (hcs c List.mem_cons_self)
  intro name hname
  exact hfold cs [] h (by simp) name (List.mem_reverse.1 hname)

lemma step_of_isName {passed : List String} {name : String} (h : IsName name) :
    step passed name = name :: passed := by
  obtain ⟨hdot, hup⟩ := isRelative_eq_false_iff.1 h.not_relative
  rw [step, if_neg (by simp [h.ne_empty, hdot]), if_neg hup]

/-- An empty component stays, so a `walk` along the components is one along the segments. -/
lemma walk_components (path : String) : walk (components path) = walk (segments path) := by
  have hfold : ∀ (cs passed : List String),
      (cs.filter (· ≠ "")).foldl step passed = cs.foldl step passed := by
    intro cs
    induction cs with
    | nil => exact fun passed => rfl
    | cons c cs ih =>
      intro passed
      by_cases hc : c = ""
      · rw [List.filter_cons_of_neg (by simp [hc]), ih, List.foldl_cons, hc]
        rfl
      · rw [List.filter_cons_of_pos (by simp [hc]), List.foldl_cons, ih, List.foldl_cons]
  rw [walk, walk, segments, hfold]

/-- A `walk` along names passes them all. -/
lemma walk_of_isName {names : List String} (h : ∀ name ∈ names, IsName name) :
    walk names = names := by
  -- the names that were passed pile up in front, the last one first
  have hfold : ∀ (names passed : List String), (∀ name ∈ names, IsName name) →
      names.foldl step passed = names.reverse ++ passed := by
    intro names
    induction names with
    | nil => simp
    | cons name names ih =>
      intro passed hnames
      rw [List.foldl_cons, step_of_isName (hnames name List.mem_cons_self),
        ih _ fun n hn => hnames n (List.mem_cons_of_mem _ hn)]
      simp
  rw [walk, hfold names [] h]
  simp

/-! ## Places above -/

lemma not_isAbove_self (names : List String) : ¬ IsAbove names names :=
  fun h => h.2 rfl

lemma not_isAbove_nil (above : List String) : ¬ IsAbove above [] :=
  fun h => h.2 (List.prefix_nil.1 h.1)

lemma not_prefix_of_concat (names : List String) (name : String) : ¬ names ++ [name] <+: names := by
  intro h
  have hlen := h.length_le
  rw [List.length_append, List.length_singleton] at hlen
  omega

/-- What `IsAbove` the last of some names is on the way of the others. -/
lemma isAbove_concat {above names : List String} {name : String} :
    IsAbove above (names ++ [name]) ↔ above <+: names := by
  constructor
  · intro h
    obtain ⟨hpre, hne⟩ := h
    exact (List.prefix_concat_iff.1 hpre).resolve_left hne
  · intro h
    refine ⟨h.trans (List.prefix_append names [name]), fun heq => ?_⟩
    rw [heq] at h
    exact not_prefix_of_concat names name h

lemma isAbove_iff_prefix_dropLast {above names : List String} (hne : names ≠ []) :
    IsAbove above names ↔ above <+: names.dropLast := by
  conv_lhs => rw [← List.dropLast_concat_getLast hne]
  exact isAbove_concat

end MiniShell.Path
