import MiniShell.Proofs.Highlight.Result

/-!
# Searches do not see case

Characters are the same, case aside, if they have the same lower case, whether that is one character
or more. So texts are the same if their characters are in lower case, one by one, and searching one
for one pattern finds what searching the other for the other pattern finds: at the same characters,
though not at the same bytes.

* `forall₂_sameFolded_iff`: texts that are the same, case aside;
* `Greedy.congr`: hits depend on occurrences only;
* `Line.rangesOf`: where the spans of a style start and end;
* `rangesOf_mark?_congr`: what a search marks in texts that are the same.
-/

namespace MiniShell

namespace Text

/-- Characters are `sameFolded` if they have the same lower case. -/
lemma sameFolded_iff {a b : Char} : sameFolded a b = true ↔ lowercase a = lowercase b := by
  rw [sameFolded, Bool.or_eq_true, beq_iff_eq, beq_iff_eq]
  constructor
  · rintro (rfl | hlower)
    · rfl
    · exact hlower
  · exact Or.inr

lemma forall₂_sameFolded_iff {text other : List Char} :
    List.Forall₂ (fun a b => sameFolded a b = true) text other
      ↔ text.map lowercase = other.map lowercase := by
  simp only [sameFolded_iff]
  calc List.Forall₂ (fun a b => lowercase a = lowercase b) text other
      ↔ List.Forall₂ (· = ·) (text.map lowercase) (other.map lowercase) := by
        rw [List.forall₂_map_left_iff, List.forall₂_map_right_iff]
    _ ↔ text.map lowercase = other.map lowercase := by rw [List.forall₂_eq_eq_eq]

end Text

namespace Line

/-- Where the spans of a style start and end, in characters, if the first span starts at
`position`. -/
def rangesFrom (style : Style) (position : Nat) : List Span → List (Nat × Nat)
  | [] => []
  | span :: spans =>
    let stop := position + span.text.length
    let later := rangesFrom style stop spans
    if span.style = style then (position, stop) :: later else later

/-- Where the spans of a style start and end in the line, in characters, by `rangesFrom`. -/
def rangesOf (line : Line) (style : Style) : List (Nat × Nat) :=
  rangesFrom style 0 line.spans

/-- Where spans of one length end is known from `startsOf`, where they start. -/
lemma rangesOf_eq {line : Line} {style : Style} {n : Nat}
    (h : ∀ span ∈ line.spansOf style, span.text.length = n) :
    line.rangesOf style = (line.startsOf style).map fun start => (start, start + n) := by
  have hfrom : ∀ (spans : List Span) (position : Nat),
      (∀ span ∈ spans.filter (·.style = style), span.text.length = n) →
      rangesFrom style position spans
        = (startsFrom style position spans).map fun start => (start, start + n) := by
    intro spans
    induction spans with
    | nil => exact fun position _ => rfl
    | cons span spans ih =>
      intro position hspans
      by_cases hstyle : span.style = style
      · rw [List.filter_cons_of_pos (by simpa using hstyle), List.forall_mem_cons] at hspans
        simp only [rangesFrom, startsFrom, if_pos hstyle, List.map_cons, ih _ hspans.2, hspans.1]
      · rw [List.filter_cons_of_neg (by simpa using hstyle)] at hspans
        simp only [rangesFrom, startsFrom, if_neg hstyle, ih _ hspans]
  exact hfrom line.spans 0 h

end Line

namespace Highlight

/-! ## Hits of texts that are the same -/

section

variable {pattern pattern' text text' : List Char} {first j : Nat} {hits hits' : List Nat}

/-- A pattern `OccursAt` a place of a text where its lower case stands in the text's. -/
lemma occursAt_iff_lowercase :
    OccursAt pattern text j
      ↔ ((text.map Text.lowercase).drop j).take (pattern.map Text.lowercase).length
        = pattern.map Text.lowercase := by
  rw [OccursAt, Text.forall₂_sameFolded_iff, List.map_take, List.map_drop, List.length_map]

/-- The hits of `Greedy` depend on the occurrences and on their length only. -/
lemma Greedy.congr (h : Greedy pattern text first hits) (h' : Greedy pattern' text' first hits')
    (hlength : pattern.length = pattern'.length)
    (hocc : ∀ j, OccursAt pattern text j ↔ OccursAt pattern' text' j) : hits = hits' := by
  induction h generalizing hits' with
  | nil hnone =>
    symm
    apply h'.eq_nil_iff.2
    intro j hj
    exact mt (hocc j).2 (hnone j hj)
  | @cons first hit rest hle hhit hfirst hrest ih =>
    cases h' with
    | nil hnone => exact absurd ((hocc hit).1 hhit) (hnone hit hle)
    | @cons _ hit' rest' hle' hhit' hfirst' hrest' =>
      -- of two first occurrences neither is before the other
      have heq : hit = hit' := by
        rcases Nat.lt_trichotomy hit hit' with hlt | heq | hlt
        · exact absurd ((hocc hit).1 hhit) (hfirst' hit hle hlt)
        · exact heq
        · exact absurd ((hocc hit').2 hhit') (hfirst hit' hle' hlt)
      subst heq
      rw [← hlength] at hrest'
      rw [ih hrest']

end

/-! ## Marked lines of texts that are the same -/

variable {pattern pattern' text text' : String}

/-- What `mark?` marks, by the hits of `starts`. -/
lemma rangesOf_mark? (hpattern : pattern ≠ "") :
    (mark? pattern text).map (·.rangesOf .hit)
      = if starts pattern.toList text.toList = [] then none
        else some ((starts pattern.toList text.toList).map fun hit =>
          (hit, hit + pattern.length)) := by
  have hne : pattern.toList ≠ [] := by simpa using hpattern
  have hhits := greedy_starts_toList hpattern text
  have hmarking := isMarking_marked hpattern hhits
  rw [mark?_eq hpattern]
  split
  · rfl
  · rw [Option.map_some, Line.rangesOf_eq fun span hmem => (hmarking.hit_text span hmem).1,
      Line.startsOf, startsFrom_marked hne hhits]

/-- **Searches depend on the text in lower case only.** If two patterns are the same, case aside,
and so are two texts, then `mark?` finds both texts or none of them, and marks the same ranges of
characters, in the same order. -/
theorem rangesOf_mark?_congr (hpattern : pattern ≠ "")
    (hpatterns :
      List.Forall₂ (fun a b => Text.sameFolded a b = true) pattern.toList pattern'.toList)
    (htexts : List.Forall₂ (fun a b => Text.sameFolded a b = true) text.toList text'.toList) :
    (mark? pattern text).map (·.rangesOf .hit) = (mark? pattern' text').map (·.rangesOf .hit) := by
  have hlength := hpatterns.length_eq
  have hpattern' : pattern' ≠ "" := by
    rintro rfl
    exact hpattern (by simpa using hpatterns)
  have hocc : ∀ j, OccursAt pattern.toList text.toList j
      ↔ OccursAt pattern'.toList text'.toList j := by
    intro j
    rw [occursAt_iff_lowercase, occursAt_iff_lowercase,
      Text.forall₂_sameFolded_iff.1 hpatterns, Text.forall₂_sameFolded_iff.1 htexts]
  have hstarts := (greedy_starts_toList hpattern text).congr
    (greedy_starts_toList hpattern' text') hlength hocc
  rw [String.length_toList, String.length_toList] at hlength
  rw [rangesOf_mark? hpattern, rangesOf_mark? hpattern', hstarts, hlength]

/-- Case variants of letters need not take as many bytes: the sign for kelvin and the capital ß take
three, and their small letters take one and two. -/
theorem rangesOf_mark?_congr_widths :
    let kelvin := "a\u212Aß k\u1E9E"
    let small := "Akß kß"
    "kß" ≠ "" ∧
      List.Forall₂ (fun a b => Text.sameFolded a b = true) "kß".toList "\u212A\u1E9E".toList ∧
      List.Forall₂ (fun a b => Text.sameFolded a b = true) kelvin.toList small.toList ∧
      (mark? "\u212A\u1E9E" small).map (·.rangesOf .hit) = some [(1, 3), (4, 6)] := by
  intro kelvin small
  have hne : "kß" ≠ "" := by decide
  have hpatterns : List.Forall₂ (fun a b => Text.sameFolded a b = true)
      "kß".toList "\u212A\u1E9E".toList :=
    Text.forall₂_sameFolded_iff.2 (by decide +kernel)
  have htexts : List.Forall₂ (fun a b => Text.sameFolded a b = true)
      kelvin.toList small.toList :=
    Text.forall₂_sameFolded_iff.2 (by decide +kernel)
  have hmarked : (mark? "kß" kelvin).map (·.rangesOf .hit) = some [(1, 3), (4, 6)] := by
    decide +kernel
  exact ⟨hne, hpatterns, htexts, (rangesOf_mark?_congr hne hpatterns htexts).symm.trans hmarked⟩

end Highlight

end MiniShell
