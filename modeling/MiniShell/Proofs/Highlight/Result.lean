import Mathlib.Data.List.Pairwise
import Mathlib.Data.Set.Pairwise.Basic
import Mathlib.Order.Bounds.Defs
import Mathlib.Order.CompletePartialOrder
import Mathlib.Order.Interval.Set.Disjoint
import MiniShell.Proofs.Highlight.Scan

/-!
# What a search gives

A search for a pattern that is not empty finds a line exactly if the pattern occurs in it, and then
gives the line back with its hits marked: no occurrence is left unmarked unless a hit that starts
before it reaches into it. There is no way to mark more of them.

* `mark?_spec`: when a line is found, what it is marked like, and that one pass over it is enough;
* `IsPacking`: occurrences that do not overlap;
* `isGreatest_hitCount`: the hits are as many as such occurrences can be.
-/

namespace MiniShell.Highlight

variable {pattern text : String}

/-! ## Marked lines -/

lemma mark?_eq_none_iff (hpattern : pattern ≠ "") :
    mark? pattern text = none ↔ ∀ j, ¬ OccursAt pattern.toList text.toList j := by
  have hnil := (greedy_starts_toList hpattern text).eq_nil_iff
  simp only [Nat.zero_le, true_implies] at hnil
  rw [mark?_eq hpattern, ← hnil]
  simp

/-- A line that `mark?` gives `IsMarking`. -/
lemma isMarking_of_mark? (hpattern : pattern ≠ "") {line : Line}
    (h : mark? pattern text = some line) : IsMarking pattern text line := by
  rw [mark?_eq hpattern] at h
  split at h
  · nomatch h
  · rw [← Option.some.inj h]
    exact isMarking_marked hpattern (greedy_starts_toList hpattern text)

/-- A line is found by `mark?` exactly if the pattern occurs in it, and comes with its hits marked.
One pass over its characters ends and gives it, with all cuts in order and at borders of characters.
-/
theorem mark?_spec (hpattern : pattern ≠ "") (text : String) :
    (mark? pattern text = none ↔ ∀ j, ¬ OccursAt pattern.toList text.toList j) ∧
      (∀ line, mark? pattern text = some line → IsMarking pattern text line) ∧
      ∀ rounds, text.length < rounds → scan pattern text rounds = some (mark? pattern text) := by
  refine ⟨mark?_eq_none_iff hpattern, ?_, ?_⟩
  · intro line hline
    exact isMarking_of_mark? hpattern hline
  · intro rounds hrounds
    exact scan_eq pattern text hrounds

/-- Of two occurrences that overlap the first is marked, and it ends within what follows it. -/
theorem mark?_spec_overlap :
    "aa" ≠ "" ∧
      IsMarking "aa" "éAaaß" ⟨[⟨"é", .plain⟩, ⟨"Aa", .hit⟩, ⟨"aß", .plain⟩]⟩ ∧
      scan "aa" "éAaaß" 6 = some (some ⟨[⟨"é", .plain⟩, ⟨"Aa", .hit⟩, ⟨"aß", .plain⟩]⟩) := by
  have hne : "aa" ≠ "" := by decide
  have hmark : mark? "aa" "éAaaß" = some ⟨[⟨"é", .plain⟩, ⟨"Aa", .hit⟩, ⟨"aß", .plain⟩]⟩ := by
    decide +kernel
  obtain ⟨-, hmarked, hscan⟩ := mark?_spec hne "éAaaß"
  refine ⟨hne, hmarked _ hmark, ?_⟩
  rw [← hmark]
  exact hscan 6 (by decide)

/-! ## The number of hits -/

/-- How many hits `mark?` marks. -/
def hitCount (pattern text : String) : Nat :=
  match mark? pattern text with
  | none => 0
  | some line => (line.spansOf .hit).length

/-- Occurrences of a pattern, no two of which overlap, by where they start. -/
structure IsPacking (pattern text : String) (places : Finset Nat) : Prop where
  occursAt : ∀ j ∈ places, OccursAt pattern.toList text.toList j
  disjoint : (places : Set Nat).PairwiseDisjoint fun j => Set.Ico j (j + pattern.length)

lemma hitCount_eq (hpattern : pattern ≠ "") :
    hitCount pattern text = (starts pattern.toList text.toList).length := by
  have hne : pattern.toList ≠ [] := by simpa using hpattern
  have hhits := greedy_starts_toList hpattern text
  rw [hitCount, mark?_eq hpattern]
  split_ifs with hnone
  · rw [hnone]
    rfl
  · show (Line.spansOf _ _).length = _
    rw [← Line.length_startsOf, Line.startsOf, startsFrom_marked hne hhits]

lemma disjoint_iff (hpattern : pattern ≠ "") {i j : Nat} :
    Disjoint (Set.Ico i (i + pattern.length)) (Set.Ico j (j + pattern.length))
      ↔ i + pattern.length ≤ j ∨ j + pattern.length ≤ i := by
  have hpos : 0 < pattern.length := by
    rw [← String.length_toList]
    exact List.length_pos_iff.2 (by simpa using hpattern)
  rw [Set.Ico_disjoint_Ico]
  omega

/-- The hits that `starts` finds do not overlap. -/
lemma isPacking_starts (hpattern : pattern ≠ "") (text : String) :
    IsPacking pattern text (starts pattern.toList text.toList).toFinset := by
  have hhits := greedy_starts_toList hpattern text
  constructor
  · intro j hj
    exact hhits.occursAt j (List.mem_toFinset.1 hj)
  · intro i hi j hj hne
    -- hits come in order, but of these two either may be the first
    have hapart : (starts pattern.toList text.toList).Pairwise fun a b =>
        a + pattern.length ≤ b ∨ b + pattern.length ≤ a := by
      apply hhits.pairwise.imp
      intro a b hle
      rw [String.length_toList] at hle
      exact Or.inl hle
    have hsymm : Std.Symm fun a b => a + pattern.length ≤ b ∨ b + pattern.length ≤ a :=
      ⟨fun a b => Or.symm⟩
    exact (disjoint_iff hpattern).2 (hapart.forall (by simpa using hi) (by simpa using hj) hne)

lemma card_starts (hpattern : pattern ≠ "") (text : String) :
    (starts pattern.toList text.toList).toFinset.card
      = (starts pattern.toList text.toList).length := by
  have hne : pattern.toList ≠ [] := by simpa using hpattern
  have hpos := List.length_pos_iff.2 hne
  apply List.toFinset_card_of_nodup
  apply (greedy_starts_toList hpattern text).pairwise.imp
  intro a b hle
  omega

/-- No choice of occurrences that do not overlap has more than `hitCount` of them, and there is one
with as many. -/
theorem isGreatest_hitCount (hpattern : pattern ≠ "") (text : String) :
    IsGreatest {k | ∃ places, IsPacking pattern text places ∧ places.card = k}
      (hitCount pattern text) := by
  rw [hitCount_eq hpattern]
  constructor
  · exact ⟨_, isPacking_starts hpattern text, card_starts hpattern text⟩
  · rintro k ⟨places, hplaces, rfl⟩
    apply (greedy_starts_toList hpattern text).card_le places
    · intro j hj
      exact ⟨Nat.zero_le j, hplaces.occursAt j hj⟩
    · intro i hi j hj hlt
      rw [String.length_toList]
      -- of two that do not overlap, the first one ends in front of the second one
      have hapart := (disjoint_iff hpattern).1 (hplaces.disjoint hi hj (by omega))
      omega

/-- A pattern that overlaps itself occurs four times, and can be marked twice. -/
theorem isGreatest_hitCount_overlap :
    "aa" ≠ "" ∧
      IsGreatest {k | ∃ places, IsPacking "aa" "xAaaAay" places ∧ places.card = k} 2 := by
  have hne : "aa" ≠ "" := by decide
  have hcount : hitCount "aa" "xAaaAay" = 2 := by decide +kernel
  have hgreatest := isGreatest_hitCount hne "xAaaAay"
  rw [hcount] at hgreatest
  exact ⟨hne, hgreatest⟩

end MiniShell.Highlight
