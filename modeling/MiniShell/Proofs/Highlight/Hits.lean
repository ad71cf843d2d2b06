import Mathlib.Data.Finset.Card
import Mathlib.Tactic.Common
import MiniShell.Highlight

/-!
# The hits of a search

A search finds occurrences from left to right, each one the first from where the one before ended.
This determines the hits, and all that matters about them follows from it: they do not overlap,
every occurrence overlaps one that starts at or before it, and no other choice of occurrences that
do not overlap has more of them.

* `OccursAt`: an occurrence;
* `Greedy`: what the hits are;
* `greedy_starts`: the search finds them;
* `Greedy.covers`, `Greedy.card_le`: no occurrence is missed, and none could be added.
-/

namespace MiniShell.Highlight

variable {pattern text : List Char} {first hit j : Nat} {hits rest : List Nat}

/-! ## Occurrences -/

/-- The characters from a position on are those of the pattern, case aside. -/
def OccursAt (pattern text : List Char) (j : Nat) : Prop :=
  List.Forall₂ (fun c p => Text.sameFolded c p = true) ((text.drop j).take pattern.length) pattern

lemma startsWith_iff (pattern text : List Char) :
    startsWith pattern text = true
      ↔ List.Forall₂ (fun c p => Text.sameFolded c p = true) (text.take pattern.length)
          pattern := by
  induction pattern generalizing text with
  | nil => simp [startsWith]
  | cons p pattern ih =>
    cases text with
    | nil => simp [startsWith]
    | cons c text => simp [startsWith, ih]

/-- A pattern `OccursAt` a place where the rest of the text starts with it. -/
lemma occursAt_iff : OccursAt pattern text j ↔ startsWith pattern (text.drop j) = true :=
  (startsWith_iff pattern (text.drop j)).symm

lemma OccursAt.add_le (h : OccursAt pattern text j) (hpattern : pattern ≠ []) :
    j + pattern.length ≤ text.length := by
  have hlength := h.length_eq
  have hpos := List.length_pos_iff.2 hpattern
  rw [List.length_take, List.length_drop] at hlength
  omega

lemma OccursAt.length_eq (h : OccursAt pattern text j) :
    ((text.drop j).take pattern.length).length = pattern.length :=
  List.Forall₂.length_eq h

/-! ## Hits from left to right -/

/-- Occurrences from a position on: the first one, the first one from where that one ended, and so
on until there is none. -/
inductive Greedy (pattern text : List Char) : Nat → List Nat → Prop
  | nil {first : Nat} (hnone : ∀ j, first ≤ j → ¬ OccursAt pattern text j) :
      Greedy pattern text first []
  | cons {first hit : Nat} {rest : List Nat} (hle : first ≤ hit)
      (hhit : OccursAt pattern text hit)
      (hfirst : ∀ j, first ≤ j → j < hit → ¬ OccursAt pattern text j)
      (hrest : Greedy pattern text (hit + pattern.length) rest) :
      Greedy pattern text first (hit :: rest)

namespace Greedy

lemma of_succ (h : Greedy pattern text (first + 1) hits) (hnot : ¬ OccursAt pattern text first) :
    Greedy pattern text first hits := by
  have hskip : ∀ j, first ≤ j → (first + 1 ≤ j → ¬ OccursAt pattern text j) →
      ¬ OccursAt pattern text j := by
    intro j hj hlater
    by_cases heq : first = j
    · rw [← heq]
      exact hnot
    · exact hlater (by omega)
  cases h with
  | nil hnone => exact nil fun j hj => hskip j hj (hnone j)
  | cons hle hhit hfirst hrest =>
    exact cons (by omega) hhit (fun j hj hlt => hskip j hj fun hle => hfirst j hle hlt) hrest

lemma eq_cons (h : Greedy pattern text first hits) (hocc : OccursAt pattern text first) :
    ∃ rest, hits = first :: rest ∧ Greedy pattern text (first + pattern.length) rest := by
  cases h with
  | nil hnone => exact absurd hocc (hnone first le_rfl)
  | @cons _ hit rest hle hhit hfirst hrest =>
    have heq : hit = first := by
      by_contra hne
      exact hfirst first le_rfl (by omega) hocc
    subst heq
    exact ⟨rest, rfl, hrest⟩

lemma succ (h : Greedy pattern text first hits) (hnot : ¬ OccursAt pattern text first) :
    Greedy pattern text (first + 1) hits := by
  cases h with
  | nil hnone => exact nil fun j hj => hnone j (by omega)
  | @cons _ hit rest hle hhit hfirst hrest =>
    have hne : first ≠ hit := by
      rintro rfl
      exact hnot hhit
    exact cons (by omega) hhit (fun j hj => hfirst j (by omega)) hrest

lemma eq_nil_iff (h : Greedy pattern text first hits) :
    hits = [] ↔ ∀ j, first ≤ j → ¬ OccursAt pattern text j := by
  cases h with
  | nil hnone => exact ⟨fun _ => hnone, fun _ => rfl⟩
  | cons hle hhit hfirst hrest =>
    constructor
    · intro hnil
      nomatch hnil
    · intro hnone
      exact absurd hhit (hnone _ hle)

lemma occursAt (h : Greedy pattern text first hits) : ∀ hit ∈ hits, OccursAt pattern text hit := by
  induction h with
  | nil => nofun
  | cons hle hhit hfirst hrest ih => exact List.forall_mem_cons.2 ⟨hhit, ih⟩

lemma le (h : Greedy pattern text first hits) : ∀ hit ∈ hits, first ≤ hit := by
  induction h with
  | nil => nofun
  | cons hle hhit hfirst hrest ih =>
    exact List.forall_mem_cons.2 ⟨hle, fun hit hmem => by have := ih hit hmem; omega⟩

/-- A hit of `Greedy` ends before the next one starts. -/
lemma pairwise (h : Greedy pattern text first hits) :
    hits.Pairwise fun a b => a + pattern.length ≤ b := by
  induction h with
  | nil => exact List.Pairwise.nil
  | cons hle hhit hfirst hrest ih => exact List.pairwise_cons.2 ⟨hrest.le, ih⟩

/-- Every place where the pattern `OccursAt` is within a hit. -/
theorem covers (h : Greedy pattern text first hits) (hj : first ≤ j)
    (hocc : OccursAt pattern text j) :
    ∃ hit ∈ hits, hit ≤ j ∧ j < hit + pattern.length := by
  induction h with
  | nil hnone => exact absurd hocc (hnone j hj)
  | @cons _ hit rest hle hhit hfirst hrest ih =>
    have hge : hit ≤ j := by
      by_contra hlt
      exact hfirst j hj (by omega) hocc
    by_cases hin : j < hit + pattern.length
    · exact ⟨hit, List.mem_cons_self, hge, hin⟩
    · obtain ⟨later, hmem, hwithin⟩ := ih (by omega)
      exact ⟨later, List.mem_cons_of_mem hit hmem, hwithin⟩

/-- Occurrences that do not overlap are never more than the hits of `Greedy`. -/
theorem card_le (h : Greedy pattern text first hits) (places : Finset Nat)
    (hplaces : ∀ j ∈ places, first ≤ j ∧ OccursAt pattern text j)
    (hapart : ∀ i ∈ places, ∀ j ∈ places, i < j → i + pattern.length ≤ j) :
    places.card ≤ hits.length := by
  induction h generalizing places with
  | @nil first hnone =>
    have hempty : places = ∅ := by
      apply Finset.eq_empty_of_forall_notMem
      intro j hj
      obtain ⟨hle, hocc⟩ := hplaces j hj
      exact hnone j hle hocc
    rw [hempty]
    exact le_rfl
  | @cons first hit rest hle hhit hfirst hrest ih =>
    -- at most one of the places starts before the hit has ended
    have hearly : (places.filter (· < hit + pattern.length)).card ≤ 1 := by
      apply Finset.card_le_one.2
      intro i hi j hj
      rw [Finset.mem_filter] at hi hj
      have hgei : hit ≤ i := by
        by_contra hlt
        exact hfirst i (hplaces i hi.1).1 (by omega) (hplaces i hi.1).2
      have hgej : hit ≤ j := by
        by_contra hlt
        exact hfirst j (hplaces j hj.1).1 (by omega) (hplaces j hj.1).2
      have hij := hapart i hi.1 j hj.1
      have hji := hapart j hj.1 i hi.1
      omega
    have hlate : (places.filter (¬ · < hit + pattern.length)).card ≤ rest.length := by
      apply ih
      · intro j hj
        rw [Finset.mem_filter] at hj
        exact ⟨by omega, (hplaces j hj.1).2⟩
      · intro i hi j hj
        exact hapart i (Finset.mem_filter.1 hi).1 j (Finset.mem_filter.1 hj).1
    have hsplit := Finset.card_filter_add_card_filter_not (s := places)
      (fun j => j < hit + pattern.length)
    rw [List.length_cons]
    omega

end Greedy

/-! ## The search -/

/-- From a position on, `startsFrom` finds the hits behind the characters that are covered. -/
lemma greedy_startsFrom (hpattern : pattern ≠ []) (covered position : Nat) :
    Greedy pattern text (position + covered)
      (startsFrom pattern covered position (text.drop position)) := by
  have hpos := List.length_pos_iff.2 hpattern
  -- on what is left of the text: a hit covers the characters behind its first one
  generalize hrest : text.drop position = rest
  induction rest generalizing covered position with
  | nil =>
    apply Greedy.nil
    intro j hj hocc
    have hend := hocc.add_le hpattern
    have hlength := congrArg List.length hrest
    rw [List.length_drop, List.length_nil] at hlength
    omega
  | cons c rest ih =>
    have hnext : text.drop (position + 1) = rest := by
      rw [← List.drop_drop, hrest]
      rfl
    cases covered with
    | succ covered =>
      have hlater := ih covered (position + 1) hnext
      rw [startsFrom]
      rwa [Nat.add_right_comm] at hlater
    | zero =>
      rw [startsFrom]
      have hstarts : OccursAt pattern text position ↔ startsWith pattern (c :: rest) = true := by
        rw [occursAt_iff, hrest]
      split
      case isTrue hhit =>
        have hlater := ih (pattern.length - 1) (position + 1) hnext
        have hend : position + 1 + (pattern.length - 1) = position + pattern.length := by omega
        rw [hend] at hlater
        exact Greedy.cons le_rfl (hstarts.2 hhit) (fun j hj hlt => by omega) hlater
      case isFalse hmiss =>
        exact (ih 0 (position + 1) hnext).of_succ (mt hstarts.1 hmiss)

/-- What `starts` finds are the hits of `Greedy` in the whole text. -/
theorem greedy_starts (hpattern : pattern ≠ []) (text : List Char) :
    Greedy pattern text 0 (starts pattern text) :=
  greedy_startsFrom hpattern 0 0

end MiniShell.Highlight
