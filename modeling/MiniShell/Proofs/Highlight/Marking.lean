import Mathlib.Data.List.Chain
import MiniShell.Proofs.Highlight.Hits

/-!
# Marked lines

The line that a search gives back is the line searched, cut at the hits: hits and what stands
between them, each a span of its own unless there is nothing.

* `Line.startsOf`: where the spans of a style start;
* `marked`: the spans of a line with its hits marked;
* `startsFrom_marked`: the marked spans are the hits;
* `mark?_eq`: when there is a marked line, and which.
-/

namespace MiniShell

namespace Line

/-- Where the spans of a style start, in characters, if the first span starts at `position`. -/
def startsFrom (style : Style) (position : Nat) : List Span → List Nat
  | [] => []
  | span :: spans =>
    let later := startsFrom style (position + span.text.length) spans
    if span.style = style then position :: later else later

/-- Where the spans of a style start in the line, in characters, by `startsFrom`. -/
def startsOf (line : Line) (style : Style) : List Nat :=
  startsFrom style 0 line.spans

lemma length_startsOf (line : Line) (style : Style) :
    (line.startsOf style).length = (line.spansOf style).length := by
  have hfrom : ∀ (spans : List Span) (position : Nat),
      (startsFrom style position spans).length
        = (spans.filter (·.style = style)).length := by
    intro spans
    induction spans with
    | nil => exact fun position => rfl
    | cons span spans ih =>
      intro position
      by_cases hstyle : span.style = style <;> simp [startsFrom, hstyle, ih]
  exact hfrom line.spans 0

end Line

namespace Highlight

variable {pattern text : List Char} {position hit : Nat} {hits rest : List Nat}

/-! ## The spans of a marked line -/

/-- Text between hits: a span, unless there is none. -/
def plainSpans (text : List Char) : List Span :=
  if text = [] then [] else [⟨String.ofList text, .plain⟩]

/-- The spans that `pieces` makes of a text from a position on, with the hits marked. -/
def marked (pattern text : List Char) (position : Nat) (hits : List Nat) : List Span :=
  (Line.ofSpans (pieces pattern.length position hits (text.drop position))).spans

lemma filter_plain (text : List Char) :
    [Span.mk (String.ofList text) .plain].filter (·.text ≠ "") = plainSpans text := by
  by_cases htext : text = [] <;> simp [plainSpans, htext]

/-- Behind the last hit there are `plainSpans` only. -/
lemma marked_nil (pattern text : List Char) (position : Nat) :
    marked pattern text position [] = plainSpans (text.drop position) :=
  filter_plain (text.drop position)

/-- Up to the end of a hit, `marked` has the text in front of the hit, and the hit. -/
lemma marked_cons (hpattern : pattern ≠ []) (hle : position ≤ hit)
    (hhit : OccursAt pattern text hit) (rest : List Nat) :
    marked pattern text position (hit :: rest)
      = plainSpans ((text.drop position).take (hit - position))
        ++ ⟨String.ofList ((text.drop hit).take pattern.length), .hit⟩
          :: marked pattern text (hit + pattern.length) rest := by
  have hreach : position + (hit - position) = hit := by omega
  have hend : position + (hit - position + pattern.length) = hit + pattern.length := by omega
  have hlength := hhit.length_eq
  have hne : String.ofList ((text.drop hit).take pattern.length) ≠ "" := by
    intro hempty
    have hnil : (text.drop hit).take pattern.length = [] := by
      simpa using congrArg String.toList hempty
    rw [hnil, List.length_nil] at hlength
    exact hpattern (List.length_eq_zero_iff.1 hlength.symm)
  rw [marked, pieces, List.drop_drop, List.drop_drop, hreach, hend]
  show ([Span.mk _ .plain] ++ ⟨_, .hit⟩ :: pieces _ _ rest _).filter (·.text ≠ "") = _
  rw [List.filter_append, filter_plain, List.filter_cons_of_pos (by exact decide_eq_true hne)]
  rfl

lemma text_ne_of_mem_marked : ∀ span ∈ marked pattern text position hits, span.text ≠ "" := by
  intro span hmem
  simpa using (List.mem_filter.1 hmem).2

lemma eq_of_mem_plainSpans {span : Span} (hmem : span ∈ plainSpans text) :
    span = ⟨String.ofList text, .plain⟩ := by
  unfold plainSpans at hmem
  split at hmem
  · nomatch hmem
  · exact List.mem_singleton.1 hmem

lemma join_plainSpans (text : List Char) :
    String.join ((plainSpans text).map Span.text) = String.ofList text := by
  by_cases htext : text = [] <;> simp [plainSpans, htext]

/-- The text of `marked` spans is the text that was marked. -/
lemma join_marked (hpattern : pattern ≠ []) (h : Greedy pattern text position hits) :
    String.join ((marked pattern text position hits).map Span.text)
      = String.ofList (text.drop position) := by
  induction h with
  | @nil position hnone => rw [marked_nil, join_plainSpans]
  | @cons position hit rest hle hhit hfirst hrest ih =>
    -- the text is cut at both ends of the first hit
    have hparts : text.drop position
        = (text.drop position).take (hit - position)
          ++ ((text.drop hit).take pattern.length ++ text.drop (hit + pattern.length)) := by
      have hreach : position + (hit - position) = hit := by omega
      calc text.drop position
          = (text.drop position).take (hit - position) ++ text.drop hit := by
            rw [← congrArg text.drop hreach, ← List.drop_drop, List.take_append_drop]
        _ = _ := by rw [← List.drop_drop, List.take_append_drop]
    rw [marked_cons hpattern hle hhit, List.map_append, List.map_cons, String.join_append,
      String.join_cons, join_plainSpans, ih]
    conv_rhs => rw [hparts]
    rw [String.ofList_append, String.ofList_append]

/-- A span of `marked` is text between hits, or the characters of a hit. -/
lemma of_mem_marked (hpattern : pattern ≠ []) (h : Greedy pattern text position hits) {span : Span}
    (hmem : span ∈ marked pattern text position hits) :
    span.style = .plain ∨ span.style = .hit ∧
      ∃ hit ∈ hits, span.text = String.ofList ((text.drop hit).take pattern.length) := by
  induction h with
  | nil hnone =>
    rw [marked_nil] at hmem
    rw [eq_of_mem_plainSpans hmem]
    exact Or.inl rfl
  | @cons position hit rest hle hhit hfirst hrest ih =>
    rw [marked_cons hpattern hle hhit, List.mem_append, List.mem_cons] at hmem
    rcases hmem with hbefore | rfl | hlater
    · rw [eq_of_mem_plainSpans hbefore]
      exact Or.inl rfl
    · exact Or.inr ⟨rfl, hit, List.mem_cons_self, rfl⟩
    · rcases ih hlater with hplain | ⟨hstyle, later, hmem, htext⟩
      · exact Or.inl hplain
      · exact Or.inr ⟨hstyle, later, List.mem_cons_of_mem hit hmem, htext⟩

/-- Of two neighbours in `marked` one at least is a hit. -/
lemma isChain_marked (hpattern : pattern ≠ []) (h : Greedy pattern text position hits) :
    (marked pattern text position hits).IsChain
      fun a b => a.style = .plain → b.style ≠ .plain := by
  induction h with
  | nil hnone =>
    rw [marked_nil, plainSpans]
    split <;> simp
  | @cons position hit rest hle hhit hfirst hrest ih =>
    rw [marked_cons hpattern hle hhit, plainSpans]
    split <;> simpa [List.isChain_cons] using ih

/-- The `marked` spans of style `hit` start where the hits do. -/
lemma startsFrom_marked (hpattern : pattern ≠ []) (h : Greedy pattern text position hits) :
    Line.startsFrom .hit position (marked pattern text position hits) = hits := by
  -- text between hits only moves the place where the next span starts
  have hplain : ∀ (between : List Char) (position : Nat) (spans : List Span),
      Line.startsFrom .hit position (plainSpans between ++ spans)
        = Line.startsFrom .hit (position + between.length) spans := by
    intro between position spans
    by_cases hbetween : between = [] <;> simp [plainSpans, hbetween, Line.startsFrom]
  induction h with
  | nil hnone =>
    rw [marked_nil, ← List.append_nil (plainSpans _), hplain]
    rfl
  | @cons position hit rest hle hhit hfirst hrest ih =>
    have hbefore : position + ((text.drop position).take (hit - position)).length = hit := by
      have hend := hhit.add_le hpattern
      rw [List.length_take, List.length_drop]
      omega
    have hlength : (String.ofList ((text.drop hit).take pattern.length)).length
        = pattern.length := by
      rw [String.length_ofList, hhit.length_eq]
    rw [marked_cons hpattern hle hhit, hplain, hbefore, Line.startsFrom, if_pos rfl, hlength, ih]

/-! ## The result of a search -/

lemma greedy_starts_toList {pattern : String} (hpattern : pattern ≠ "") (text : String) :
    Greedy pattern.toList text.toList 0 (starts pattern.toList text.toList) :=
  greedy_starts (by simpa using hpattern) text.toList

/-- What `mark?` gives, by the hits of `starts`. -/
lemma mark?_eq {pattern text : String} (hpattern : pattern ≠ "") :
    mark? pattern text
      = if starts pattern.toList text.toList = [] then none
        else some ⟨marked pattern.toList text.toList 0 (starts pattern.toList text.toList)⟩ := by
  rw [mark?, if_neg hpattern, marked, List.drop_zero, String.length_toList]
  cases starts pattern.toList text.toList with
  | nil => rfl
  | cons hit rest => rfl

/-- A line that shows a text with occurrences of a pattern marked in it. -/
structure IsMarking (pattern text : String) (line : Line) : Prop where
  /-- The line shows the text. -/
  text_eq : line.text = text
  /-- Its spans are hits and what stands between them. -/
  style_cases : ∀ span ∈ line.spans, span.style = .plain ∨ span.style = .hit
  text_ne : ∀ span ∈ line.spans, span.text ≠ ""
  not_plain_twice : line.spans.IsChain fun a b => a.style = .plain → b.style ≠ .plain
  /-- A hit has the characters of the pattern, case aside. -/
  hit_text : ∀ span ∈ line.spansOf .hit, span.text.length = pattern.length ∧
    List.Forall₂ (fun c p => Text.sameFolded c p = true) span.text.toList pattern.toList
  /-- An occurrence starts within a hit. -/
  covers : ∀ j, OccursAt pattern.toList text.toList j →
    ∃ start ∈ line.startsOf .hit, start ≤ j ∧ j < start + pattern.length

/-- The `marked` spans show the text with the hits marked. -/
theorem isMarking_marked {pattern text : String} (hpattern : pattern ≠ "") {hits : List Nat}
    (h : Greedy pattern.toList text.toList 0 hits) :
    IsMarking pattern text ⟨marked pattern.toList text.toList 0 hits⟩ := by
  have hne : pattern.toList ≠ [] := by
    simpa using hpattern
  refine ⟨?_, ?_, ?_, ?_, ?_, ?_⟩
  · rw [Line.text, join_marked hne h, List.drop_zero, String.ofList_toList]
  · intro span hmem
    rcases of_mem_marked hne h hmem with hplain | ⟨hstyle, -⟩
    · exact Or.inl hplain
    · exact Or.inr hstyle
  · exact text_ne_of_mem_marked
  · exact isChain_marked hne h
  · intro span hmem
    obtain ⟨hmem, hstyle⟩ := List.mem_filter.1 hmem
    rcases of_mem_marked hne h hmem with hplain | ⟨-, hit, hhit, htext⟩
    · simp [hplain] at hstyle
    · have hocc := h.occursAt hit hhit
      rw [htext, String.length_ofList, String.toList_ofList, hocc.length_eq, String.length_toList]
      exact ⟨rfl, hocc⟩
  · -- an occurrence starts within a hit, and the marked spans start where the hits do
    intro j hj
    rw [Line.startsOf, startsFrom_marked hne h, ← String.length_toList]
    exact h.covers (Nat.zero_le j) hj

end Highlight

end MiniShell
