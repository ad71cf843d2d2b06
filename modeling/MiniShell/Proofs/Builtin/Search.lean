import MiniShell.Proofs.Builtin
import MiniShell.Proofs.Highlight.Result
import MiniShell.Proofs.Text.Pieces
import MiniShell.Proofs.Tree.Entry

/-!
# Searching files

`grep` shows the lines of a file that contain a pattern. It is `cat` with the other lines left out,
and says that there are none by a line without spans, which is never the way it shows a line.

* `Highlight.Occurs`: a pattern in a text, case aside;
* `map_text_filterMap_mark?`: the lines that a search finds;
* `matchingLines_eq_empty_iff`: when there are none;
* `runLine_grep_filters_cat`: what `grep` shows of what `cat` shows.
-/

namespace MiniShell

namespace Highlight

variable {pattern text : String}

/-- The pattern is somewhere in the text, case aside: it `OccursAt` some place. -/
def Occurs (pattern text : String) : Prop :=
  ∃ j, OccursAt pattern.toList text.toList j

/-- Only the places up to the end of a text have to be looked at with `startsWith`. -/
lemma occurs_iff :
    Occurs pattern text
      ↔ ∃ j < text.length + 1, startsWith pattern.toList (text.toList.drop j) = true := by
  simp only [Occurs, occursAt_iff]
  constructor
  · rintro ⟨j, hj⟩
    by_cases hlt : j < text.length + 1
    · exact ⟨j, hlt, hj⟩
    · have hlength := String.length_toList (s := text)
      have hend : text.toList.drop text.length = text.toList.drop j := by
        rw [List.drop_eq_nil_of_le (by omega), List.drop_eq_nil_of_le (by omega)]
      rw [← hend] at hj
      exact ⟨text.length, Nat.lt_succ_self _, hj⟩
  · rintro ⟨j, -, hj⟩
    exact ⟨j, hj⟩

instance (pattern text : String) : Decidable (Occurs pattern text) :=
  decidable_of_iff _ occurs_iff.symm

/-- A text is not found by `mark?` if the pattern is nowhere in it, and only then. -/
lemma mark?_eq_none_iff_not_occurs (hpattern : pattern ≠ "") :
    mark? pattern text = none ↔ ¬ Occurs pattern text :=
  (mark?_eq_none_iff hpattern).trans not_exists.symm

lemma map_text_mark? (hpattern : pattern ≠ "") (text : String) :
    (mark? pattern text).map Line.text = if Occurs pattern text then some text else none := by
  cases hmark : mark? pattern text with
  | none =>
    rw [if_neg ((mark?_eq_none_iff_not_occurs hpattern).1 hmark)]
    rfl
  | some line =>
    have hocc : Occurs pattern text := by
      by_contra hnot
      rw [(mark?_eq_none_iff_not_occurs hpattern).2 hnot] at hmark
      nomatch hmark
    rw [if_pos hocc, Option.map_some, (isMarking_of_mark? hpattern hmark).text_eq]

/-- The texts that `mark?` finds are those in which the pattern `Occurs`, in their order. -/
theorem map_text_filterMap_mark? (hpattern : pattern ≠ "") (texts : List String) :
    (texts.filterMap (mark? pattern)).map Line.text = texts.filter (Occurs pattern) := by
  rw [List.map_filterMap]
  simp only [map_text_mark? hpattern]
  induction texts with
  | nil => rfl
  | cons text texts ih => by_cases hocc : Occurs pattern text <;> simp [hocc, ih]

lemma filterMap_mark?_eq_nil_iff (hpattern : pattern ≠ "") {texts : List String} :
    texts.filterMap (mark? pattern) = [] ↔ ∀ text ∈ texts, ¬ Occurs pattern text := by
  rw [List.filterMap_eq_nil_iff]
  simp only [mark?_eq_none_iff_not_occurs hpattern]

/-- A line that `mark?` gives has a hit, so it is not without spans. -/
lemma ne_empty_of_mark? (hpattern : pattern ≠ "") {line : Line}
    (h : mark? pattern text = some line) : line ≠ .empty := by
  rintro rfl
  have hocc : Occurs pattern text := by
    by_contra hnot
    rw [(mark?_eq_none_iff_not_occurs hpattern).2 hnot] at h
    nomatch h
  obtain ⟨j, hj⟩ := hocc
  obtain ⟨start, hstart, -⟩ := (isMarking_of_mark? hpattern h).covers j hj
  nomatch hstart

end Highlight

namespace Builtin

open Highlight

variable {env : Environment} {line other pattern typed content : String}
  {arguments others : List String}

/-! ## Lines that match -/

lemma matchingLines_of_occurs (hpattern : pattern ≠ "")
    (h : ∃ text ∈ Text.splitLines content, Occurs pattern text) :
    matchingLines pattern content
      = (Text.splitLines content).filterMap (mark? pattern) := by
  have hne : (Text.splitLines content).filterMap (mark? pattern) ≠ [] := by
    intro hnil
    obtain ⟨text, hmem, hocc⟩ := h
    exact (filterMap_mark?_eq_nil_iff hpattern).1 hnil text hmem hocc
  rw [matchingLines]
  split
  case h_1 hnil => exact absurd hnil hne
  case h_2 => rfl

/-- One line without spans is what `matchingLines` gives if the pattern occurs in no line, and only
then. -/
lemma matchingLines_eq_empty_iff (hpattern : pattern ≠ "") :
    matchingLines pattern content = [.empty]
      ↔ ∀ text ∈ Text.splitLines content, ¬ Occurs pattern text := by
  constructor
  · intro hempty text hmem hocc
    rw [matchingLines_of_occurs hpattern ⟨text, hmem, hocc⟩] at hempty
    have hfound : Line.empty ∈ (Text.splitLines content).filterMap (mark? pattern) := by
      rw [hempty]
      exact List.mem_singleton_self _
    obtain ⟨origin, -, hmark⟩ := List.mem_filterMap.1 hfound
    exact ne_empty_of_mark? hpattern hmark rfl
  · intro hnone
    rw [matchingLines, (filterMap_mark?_eq_nil_iff hpattern).2 hnone]

/-! ## The command -/

/-- The lines that `grep` shows are the `matchingLines` of the file at a typed path. -/
lemma runLine_grep (hwords : Text.words line = "grep" :: pattern :: typed :: arguments)
    (hfile : env.tree.lookup (env.resolve typed) = some (.file content)) :
    registry.runLine line env = (.lines (matchingLines pattern content), env.cwd) := by
  have hcontent : contentAt "grep" typed env = .ok content :=
    (contentAt_eq_ok_iff "grep").2 hfile
  rw [runLine_of_mem (show grep ∈ commands by simp [commands]) (by decide) hwords]
  simp only [grep, Command.reporting, hcontent]
  rfl

lemma runLine_grep_congr (hwords : Text.words line = "grep" :: pattern :: typed :: arguments)
    (hother : Text.words other = "grep" :: pattern :: typed :: others) (env : Environment) :
    registry.runLine other env = registry.runLine line env := by
  have hmem : grep ∈ commands := by simp [commands]
  rw [runLine_of_mem hmem (by decide) hwords, runLine_of_mem hmem (by decide) hother]
  rfl

/-- **`grep` filters `cat`.** Where a typed path leads to a file, `cat` shows the lines of the file,
and `grep` those among them in which the pattern occurs, case aside, in their order and as often as
they are there. If there are none it shows one line without spans, and it never shows that
otherwise. Words behind the typed path do not matter. -/
theorem runLine_grep_filters_cat (env : Environment)
    (hgrep : Text.words line = "grep" :: pattern :: typed :: arguments) :
    (∀ (other : String) (others : List String),
      Text.words other = "grep" :: pattern :: typed :: others →
      registry.runLine other env = registry.runLine line env) ∧
    ∀ content, env.tree.lookup (env.resolve typed) = some (.file content) →
    ∀ (reading : String) (others : List String), Text.words reading = "cat" :: typed :: others →
      ∃ shown found, registry.runLine reading env = (.lines shown, env.cwd) ∧
        registry.runLine line env = (.lines found, env.cwd) ∧
        shown.map Line.text = Text.splitLines content ∧
        ((∃ text ∈ shown.map Line.text, Occurs pattern text) →
          found.map Line.text = (shown.map Line.text).filter (Occurs pattern)) ∧
        (found = [.empty] ↔ ∀ text ∈ shown.map Line.text, ¬ Occurs pattern text) := by
  -- the pattern is a word of the line, so it is not empty
  have hword : pattern ∈ Text.words line := by simp [hgrep]
  have hpattern : pattern ≠ "" := Text.ne_empty_of_mem_words hword
  constructor
  · intro other others hother
    exact runLine_grep_congr hgrep hother env
  · intro content hfile reading others hcat
    have htexts : ((Text.splitLines content).map Line.plain).map Line.text
        = Text.splitLines content := by
      simp [Function.comp_def, Line.text_plain]
    refine ⟨_, _, runLine_cat hcat hfile, runLine_grep hgrep hfile, htexts, ?_, ?_⟩
    · rw [htexts]
      intro hocc
      rw [matchingLines_of_occurs hpattern hocc, map_text_filterMap_mark? hpattern]
    · rw [htexts]
      exact matchingLines_eq_empty_iff hpattern

/-- A line that is there twice is shown twice, a carriage return stays, and a third argument changes
nothing. -/
theorem runLine_grep_filters_cat_twice :
    let content := "Error\n\nno\nan ERROR\r\nError"
    let env : Environment :=
      { config := {}
        tree := (Tree.empty.edit (.write "/log" content)).1
        clock := .ok (.ofUnixSeconds 0)
        cwd := "/"
        history := [] }
    Text.words "grep error log" = ["grep", "error", "log"] ∧
      Text.words "grep error log no" = ["grep", "error", "log", "no"] ∧
      Text.words "cat log" = ["cat", "log"] ∧
      env.tree.lookup (env.resolve "log") = some (.file content) ∧
      ∃ found, registry.runLine "grep error log" env = (.lines found, "/") ∧
        registry.runLine "grep error log no" env = (.lines found, "/") ∧
        found.map Line.text = ["Error", "an ERROR\r", "Error"] := by
  intro content env
  have hgrep : Text.words "grep error log" = ["grep", "error", "log"] := by decide +kernel
  have hother : Text.words "grep error log no" = ["grep", "error", "log", "no"] := by
    decide +kernel
  have hcat : Text.words "cat log" = ["cat", "log"] := by decide +kernel
  have hfile : env.tree.lookup (env.resolve "log") = some (.file content) :=
    Tree.lookup_eq_file.2 (by decide +kernel)
  obtain ⟨hsame, hfilters⟩ := runLine_grep_filters_cat env hgrep
  obtain ⟨shown, found, -, hfound, hlines, htexts, -⟩ :=
    hfilters content hfile "cat log" [] hcat
  rw [hlines] at htexts
  refine ⟨hgrep, hother, hcat, hfile, found, hfound, ?_, ?_⟩
  · rw [hsame _ _ hother, hfound]
  · exact (htexts (by decide +kernel)).trans (by decide +kernel)

end Builtin

end MiniShell
