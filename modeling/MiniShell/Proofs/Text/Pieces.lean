import Mathlib.Tactic.Lemma
import MiniShell.Text.Blank
import MiniShell.Text.Lines

/-!
# Texts in pieces

Cutting a text at a character loses nothing, and a blank between two texts keeps their words apart.

* `intercalate_splitOn`, `joinLines_splitLines`: joining what was cut;
* `words_append_blank`, `words_of_no_blank`: the words of a line put together from words.
-/

namespace MiniShell.Text

/-- No piece of a list cut at some elements contains one of them. -/
lemma forall_of_mem_splitOnP {α : Type} {p : α → Bool} {xs piece : List α}
    (h : piece ∈ xs.splitOnP p) : ∀ x ∈ piece, p x = false := by
  induction xs generalizing piece with
  | nil =>
    rw [List.splitOnP_nil, List.mem_singleton] at h
    simp [h]
  | cons x xs ih =>
    rw [List.splitOnP_cons_eq_if_modifyHead] at h
    by_cases hx : p x = true
    · rw [if_pos hx, List.mem_cons] at h
      rcases h with rfl | h
      · simp
      · exact ih h
    · rw [if_neg hx] at h
      -- only the first piece got longer, and by an element that is not cut at
      obtain ⟨first, others, hcut⟩ := List.exists_cons_of_ne_nil (List.splitOnP_ne_nil p xs)
      rw [hcut, List.modifyHead_cons, List.mem_cons] at h
      rcases h with rfl | h
      · exact List.forall_mem_cons.2 ⟨by simpa using hx, ih (by simp [hcut])⟩
      · exact ih (by simp [hcut, h])

/-- Joining the pieces of `splitOn` gives back the text that was cut. -/
lemma intercalate_splitOn {separator : String} {sep : Char} (h : separator.toList = [sep])
    (text : String) :
    separator.intercalate ((text.toList.splitOn sep).map String.ofList) = text := by
  have hpieces : ((text.toList.splitOn sep).map String.ofList).map String.toList
      = text.toList.splitOn sep := by
    simp
  apply String.toList_inj.1
  rw [String.toList_intercalate, hpieces, h]
  exact List.intercalate_splitOn sep

/-- Put together by `joinLines`, the lines of a text make up the text. -/
theorem joinLines_splitLines (text : String) : joinLines (splitLines text) = text :=
  intercalate_splitOn (by simp) text

/-! ## Words -/

variable {text : String}

/-- A test of all its characters tells whether a text has blanks. -/
lemma no_blank_of_all (h : (text.toList.all fun c => !isBlank c) = true) :
    ∀ c ∈ text.toList, isBlank c = false := by
  intro c hc
  simpa using List.all_eq_true.1 h c hc

lemma ne_empty_of_mem_words {word : String} (h : word ∈ words text) : word ≠ "" := by
  obtain ⟨run, hrun, rfl⟩ := List.mem_map.1 h
  simpa using (List.mem_filter.1 hrun).2

/-- A blank between two texts keeps their `words` apart. -/
lemma words_append_blank (before after : String) :
    words (before ++ " " ++ after) = words before ++ words after := by
  have hlist : (before ++ " " ++ after).toList = before.toList ++ ' ' :: after.toList := by simp
  rw [words, hlist, List.splitOnP_append_cons _ _ (by decide), List.filter_append, List.map_append]
  rfl

lemma words_of_no_blank (hne : text ≠ "") (h : ∀ c ∈ text.toList, isBlank c = false) :
    words text = [text] := by
  rw [words, List.splitOnP_eq_singleton h]
  simp [hne]

end MiniShell.Text
