import Mathlib.Tactic.Lemma
import MiniShell.Line

/-!
# Canonical lines

A line is canonical if all its spans have text. Then it has spans if and only if it has text, so
that blank lines are told by their spans. Whatever text is pushed onto a canonical line keeps it
canonical, because empty text adds no span. Putting spans behind a line drops none of them, so both
lines have to be canonical for that.

* `Line.Canonical`: lines whose spans have text;
* `Canonical.push`, `Canonical.append`, `canonical_ofSpans`: how lines are built;
* `Canonical.isEmpty_iff`: lines without spans and lines without text.
-/

namespace MiniShell.Line

variable {line other : Line}

/-- A line none of whose spans is without text. -/
def Canonical (line : Line) : Prop :=
  ∀ span ∈ line.spans, span.text ≠ ""

lemma canonical_empty : empty.Canonical :=
  List.forall_mem_nil _

/-- A canonical line stays canonical under `push`, which leaves out empty text. -/
lemma Canonical.push (h : line.Canonical) (text : String) (style : Style) :
    (line.push text style).Canonical := by
  by_cases htext : text = ""
  · rw [Line.push, if_pos htext]
    exact h
  · rw [push_of_ne htext]
    exact List.forall_mem_append.2 ⟨h, List.forall_mem_singleton.2 htext⟩

lemma Canonical.append (h : line.Canonical) (hother : other.Canonical) :
    (line.append other).Canonical :=
  List.forall_mem_append.2 ⟨h, hother⟩

/-- The line of `ofSpans` is canonical, whatever the spans are. -/
lemma canonical_ofSpans (spans : List Span) : (ofSpans spans).Canonical := by
  intro span hmem
  exact of_decide_eq_true (List.mem_filter.1 hmem).2

lemma canonical_styled (text : String) (style : Style) : (styled text style).Canonical :=
  canonical_empty.push text style

lemma canonical_plain (text : String) : (plain text).Canonical :=
  canonical_styled text .plain

/-- A canonical line has no spans if and only if it has no text. -/
theorem Canonical.isEmpty_iff (h : line.Canonical) : line.isEmpty = true ↔ line.text = "" := by
  rw [isEmpty, List.isEmpty_iff, text]
  cases hspans : line.spans with
  | nil => simp
  | cons span rest =>
    -- the first span alone is text enough
    have hspan : span.text ≠ "" := h span (by simp [hspans])
    simp [hspan]

/-- A line that is not canonical may have a span and no text. -/
example : (Line.mk [⟨"", .plain⟩]).isEmpty = false ∧ (Line.mk [⟨"", .plain⟩]).text = "" := by decide

end MiniShell.Line
