import Mathlib.Data.List.DropRight
import Mathlib.Tactic.Common
import MiniShell.Console
import MiniShell.Proofs.Text.Bytes

/-!
# The lines of an input

An input is cut after each line feed, and every chunk that is a text stands for the line that is
left of the text without the line ends after it. The console cuts the line feeds off first, which
comes to the same.

* `Chunked`: the chunks of an input;
* `lineOf`: the line of a text;
* `map_line?_pieces`: the console reads the lines of the chunks.
-/

namespace MiniShell.Console

open Text

variable {input : List UInt8} {chunks : List (List UInt8)}

/-- The chunks of an input: each ends with its only line feed, but for a last one that may have
none if it is not empty. -/
inductive Chunked : List UInt8 → List (List UInt8) → Prop where
  | nil : Chunked [] []
  | unended {piece : List UInt8} (hne : piece ≠ []) (hpiece : 10 ∉ piece) : Chunked piece [piece]
  | ended {piece input : List UInt8} {chunks : List (List UInt8)} (hpiece : 10 ∉ piece)
      (hrest : Chunked input chunks) : Chunked (piece ++ 10 :: input) ((piece ++ [10]) :: chunks)

/-- The line of a text: the text without the line ends after it. -/
def lineOf (text : String) : String :=
  String.ofList (text.toList.rdropWhile fun c => c == '\n' || c == '\r')

/-- Every input is `Chunked` in some way. -/
theorem exists_chunked (input : List UInt8) : ∃ chunks, Chunked input chunks := by
  induction input with
  | nil => exact ⟨[], .nil⟩
  | cons byte input ih =>
    obtain ⟨chunks, hchunks⟩ := ih
    by_cases hbyte : byte = 10
    · subst hbyte
      -- a line feed ends an empty chunk in front of the others
      have hnil : (10 : UInt8) ∉ ([] : List UInt8) := List.not_mem_nil
      exact ⟨_, .ended hnil hchunks⟩
    · -- another byte goes to the first chunk, if there is one
      have hcons : ∀ {piece : List UInt8}, 10 ∉ piece → 10 ∉ byte :: piece := fun hpiece =>
        List.not_mem_cons_of_ne_of_not_mem (Ne.symm hbyte) hpiece
      cases hchunks with
      | nil => exact ⟨_, .unended (List.cons_ne_nil _ _) (hcons List.not_mem_nil)⟩
      | unended hne hpiece => exact ⟨_, .unended (List.cons_ne_nil _ _) (hcons hpiece)⟩
      | ended hpiece hrest => exact ⟨_, .ended (hcons hpiece) hrest⟩

lemma pieces_unended {piece : List UInt8} (hne : piece ≠ []) (hpiece : 10 ∉ piece) :
    pieces piece = [piece] := by
  rw [pieces, List.splitOn_eq_singleton hpiece]
  cases piece with
  | nil => exact absurd rfl hne
  | cons byte rest => rfl

/-- An input begins for `pieces` with its piece up to the first line feed. -/
lemma pieces_ended {piece : List UInt8} (hpiece : 10 ∉ piece) (input : List UInt8) :
    pieces (piece ++ 10 :: input) = piece :: pieces input := by
  rw [pieces, pieces, List.splitOn_append_cons_self_of_not_mem hpiece, List.reverse_cons]
  have hne := List.splitOn_ne_nil 10 input
  obtain ⟨last, others, hcut⟩ :=
    List.exists_cons_of_ne_nil (mt List.reverse_eq_nil_iff.1 hne)
  rw [hcut]
  cases last with
  | nil => simp
  | cons byte last => simp

/-! ## Lines -/

/-- A chunk that is a text stands for the line that `lineOf` makes of it. -/
lemma line?_toBytes (text : String) : line? (toBytes text) = some (lineOf text) := by
  rw [line?, ofBytes?_eq_some_iff.2 rfl, Option.map_some]
  rfl

lemma line?_eq_none {chunk : List UInt8} (h : ∀ text, toBytes text ≠ chunk) :
    line? chunk = none := by
  rw [line?, ofBytes?_eq_none_iff.2 h, Option.map_none]

lemma line?_append_newline (piece : List UInt8) : line? (piece ++ [10]) = line? piece := by
  rw [line?, line?, ← toBytes_newline, ofBytes?_append_toBytes, Option.map_map]
  congr 1
  funext text
  show lineOf (text ++ "\n") = lineOf text
  have htoList : (text ++ "\n").toList = text.toList ++ ['\n'] := by simp
  rw [lineOf, lineOf, htoList, List.rdropWhile_concat_pos _ _ _ (by decide)]

/-- The lines of the `pieces` of an input are those of its chunks. -/
theorem map_line?_pieces (h : Chunked input chunks) :
    (pieces input).map line? = chunks.map line? := by
  induction h with
  | nil => rfl
  | unended hne hpiece => rw [pieces_unended hne hpiece]
  | ended hpiece hrest ih =>
    rw [pieces_ended hpiece, List.map_cons, List.map_cons, line?_append_newline, ih]

end MiniShell.Console
