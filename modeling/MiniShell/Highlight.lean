import MiniShell.Line
import MiniShell.Text.Lowercase

/-!
# Highlighting

A search marks the first hit in a line, then goes on behind it: hits never overlap, and case does
not count. `starts` gives the positions of the hits and `mark?` the line cut at them.
-/

namespace MiniShell.Highlight

/-- Does the text start with the pattern, characters compared by `Text.sameFolded`? -/
def startsWith : List Char → List Char → Bool
  | [], _ => true
  | _ :: _, [] => false
  | p :: pattern, c :: text => Text.sameFolded c p && startsWith pattern text

/-- The positions of hits in a text that begins at `position` and whose first `covered` characters
belong to an earlier hit. -/
def startsFrom (pattern : List Char) (covered position : Nat) : List Char → List Nat
  | [] => []
  | c :: text =>
    match covered with
    | covered + 1 => startsFrom pattern covered (position + 1) text
    | 0 =>
      if startsWith pattern (c :: text) then
        -- the hit covers its first character here and the others on the way
        position :: startsFrom pattern (pattern.length - 1) (position + 1) text
      else startsFrom pattern 0 (position + 1) text

def starts (pattern text : List Char) : List Nat :=
  startsFrom pattern 0 0 text

/-- A text that begins at `position`, cut at the hits of the given length that start at the given
positions. -/
def pieces (length position : Nat) : List Nat → List Char → List Span
  | [], text => [⟨String.ofList text, .plain⟩]
  | start :: starts, text =>
    ⟨String.ofList (text.take (start - position)), .plain⟩
      :: ⟨String.ofList ((text.drop (start - position)).take length), .hit⟩
      :: pieces length (start + length) starts (text.drop (start - position + length))

/-- The line with its hits marked, and nothing if `starts` finds none. An empty pattern finds every
line and marks nothing. -/
def mark? (pattern text : String) : Option Line :=
  if pattern = "" then some (.plain text)
  else
    match starts pattern.toList text.toList with
    | [] => none
    | hits => some (.ofSpans (pieces pattern.length 0 hits text.toList))

end MiniShell.Highlight
