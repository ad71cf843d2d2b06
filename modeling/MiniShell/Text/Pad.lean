/-!
# Columns

Padding counts characters, and a text wider than its column is kept whole.
-/

namespace MiniShell.Text

/-- The text followed by as many spaces as it lacks to `width` characters. -/
def padRight (width : Nat) (text : String) : String :=
  text ++ String.ofList (List.replicate (width - text.length) ' ')

/-- The text after as many copies of `fill` as it lacks to `width` characters. -/
def padLeft (width : Nat) (fill : Char) (text : String) : String :=
  String.ofList (List.replicate (width - text.length) fill) ++ text

theorem padRight_ne_empty {width : Nat} (h : 0 < width) (text : String) :
    padRight width text ≠ "" := by
  intro hempty
  have hlength := congrArg String.length hempty
  simp only [padRight, String.length_append, String.length_ofList, List.length_replicate,
    String.length_empty] at hlength
  omega

def alignRight (width : Nat) (n : Nat) : String :=
  padLeft width ' ' (toString n)

def twoDigits (n : Nat) : String :=
  padLeft 2 '0' (toString n)

end MiniShell.Text
