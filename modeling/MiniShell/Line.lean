/-!
# Styled lines

Output says what to emphasise and why, never how: a line is a run of spans, each with a style
that a renderer turns into colours or into nothing.
-/

namespace MiniShell

/-- Why a span stands out. -/
inductive Style where
  | plain
  /-- A hit of a search. -/
  | hit
  /-- A directory in a listing. -/
  | directory
  /-- A command name, a label or a logo. -/
  | accent
  /-- A diagnostic. -/
  | error
  deriving DecidableEq, Repr

/-- A run of text of one style. -/
structure Span where
  text : String
  style : Style
  deriving DecidableEq, Repr

/-- A line of output. -/
structure Line where
  spans : List Span := []
  deriving DecidableEq, Repr

namespace Line

/-- The line without spans, which shows as a blank one. -/
def empty : Line := {}

/-- Does the line have no spans? A line with an empty span has one; `Line.push` makes none. -/
def isEmpty (line : Line) : Bool :=
  line.spans.isEmpty

/-- The line with a span at its end. Empty text adds none, so `push` never makes an empty span. -/
def push (line : Line) (text : String) (style : Style) : Line :=
  if text = "" then line else { spans := line.spans ++ [{ text, style }] }

def append (line other : Line) : Line :=
  { spans := line.spans ++ other.spans }

/-- The line of the given spans, those without text left out as `push` leaves them out. -/
def ofSpans (spans : List Span) : Line :=
  { spans := spans.filter (·.text ≠ "") }

def styled (text : String) (style : Style) : Line :=
  empty.push text style

/-- A line that does not stand out, `styled` as plain text. -/
def plain (text : String) : Line :=
  styled text .plain

def error (text : String) : Line :=
  styled text .error

/-- The text of a line without its styles, as a terminal without colours shows it. -/
def text (line : Line) : String :=
  String.join (line.spans.map Span.text)

theorem push_of_ne {text : String} (h : text ≠ "") (line : Line) (style : Style) :
    line.push text style = { spans := line.spans ++ [{ text, style }] } :=
  if_neg h

/-- A line that is `styled` has one span, if its text is not empty. -/
theorem styled_of_ne {text : String} (h : text ≠ "") (style : Style) :
    styled text style = { spans := [{ text, style }] } :=
  push_of_ne h empty style

theorem text_push (line : Line) (added : String) (style : Style) :
    (line.push added style).text = line.text ++ added := by
  unfold push text
  split
  · simp [*]
  · apply String.toList_inj.1
    simp

theorem text_plain (text : String) : (plain text).text = text := by
  rw [plain, styled, text_push, empty]
  exact String.empty_append

def spansOf (line : Line) (style : Style) : List Span :=
  line.spans.filter (·.style = style)

end Line

end MiniShell
