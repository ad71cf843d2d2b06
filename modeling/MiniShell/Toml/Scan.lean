/-!
# Scanning a text

A scanner takes what it reads off the front of a list of characters, or refuses. Repetition is
bounded by the length of the text: each turn has to read something to be of use.
-/

namespace MiniShell.Toml

/-- A reader of the front of a text. -/
abbrev Scan := StateT (List Char) Option

namespace Scan

variable {α : Type}

/-- Reads exactly this character. -/
def char (c : Char) : Scan Unit
  | d :: cs => if d = c then some ((), cs) else none
  | [] => none

def run (test : Char → Bool) : Scan (List Char) :=
  fun cs => some (cs.takeWhile test, cs.dropWhile test)

def run₁ (test : Char → Bool) : Scan (List Char) :=
  fun cs => if cs.takeWhile test = [] then none else run test cs

def atEnd : Scan Unit
  | [] => some ((), [])
  | _ :: _ => none

def optional (item : Scan α) : Scan (Option α) :=
  (some <$> item) <|> pure none

/-- Reads items until one is refused, at most as many as the first argument says. -/
def upTo (item : Scan α) : Nat → Scan (List α)
  | 0 => pure []
  | n + 1 => (do let a ← item; let as ← upTo item n; pure (a :: as)) <|> pure []

/-- Reads items until one is refused. An item reads at least a character, so that `upTo` the length
of the text is enough. -/
def many (item : Scan α) : Scan (List α) :=
  fun cs => upTo item cs.length cs

def separated (item : Scan α) (separator : Scan Unit) : Scan (List α) := do
  let first ← item
  let others ← many (do separator; item)
  pure (first :: others)

end Scan

/-! ## Blanks, comments and line ends -/

def isInlineBlank (c : Char) : Bool :=
  c == ' ' || c == '\t'

/-- A character that stands for itself: neither a control character other than the tab, nor
one of those named. -/
def isPlainExcept (excluded : List Char) (c : Char) : Bool :=
  (c == '\t' || (0x20 ≤ c.toNat && c.toNat != 0x7F)) && !excluded.contains c

namespace Scan

def blanks : Scan Unit :=
  discard (run isInlineBlank)

def newline : Scan Unit
  | '\n' :: cs => some ((), cs)
  | '\r' :: '\n' :: cs => some ((), cs)
  | _ => none

/-- A comment, up to the end of its line or to a character that `isPlainExcept` refuses. -/
def comment : Scan Unit := do
  char '#'
  discard (run (isPlainExcept []))

def layout : Scan Unit :=
  discard (many (discard (run₁ isInlineBlank) <|> newline <|> comment))

end Scan

end MiniShell.Toml
