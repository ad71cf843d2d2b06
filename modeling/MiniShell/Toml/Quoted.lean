import MiniShell.Toml.Digits
import MiniShell.Toml.Scan

/-!
# Quoted text

Four kinds of quotes: double quotes read escapes and single quotes read none, and either kind,
tripled, encloses several lines. A function for what follows the opening quotes gives the text
and what follows the closing ones.
-/

namespace MiniShell.Toml

def charOfHex? (digits : List Char) : Option Char :=
  (ofDigits? 16 digits).bind fun code =>
    if code.isValidChar then some (Char.ofNat code) else none

def charOfEscape? : Char → Option Char
  | 'b' => some '\x08'
  | 't' => some '\t'
  | 'n' => some '\n'
  | 'f' => some '\x0c'
  | 'r' => some '\r'
  | '"' => some '"'
  | '\\' => some '\\'
  | _ => none

def consRead (c : Char) (read : Option (List Char × List Char)) :
    Option (List Char × List Char) :=
  read.map fun (text, rest) => (c :: text, rest)

def consRead? (c : Option Char) (read : Option (List Char × List Char)) :
    Option (List Char × List Char) :=
  c.bind fun c => consRead c read

/-- The text between double quotes. -/
def escapedLine : List Char → Option (List Char × List Char)
  | '"' :: rest => some ([], rest)
  | '\\' :: 'u' :: a :: b :: c :: d :: rest =>
    consRead? (charOfHex? [a, b, c, d]) (escapedLine rest)
  | '\\' :: 'U' :: a :: b :: c :: d :: e :: f :: g :: h :: rest =>
    consRead? (charOfHex? [a, b, c, d, e, f, g, h]) (escapedLine rest)
  | '\\' :: letter :: rest => consRead? (charOfEscape? letter) (escapedLine rest)
  | c :: rest =>
    if isPlainExcept ['"', '\\'] c then consRead c (escapedLine rest) else none
  | [] => none

/-- The text between single quotes. -/
def literalLine : List Char → Option (List Char × List Char)
  | '\'' :: rest => some ([], rest)
  | c :: rest => if isPlainExcept ['\''] c then consRead c (literalLine rest) else none
  | [] => none

/-- Is there nothing but blanks before the next line end? -/
def blankToLineEnd : List Char → Bool
  | '\n' :: _ => true
  | '\r' :: '\n' :: _ => true
  | c :: rest => isInlineBlank c && blankToLineEnd rest
  | [] => false

/-- The text between tripled double quotes. One or two quotes before the closing three belong to the
text. A backslash before a line end drops all blanks and line ends up to the next other character;
while they are being dropped, `dropping` is set. -/
def escapedLines (dropping : Bool) : List Char → Option (List Char × List Char)
  | '"' :: '"' :: '"' :: '"' :: '"' :: rest => some (['"', '"'], rest)
  | '"' :: '"' :: '"' :: '"' :: rest => some (['"'], rest)
  | '"' :: '"' :: '"' :: rest => some ([], rest)
  | '\\' :: 'u' :: a :: b :: c :: d :: rest =>
    consRead? (charOfHex? [a, b, c, d]) (escapedLines false rest)
  | '\\' :: 'U' :: a :: b :: c :: d :: e :: f :: g :: h :: rest =>
    consRead? (charOfHex? [a, b, c, d, e, f, g, h]) (escapedLines false rest)
  | '\\' :: letter :: rest =>
    if blankToLineEnd (letter :: rest) then escapedLines true (letter :: rest)
    else consRead? (charOfEscape? letter) (escapedLines false rest)
  | '\r' :: '\n' :: rest =>
    if dropping then escapedLines true rest else consRead '\n' (escapedLines false rest)
  | c :: rest =>
    if dropping && (c == '\n' || isInlineBlank c) then escapedLines true rest
    else if c == '\n' || isPlainExcept ['\\'] c then consRead c (escapedLines false rest)
    else none
  | [] => none

/-- The text between tripled single quotes. One or two quotes before the closing three belong to
the text. -/
def literalLines : List Char → Option (List Char × List Char)
  | '\'' :: '\'' :: '\'' :: '\'' :: '\'' :: rest => some (['\'', '\''], rest)
  | '\'' :: '\'' :: '\'' :: '\'' :: rest => some (['\''], rest)
  | '\'' :: '\'' :: '\'' :: rest => some ([], rest)
  | '\r' :: '\n' :: rest => consRead '\n' (literalLines rest)
  | c :: rest =>
    if c == '\n' || isPlainExcept [] c then consRead c (literalLines rest) else none
  | [] => none

/-- A text of several lines starts after the line end that may follow its opening quotes. -/
def dropLineEnd : List Char → List Char
  | '\n' :: rest => rest
  | '\r' :: '\n' :: rest => rest
  | rest => rest

namespace Scan

/-- A quoted text on one line, by `escapedLine` or `literalLine`, as keys allow it. -/
def quotedLine : Scan String
  | '"' :: rest => (escapedLine rest).map fun (text, rest) => (String.ofList text, rest)
  | '\'' :: rest => (literalLine rest).map fun (text, rest) => (String.ofList text, rest)
  | _ => none

/-- A quoted text of one line or several. -/
def quoted : Scan String
  | '"' :: '"' :: '"' :: rest =>
    (escapedLines false (dropLineEnd rest)).map fun (text, rest) => (String.ofList text, rest)
  | '\'' :: '\'' :: '\'' :: rest =>
    (literalLines (dropLineEnd rest)).map fun (text, rest) => (String.ofList text, rest)
  | rest => quotedLine rest

end Scan

end MiniShell.Toml
