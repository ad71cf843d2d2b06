/-!
# Lines of a text
-/

namespace MiniShell.Text

/-- The pieces of a text between its line feeds; a text without any is one line. -/
def splitLines (text : String) : List String :=
  (text.toList.splitOn '\n').map String.ofList

def joinLines (lines : List String) : String :=
  "\n".intercalate lines

end MiniShell.Text
