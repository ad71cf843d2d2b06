/-!
# Bytes and text
-/

namespace MiniShell.Text

/-- The text whose UTF-8 encoding the bytes are. -/
def ofBytes? (bytes : List UInt8) : Option String :=
  String.fromUTF8? ⟨bytes.toArray⟩

end MiniShell.Text
