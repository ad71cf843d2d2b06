import MiniShell.Main
import MiniShell.Proofs.Path.Resolve
import MiniShell.Proofs.Path.Abbreviation
import MiniShell.Proofs.Path.Composition
import MiniShell.Proofs.Path.Detour
import MiniShell.Proofs.Path.Offsets
import MiniShell.Proofs.Tree.Edit
import MiniShell.Proofs.Tree.Growth
import MiniShell.Proofs.Tree.Extensionality
import MiniShell.Proofs.Tree.Writing
import MiniShell.Proofs.Tree.Making
import MiniShell.Proofs.Tree.Order
import MiniShell.Proofs.Tree.Walk
import MiniShell.Proofs.Tree.Lookup
import MiniShell.Proofs.Seed.Layout
import MiniShell.Proofs.Seed.Files
import MiniShell.Proofs.Seed.Tree
import MiniShell.Proofs.Seed.Parents
import MiniShell.Proofs.Builtin
import MiniShell.Proofs.Builtin.Search
import MiniShell.Proofs.Builtin.Listing
import MiniShell.Proofs.Builtin.Finding
import MiniShell.Proofs.Builtin.Failing
import MiniShell.Proofs.Builtin.Canonical
import MiniShell.Proofs.History
import MiniShell.Proofs.Timestamp
import MiniShell.Proofs.Session.Run
import MiniShell.Proofs.Session.Typing
import MiniShell.Proofs.Session.Recall
import MiniShell.Proofs.Session.Recorded
import MiniShell.Proofs.Session.Transcript
import MiniShell.Proofs.Session.WorkingDirectory
import MiniShell.Proofs.Session.Reading
import MiniShell.Proofs.Session.Moves
import MiniShell.Proofs.Session.Shortcut
import MiniShell.Proofs.Console.Input
import MiniShell.Proofs.Console.Dialogue
import MiniShell.Proofs.Highlight.Hits
import MiniShell.Proofs.Highlight.Marking
import MiniShell.Proofs.Highlight.Scan
import MiniShell.Proofs.Highlight.Result
import MiniShell.Proofs.Highlight.Folding
import MiniShell.Proofs.Session.Blanks
import MiniShell.Proofs.Session.Failing
import MiniShell.Proofs.Session.Canonical
import MiniShell.Proofs.Render.Decoding
import MiniShell.Proofs.Console.Padding
import MiniShell.Proofs.Timestamp.Weekday
import MiniShell.Proofs.Timestamp.Text
