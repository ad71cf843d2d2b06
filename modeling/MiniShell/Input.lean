/-!
# Input events
-/

namespace MiniShell

/-- The keys that do more than insert text. -/
inductive Button where
  /-- Recalls the previous history entry. -/
  | up
  /-- Recalls the next history entry. -/
  | down
  /-- Submits the line. -/
  | confirm
  /-- Discards the line. -/
  | cancel
  deriving DecidableEq, Repr

namespace Button

def name : Button → String
  | up => "Up"
  | down => "Down"
  | confirm => "Confirm"
  | cancel => "Cancel"

/-- The inverse of `Button.name`. -/
def ofName? : String → Option Button
  | "Up" => some up
  | "Down" => some down
  | "Confirm" => some confirm
  | "Cancel" => some cancel
  | _ => none

end Button

/-- What a user can do at a terminal. -/
inductive InputEvent where
  | press (button : Button)
  | type (char : Char)
  | backspace
  deriving DecidableEq, Repr

/-- Does the event change the line by itself, without recalling or submitting one? A walk through
the `History` ends with such an event. -/
def InputEvent.isEdit : InputEvent → Bool
  | press .cancel | type _ | backspace => true
  | press .up | press .down | press .confirm => false

end MiniShell
