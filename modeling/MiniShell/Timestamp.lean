import MiniShell.Calendar
import MiniShell.Text.Pad

/-!
# Moments in universal time

A moment is given as seconds since the start of 1970, without leap seconds, and shown by its
fields.
-/

namespace MiniShell

open Calendar

/-- The fields of a moment, in universal time. -/
structure Timestamp where
  year : Nat
  month : Nat
  day : Nat
  hour : Nat
  minute : Nat
  second : Nat
  weekday : Weekday
  deriving DecidableEq, Repr

namespace Timestamp

/-- The fields of the moment that lies `seconds` after the start of 1970, by `Calendar.yearOfDay`
and `Calendar.monthOfDay`. -/
def ofUnixSeconds (seconds : Nat) : Timestamp :=
  let days := seconds / 86400
  let rest := seconds % 86400
  let (year, dayOfYear) := yearOfDay 1970 days
  let (month, dayOfMonth) := monthOfDay year 1 dayOfYear
  { year
    month
    day := dayOfMonth + 1
    hour := rest / 3600
    minute := rest % 3600 / 60
    second := rest % 60
    weekday := .ofDay days }

def monthNames : List String :=
  ["Jan", "Feb", "Mar", "Apr", "May", "Jun", "Jul", "Aug", "Sep", "Oct", "Nov", "Dec"]

/-- The name of a month counted from 1, and `???` past the last one. Month 0 has the first
name. -/
def monthName (month : Nat) : String :=
  monthNames[month - 1]?.getD "???"

/-- The moment on one line: `Sat Oct 17 14:30:45 UTC 2026`, the day aligned to two places. -/
def text (t : Timestamp) : String :=
  t.weekday.abbreviation ++ " " ++ monthName t.month ++ " " ++ Text.alignRight 2 t.day ++ " "
    ++ Text.twoDigits t.hour ++ ":" ++ Text.twoDigits t.minute ++ ":" ++ Text.twoDigits t.second
    ++ " UTC " ++ toString t.year

end Timestamp

end MiniShell
