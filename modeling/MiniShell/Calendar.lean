/-!
# The Gregorian calendar
-/

namespace MiniShell.Calendar

/-- Every fourth year is a leap year, but of the full centuries only every fourth one. -/
def isLeap (year : Nat) : Bool :=
  year % 4 == 0 && (year % 100 != 0 || year % 400 == 0)

def daysInYear (year : Nat) : Nat :=
  if isLeap year then 366 else 365

/-- The number of days of a month, counted from 1; those past December have 31. -/
def daysInMonth (year month : Nat) : Nat :=
  if month = 2 then if isLeap year then 29 else 28
  else if month = 4 ∨ month = 6 ∨ month = 9 ∨ month = 11 then 30
  else 31

theorem daysInYear_pos (year : Nat) : 0 < daysInYear year := by
  unfold daysInYear
  split <;> decide

theorem daysInMonth_pos (year month : Nat) : 0 < daysInMonth year month := by
  unfold daysInMonth
  repeat' split
  all_goals decide

/-- The year that a day falls in, counted from the first day of `year`, and how many days of that
year come before it. -/
def yearOfDay (year day : Nat) : Nat × Nat :=
  if day < daysInYear year then (year, day) else yearOfDay (year + 1) (day - daysInYear year)
termination_by day
decreasing_by
  have := daysInYear_pos year
  omega

/-- The month that a day falls in, counted from the first day of `month`, and how many days of
that month come before it. -/
def monthOfDay (year month day : Nat) : Nat × Nat :=
  if day < daysInMonth year month then (month, day)
  else monthOfDay year (month + 1) (day - daysInMonth year month)
termination_by day
decreasing_by
  have := daysInMonth_pos year month
  omega

/-! ## Days of the week -/

inductive Weekday where
  | sunday
  | monday
  | tuesday
  | wednesday
  | thursday
  | friday
  | saturday
  deriving DecidableEq, Repr

/-- The days of the week from Sunday on. -/
def Weekday.all : List Weekday :=
  [.sunday, .monday, .tuesday, .wednesday, .thursday, .friday, .saturday]

def Weekday.abbreviation : Weekday → String
  | sunday => "Sun"
  | monday => "Mon"
  | tuesday => "Tue"
  | wednesday => "Wed"
  | thursday => "Thu"
  | friday => "Fri"
  | saturday => "Sat"

/-- The weekday of a day counted from 1970-01-01, which was a Thursday. -/
def Weekday.ofDay (day : Nat) : Weekday :=
  match (day + 4) % 7 with
  | 0 => sunday
  | 1 => monday
  | 2 => tuesday
  | 3 => wednesday
  | 4 => thursday
  | 5 => friday
  | _ => saturday

end MiniShell.Calendar
