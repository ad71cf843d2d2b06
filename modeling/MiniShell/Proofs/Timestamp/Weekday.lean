import MiniShell.Proofs.Timestamp

/-!
# Weekdays and dates

The weekday of a moment is read off the number of its day, without a look at the date, and the date
is found by taking years and months away. Here the weekday is computed from the date alone, by the
congruence for Gregorian dates, and the two agree.

The congruence counts the leap days up to a date as if years began with March, so that the leap day
of a year is its last day: January and February are months of the year before.

* `Calendar.weekdayNumber`: the weekday by the congruence;
* `Calendar.weekdayNumber_eq`: the congruence follows the count of days.
-/

namespace MiniShell

namespace Calendar

variable {month : Nat}

/-- The place of a day in `Weekday.all`, from 0 for Sunday to 6 for Saturday. -/
def Weekday.number (weekday : Weekday) : Nat :=
  Weekday.all.idxOf weekday

/-- What each month adds to the places of its days in the week, from January on. -/
def monthShifts : List Int :=
  [0, 3, 2, 5, 0, 3, 5, 1, 4, 6, 2, 4]

/-- The place of a date in the week by the congruence, which takes January and February as months of
the year before and adds `monthShifts`. -/
def weekdayNumber (year month day : Nat) : Int :=
  let y : Int := if month < 3 then (year : Int) - 1 else year
  (y + y / 4 - y / 100 + y / 400 + monthShifts.getD (month - 1) 0 + day) % 7

lemma number_ofDay (day : Nat) : (Weekday.ofDay day).number = (day + 4) % 7 := by
  unfold Weekday.ofDay
  have hplace : (day + 4) % 7 < 7 := Nat.mod_lt _ (by decide)
  generalize (day + 4) % 7 = place at hplace ⊢
  interval_cases place <;> rfl

/-- A month shifts the week by the days that lie between its `monthStart` and the start of the year,
or of the next year if the month comes after the leap day. Neither count depends on the leap day. -/
lemma monthShifts_getD (year : Nat) (h : 1 ≤ month) (h' : month ≤ 12) :
    monthShifts.getD (month - 1) 0
      = ((monthStart year month : Int) - if month < 3 then 0 else daysInYear year) % 7 := by
  unfold monthStart monthLengths daysInYear
  simp only [← isLeap_iff]
  -- whether there is a leap day is all that the table depends on
  interval_cases month <;> cases isLeap year <;> rfl

/-- The congruence of `weekdayNumber` gives the place in the week that `dayNumber` gives. -/
theorem weekdayNumber_eq (year day : Nat) (h : 1 ≤ month) (h' : month ≤ 12) :
    weekdayNumber year month day = (dayNumber year month day + 4) % 7 := by
  have hstep := yearStart_succ year
  simp only [yearStart, Nat.cast_add, Nat.cast_one, Int.add_sub_cancel] at hstep
  simp only [weekdayNumber, dayNumber, yearStart, monthShifts_getD year h h']
  -- the leap days up to `y` are counted from the start of the year after `y`
  split
  case isTrue => omega
  case isFalse => omega

end Calendar

namespace Timestamp

open Calendar

variable {seconds : Nat}

/-- The date that `ofUnixSeconds` finds is that of its day. -/
lemma dayNumber_ofUnixSeconds (seconds : Nat) :
    dayNumber (ofUnixSeconds seconds).year (ofUnixSeconds seconds).month (ofUnixSeconds seconds).day
      = ((seconds / 86400 : Nat) : Int) := by
  obtain ⟨⟨-, -, hhour, hminute, hsecond⟩, hcount, -⟩ := ofUnixSeconds_spec seconds
  unfold unixSeconds at hcount
  omega

/-- **Weekdays.** The weekday of a moment with a year of 16 bits is the one that the congruence
gives for its date. -/
theorem weekday_ofUnixSeconds (h : (ofUnixSeconds seconds).year ≤ 65535) :
    let t := ofUnixSeconds seconds
    ofUnixSecondsInWords seconds = some t ∧
      (t.weekday.number : Int) = weekdayNumber t.year t.month t.day := by
  obtain ⟨hcivil, -, hweekday⟩ := ofUnixSeconds_spec seconds
  refine ⟨ofUnixSecondsInWords_of_year_le h, ?_⟩
  rw [weekdayNumber_eq _ _ hcivil.date.one_le_month hcivil.date.month_le, dayNumber_ofUnixSeconds,
    hweekday, number_ofDay]
  rfl

/-- The leap day of a full century was a Tuesday. -/
theorem weekday_ofUnixSeconds_leap_day :
    (ofUnixSeconds 951868799).year ≤ 65535 ∧
      ((ofUnixSeconds 951868799).weekday.number : Int) = weekdayNumber 2000 2 29 ∧
      weekdayNumber 2000 2 29 = 2 := by
  have hfields : ofUnixSeconds 951868799
      = { year := 2000, month := 2, day := 29, hour := 23, minute := 59, second := 59
          weekday := .tuesday } :=
    ofUnixSeconds_eq_iff.2 (by decide)
  have hyear : (ofUnixSeconds 951868799).year ≤ 65535 := by
    rw [hfields]
    decide
  obtain ⟨-, hweekday⟩ := weekday_ofUnixSeconds hyear
  refine ⟨hyear, hweekday.trans ?_, by decide⟩
  rw [hfields]

end Timestamp

end MiniShell
