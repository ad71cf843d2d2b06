import Mathlib.Algebra.Order.BigOperators.Group.List
import Mathlib.Data.List.GetD
import Mathlib.Order.Monotone.Basic
import Mathlib.Tactic.IntervalCases
import MiniShell.Calendar

/-!
# Counting the days of the calendar

The calendar finds the year and the month of a day by taking away whole years and whole months.
Here the days are counted the other way, by a formula: how many come before a year, before a
month of the year, and before a day.

* `dayNumber`: the days between the start of 1970 and a date;
* `yearOfDay_eq_iff`, `monthOfDay_eq_iff`: the year and the month found are those in which the
  count puts the day.
-/

namespace MiniShell.Calendar

variable {first year month day rest : Nat}

/-! ## The count -/

/-- The lengths of the months of a year, from January on, without `isLeap`. -/
def monthLengths (year : Nat) : List Nat :=
  let february := if 4 ∣ year ∧ (¬ 100 ∣ year ∨ 400 ∣ year) then 29 else 28
  [31, february, 31, 30, 31, 30, 31, 31, 30, 31, 30, 31]

/-- The days between the start of 1970 and the start of a year: 365 for each year, and one for
each leap day, of which there were 477 before 1970. -/
def yearStart (year : Nat) : Int :=
  365 * ((year : Int) - 1970) + ((year : Int) - 1) / 4 - ((year : Int) - 1) / 100
    + ((year : Int) - 1) / 400 - 477

/-- The days of a year before the start of a month, counted from 1: the first `monthLengths` added
up. -/
def monthStart (year month : Nat) : Nat :=
  ((monthLengths year).take (month - 1)).sum

/-- The days between the start of 1970 and a date, by `yearStart` and `monthStart`. -/
def dayNumber (year month day : Nat) : Int :=
  yearStart year + monthStart year month + day - 1

/-- Is there such a date, by `monthLengths`? -/
structure IsDate (year month day : Nat) : Prop where
  one_le_month : 1 ≤ month
  month_le : month ≤ 12
  one_le_day : 1 ≤ day
  day_le : day ≤ (monthLengths year).getD (month - 1) 0

instance (year month day : Nat) : Decidable (IsDate year month day) :=
  decidable_of_iff
    (1 ≤ month ∧ month ≤ 12 ∧ 1 ≤ day ∧ day ≤ (monthLengths year).getD (month - 1) 0)
    ⟨fun ⟨h₁, h₂, h₃, h₄⟩ => ⟨h₁, h₂, h₃, h₄⟩, fun ⟨h₁, h₂, h₃, h₄⟩ => ⟨h₁, h₂, h₃, h₄⟩⟩

lemma eq_of_mem_step {count : Nat → Int} (hcount : ∀ {m n : Nat}, m ≤ n → count m ≤ count n)
    {m n : Nat} (x : Int) (hm : count m ≤ x) (hm' : x < count (m + 1)) (hn : count n ≤ x)
    (hn' : x < count (n + 1)) : m = n := by
  rcases Nat.lt_trichotomy m n with h | h | h
  · have : count (m + 1) ≤ count n := hcount h
    omega
  · exact h
  · have : count (n + 1) ≤ count m := hcount h
    omega

/-! ## Years -/

lemma isLeap_iff (year : Nat) : isLeap year = true ↔ 4 ∣ year ∧ (¬ 100 ∣ year ∨ 400 ∣ year) := by
  simp only [isLeap, Bool.and_eq_true, Bool.or_eq_true, beq_iff_eq, bne_iff_ne, ne_eq,
    Nat.dvd_iff_mod_eq_zero]

/-- From one year to the next `yearStart` grows by the days of the year. -/
lemma yearStart_succ (year : Nat) : yearStart (year + 1) = yearStart year + daysInYear year := by
  unfold yearStart daysInYear
  split
  case isTrue h =>
    have hleap := (isLeap_iff year).1 h
    push_cast
    omega
  case isFalse h =>
    have hcommon := mt (isLeap_iff year).2 h
    push_cast
    omega

lemma monotone_yearStart {later : Nat} (h : year ≤ later) : yearStart year ≤ yearStart later := by
  refine monotone_nat_of_le_succ (fun year => ?_) h
  rw [yearStart_succ]
  omega

/-- Taking away whole years keeps the count, so that `yearStart` counts the same day before and
after. -/
lemma yearOfDay_spec (first day : Nat) :
    first ≤ (yearOfDay first day).1 ∧ (yearOfDay first day).2 < daysInYear (yearOfDay first day).1 ∧
      yearStart (yearOfDay first day).1 + (yearOfDay first day).2 = yearStart first + day := by
  fun_induction yearOfDay first day with
  | case1 year day hlt => exact ⟨le_rfl, hlt, rfl⟩
  | case2 year day hge ih =>
    obtain ⟨hfirst, hrest, hcount⟩ := ih
    rw [yearStart_succ] at hcount
    exact ⟨by omega, hrest, by omega⟩

/-- The year that `yearOfDay` finds is the one in which `yearStart` puts the day. -/
theorem yearOfDay_eq_iff :
    yearOfDay first day = (year, rest) ↔
      first ≤ year ∧ rest < daysInYear year ∧ yearStart year + rest = yearStart first + day := by
  obtain ⟨hfirst, hrest, hcount⟩ := yearOfDay_spec first day
  constructor
  · intro h
    rw [h] at hfirst hrest hcount
    exact ⟨hfirst, hrest, hcount⟩
  · rintro ⟨-, hrest', hcount'⟩
    have hstep := yearStart_succ year
    have hstep' := yearStart_succ (yearOfDay first day).1
    have hyear : (yearOfDay first day).1 = year :=
      eq_of_mem_step monotone_yearStart (yearStart first + day) (by omega) (by omega)
        (by omega) (by omega)
    rw [hyear] at hcount
    exact Prod.ext hyear (by omega)

/-! ## Months -/

lemma daysInMonth_eq (year : Nat) (h : 1 ≤ month) (h' : month ≤ 12) :
    daysInMonth year month = (monthLengths year).getD (month - 1) 0 := by
  unfold daysInMonth monthLengths
  simp only [isLeap_iff]
  interval_cases month <;> simp

lemma daysInMonth_le (year month : Nat) : daysInMonth year month ≤ 31 := by
  unfold daysInMonth
  repeat' split
  all_goals decide

/-- From one month to the next `monthStart` grows by the days of the month. -/
lemma monthStart_succ (year : Nat) (h : 1 ≤ month) (h' : month ≤ 12) :
    monthStart year (month + 1) = monthStart year month + daysInMonth year month := by
  rw [daysInMonth_eq year h h', monthStart, monthStart]
  obtain ⟨m, rfl⟩ := Nat.exists_eq_add_of_le' h
  have hm : m < (monthLengths year).length := by
    show m < 12
    omega
  rw [Nat.add_sub_cancel, Nat.add_sub_cancel, List.sum_take_succ _ _ hm,
    List.getD_eq_getElem _ _ hm]

lemma monthStart_ends (year : Nat) :
    monthStart year 1 = 0 ∧ monthStart year 13 = daysInYear year := by
  refine ⟨rfl, ?_⟩
  unfold monthStart daysInYear monthLengths
  simp only [isLeap_iff]
  split <;> rfl

lemma monotone_monthStart (year : Nat) : Monotone (monthStart year) := by
  intro month later h
  have hsub : ((monthLengths year).take (month - 1)).Sublist
      ((monthLengths year).take (later - 1)) :=
    List.take_sublist_take_left (by omega)
  exact hsub.sum_le_sum (by simp)

/-- A day of a month is one of the year. -/
lemma monthStart_add_lt (h : 1 ≤ month) (h' : month ≤ 12) (hrest : rest < daysInMonth year month) :
    monthStart year month + rest < daysInYear year := by
  have hstep := monthStart_succ year h h'
  have hlast : monthStart year (month + 1) ≤ monthStart year 13 :=
    monotone_monthStart year (by omega)
  rw [(monthStart_ends year).2] at hlast
  omega

/-- A day of the year that comes after a month is counted from the next month on, since December
has room for what is left of the year. -/
lemma monthStart_next (h : 1 ≤ month) (h' : month ≤ 12)
    (hday : monthStart year month + day < daysInYear year) (hge : daysInMonth year month ≤ day) :
    month < 12 ∧ monthStart year (month + 1) + (day - daysInMonth year month)
      = monthStart year month + day := by
  have hstep := monthStart_succ year h h'
  have hmonth : month ≠ 12 := by
    -- behind December nothing is left of the year
    rintro rfl
    have hfull : monthStart year (12 + 1) = daysInYear year := (monthStart_ends year).2
    omega
  exact ⟨by omega, by omega⟩

/-- Taking away whole months keeps the count of `monthStart` and stops by December, if the day is
one of the year. -/
lemma monthOfDay_spec (year day : Nat) (h : 1 ≤ month) (h' : month ≤ 12)
    (hday : monthStart year month + day < daysInYear year) :
    let found := monthOfDay year month day
    (month ≤ found.1 ∧ found.1 ≤ 12) ∧ found.2 < daysInMonth year found.1 ∧
      monthStart year found.1 + found.2 = monthStart year month + day := by
  fun_induction monthOfDay year month day with
  | case1 month day hlt => exact ⟨⟨le_rfl, h'⟩, hlt, rfl⟩
  | case2 month day hge ih =>
    obtain ⟨hmonth, hnext⟩ := monthStart_next h h' hday (Nat.le_of_not_lt hge)
    obtain ⟨⟨hfirst, hlast⟩, hrest, hcount⟩ := ih (by omega) hmonth (by rwa [hnext])
    exact ⟨⟨by omega, hlast⟩, hrest, hcount.trans hnext⟩

/-- The month that `monthOfDay` finds is the one in which `monthStart` puts the day of the year. -/
theorem monthOfDay_eq_iff (hday : day < daysInYear year) :
    monthOfDay year 1 day = (month, rest) ↔
      (1 ≤ month ∧ month ≤ 12) ∧ rest < daysInMonth year month ∧
        monthStart year month + rest = day := by
  obtain ⟨hstart, -⟩ := monthStart_ends year
  obtain ⟨⟨hfirst, hlast⟩, hrest, hcount⟩ :=
    monthOfDay_spec year day le_rfl (by omega) (by omega)
  rw [hstart, Nat.zero_add] at hcount
  constructor
  · intro h
    rw [h] at hfirst hlast hrest hcount
    exact ⟨⟨hfirst, hlast⟩, hrest, hcount⟩
  · rintro ⟨⟨hfirst', hlast'⟩, hrest', hcount'⟩
    have hstep := monthStart_succ year hfirst' hlast'
    have hstep' := monthStart_succ year hfirst hlast
    -- both months hold the day, and the count of months grows
    have hmono {m n : Nat} (h : m ≤ n) : (monthStart year m : Int) ≤ monthStart year n :=
      Int.ofNat_le.2 (monotone_monthStart year h)
    have hmonth : (monthOfDay year 1 day).1 = month :=
      eq_of_mem_step hmono day (by omega) (by omega) (by omega) (by omega)
    rw [hmonth] at hcount
    exact Prod.ext hmonth (by omega)

end MiniShell.Calendar
