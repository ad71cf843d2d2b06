import MiniShell.Proofs.Calendar
import MiniShell.Timestamp

/-!
# Timestamps and the count of seconds

The fields of a moment and the seconds since the start of 1970 determine each other, in all the
years that a word of 16 bits holds. Words of that width for the year and of 8 bits for the other
fields are wide enough for the whole computation, and the first moment of 65536 is the first for
which they are not.

* `Timestamp.unixSeconds`: the seconds by the count of days;
* `Timestamp.ofUnixSecondsInWords`: the fields computed in words;
* `Timestamp.ofUnixSecondsInWords_eq`: when the words are wide enough.
-/

namespace MiniShell

namespace Calendar

variable {first year month day : Nat}

/-! ## Years and months in words -/

/-- A number, if a word of `width` bits holds it. -/
def fits? (width n : Nat) : Option Nat :=
  if n < 2 ^ width then some n else none

/-- Computes `yearOfDay` with the year in a word of 16 bits. Fails if it overflows. -/
def yearOfDayInWords (year day : Nat) : Option (Nat × Nat) :=
  if day < daysInYear year then some (year, day)
  else (fits? 16 (year + 1)).bind fun next => yearOfDayInWords next (day - daysInYear year)
termination_by day
decreasing_by
  have := daysInYear_pos year
  omega

/-- Computes `monthOfDay` with the month in a word of 8 bits. Fails if it overflows. -/
def monthOfDayInWords (year month day : Nat) : Option (Nat × Nat) :=
  if day < daysInMonth year month then some (month, day)
  else (fits? 8 (month + 1)).bind fun next =>
    monthOfDayInWords year next (day - daysInMonth year month)
termination_by day
decreasing_by
  have := daysInMonth_pos year month
  omega

lemma fits?_of_lt {width n : Nat} (h : n < 2 ^ width) : fits? width n = some n :=
  if_pos h

/-- The year of `yearOfDayInWords` overflows on the first day of 65536. -/
theorem yearOfDayInWords_eq (h : first ≤ 65535) (day : Nat) :
    yearOfDayInWords first day
      = if yearStart first + day < yearStart 65536 then some (yearOfDay first day) else none := by
  fun_induction yearOfDay first day with
  | case1 year day hlt =>
    have hstep := yearStart_succ year
    -- a day of this year comes before the start of 65536
    have hlast : yearStart (year + 1) ≤ yearStart 65536 := monotone_yearStart (by omega)
    rw [yearOfDayInWords, if_pos hlt, if_pos (by omega)]
  | case2 year day hge ih =>
    have hstep := yearStart_succ year
    rw [yearOfDayInWords, if_neg hge]
    by_cases hyear : year = 65535
    · subst hyear
      have hlast : yearStart 65536 = yearStart 65535 + daysInYear 65535 := hstep
      rw [if_neg (by omega)]
      rfl
    · rw [fits?_of_lt (by omega), Option.bind_some, ih (by omega)]
      have hcount : yearStart (year + 1) + ((day - daysInYear year : Nat) : Int)
          = yearStart year + day := by
        omega
      rw [hcount]

/-- The month of `monthOfDayInWords` never overflows. -/
theorem monthOfDayInWords_eq (h : 1 ≤ month) (h' : month ≤ 12)
    (hday : monthStart year month + day < daysInYear year) :
    monthOfDayInWords year month day = some (monthOfDay year month day) := by
  fun_induction monthOfDay year month day with
  | case1 month day hlt => rw [monthOfDayInWords, if_pos hlt]
  | case2 month day hge ih =>
    obtain ⟨hmonth, hnext⟩ := monthStart_next h h' hday (Nat.le_of_not_lt hge)
    rw [monthOfDayInWords, if_neg hge, fits?_of_lt (by omega), Option.bind_some,
      ih (by omega) hmonth (by rwa [hnext])]

end Calendar

namespace Timestamp

open Calendar

variable {seconds year dayOfYear month dayOfMonth : Nat} {t : Timestamp}

/-- Are the fields an `IsDate` from 1970 on and a time of day? -/
structure IsCivil (t : Timestamp) : Prop where
  year_ge : 1970 ≤ t.year
  date : IsDate t.year t.month t.day
  hour_lt : t.hour < 24
  minute_lt : t.minute < 60
  second_lt : t.second < 60

instance (t : Timestamp) : Decidable t.IsCivil :=
  decidable_of_iff
    (1970 ≤ t.year ∧ IsDate t.year t.month t.day ∧ t.hour < 24 ∧ t.minute < 60 ∧ t.second < 60)
    ⟨fun ⟨h₁, h₂, h₃, h₄, h₅⟩ => ⟨h₁, h₂, h₃, h₄, h₅⟩,
      fun ⟨h₁, h₂, h₃, h₄, h₅⟩ => ⟨h₁, h₂, h₃, h₄, h₅⟩⟩

/-- The seconds from the start of 1970 to a moment, by `dayNumber`. -/
def unixSeconds (t : Timestamp) : Int :=
  86400 * dayNumber t.year t.month t.day + 3600 * t.hour + 60 * t.minute + t.second

/-- Computes `ofUnixSeconds` in words, of 16 bits for the year and of 8 bits for the other fields.
Fails if a word overflows or is too narrow for what is put into it. -/
def ofUnixSecondsInWords (seconds : Nat) : Option Timestamp := do
  let days := seconds / 86400
  let rest := seconds % 86400
  let (year, dayOfYear) ← yearOfDayInWords 1970 days
  let (month, dayOfMonth) ← monthOfDayInWords year 1 dayOfYear
  let before ← fits? 8 dayOfMonth
  let day ← fits? 8 (before + 1)
  let hour ← fits? 8 (rest / 3600)
  let minute ← fits? 8 (rest % 3600 / 60)
  let second ← fits? 8 (rest % 60)
  pure { year, month, day, hour, minute, second, weekday := .ofDay days }

lemma yearStart_1970 : yearStart 1970 = 0 := by decide

/-- The fields of a moment, once `yearOfDay` and `monthOfDay` have found its year and its month. -/
lemma ofUnixSeconds_of_found (hyear : yearOfDay 1970 (seconds / 86400) = (year, dayOfYear))
    (hmonth : monthOfDay year 1 dayOfYear = (month, dayOfMonth)) :
    ofUnixSeconds seconds
      = { year
          month
          day := dayOfMonth + 1
          hour := seconds % 86400 / 3600
          minute := seconds % 86400 % 3600 / 60
          second := seconds % 86400 % 60
          weekday := .ofDay (seconds / 86400) } := by
  simp only [ofUnixSeconds, hyear, hmonth]

lemma exists_found (seconds : Nat) :
    ∃ year dayOfYear month dayOfMonth, yearOfDay 1970 (seconds / 86400) = (year, dayOfYear) ∧
      monthOfDay year 1 dayOfYear = (month, dayOfMonth) :=
  ⟨_, _, _, _, rfl, rfl⟩

/-- The fields that `ofUnixSeconds` gives are the date and the time of day that count the seconds.
-/
theorem ofUnixSeconds_eq_iff :
    ofUnixSeconds seconds = t ↔
      t.IsCivil ∧ t.unixSeconds = seconds ∧ t.weekday = .ofDay (seconds / 86400) := by
  constructor
  · -- the year and the month that are found bound the day, and the sums add up to the seconds
    rintro rfl
    obtain ⟨year, dayOfYear, month, dayOfMonth, hyear, hmonth⟩ := exists_found seconds
    obtain ⟨hfirst, hday, hcount⟩ := yearOfDay_eq_iff.1 hyear
    obtain ⟨hrange, hrest, hsum⟩ := (monthOfDay_eq_iff hday).1 hmonth
    have hlength := daysInMonth_eq year hrange.1 hrange.2
    rw [yearStart_1970, Int.zero_add] at hcount
    rw [ofUnixSeconds_of_found hyear hmonth]
    refine ⟨⟨hfirst, ⟨hrange.1, hrange.2, ?_, ?_⟩, ?_, ?_, ?_⟩, ?_, rfl⟩
    all_goals simp only [unixSeconds, dayNumber]
    all_goals omega
  · rintro ⟨⟨hfirst, ⟨hmonth, hmonth', hday, hday'⟩, hhour, hminute, hsecond⟩, hcount, hweekday⟩
    rw [← daysInMonth_eq t.year hmonth hmonth'] at hday'
    simp only [unixSeconds, dayNumber] at hcount
    -- the count of the fields determines the year, and what is left of it the month
    have hinYear : monthStart t.year t.month + (t.day - 1) < daysInYear t.year :=
      monthStart_add_lt hmonth hmonth' (by omega)
    have hyear : yearOfDay 1970 (seconds / 86400)
        = (t.year, monthStart t.year t.month + (t.day - 1)) := by
      refine yearOfDay_eq_iff.2 ⟨hfirst, hinYear, ?_⟩
      rw [yearStart_1970]
      omega
    have hmonthDay : monthOfDay t.year 1 (monthStart t.year t.month + (t.day - 1))
        = (t.month, t.day - 1) :=
      (monthOfDay_eq_iff hinYear).2 ⟨⟨hmonth, hmonth'⟩, by omega, rfl⟩
    rw [ofUnixSeconds_of_found hyear hmonthDay, ← hweekday]
    -- the rest of the day is split as the seconds are
    have hdayBack : t.day - 1 + 1 = t.day := by omega
    have hhourBack : seconds % 86400 / 3600 = t.hour := by omega
    have hminuteBack : seconds % 86400 % 3600 / 60 = t.minute := by omega
    have hsecondBack : seconds % 86400 % 60 = t.second := by omega
    rw [hdayBack, hhourBack, hminuteBack, hsecondBack]

lemma ofUnixSeconds_spec (seconds : Nat) :
    (ofUnixSeconds seconds).IsCivil ∧ (ofUnixSeconds seconds).unixSeconds = seconds ∧
      (ofUnixSeconds seconds).weekday = .ofDay (seconds / 86400) :=
  ofUnixSeconds_eq_iff.1 rfl

/-- The words of `ofUnixSecondsInWords` are wide enough for all moments before 65536, and for no
others. -/
theorem ofUnixSecondsInWords_eq (seconds : Nat) :
    ofUnixSecondsInWords seconds
      = if ((seconds / 86400 : Nat) : Int) < yearStart 65536 then some (ofUnixSeconds seconds)
        else none := by
  have hyears := yearOfDayInWords_eq (by omega : 1970 ≤ 65535) (seconds / 86400)
  rw [yearStart_1970, Int.zero_add] at hyears
  unfold ofUnixSecondsInWords
  split
  case isTrue hlt =>
    rw [if_pos hlt] at hyears
    obtain ⟨year, dayOfYear, month, dayOfMonth, hyear, hmonth⟩ := exists_found seconds
    obtain ⟨-, hday, -⟩ := yearOfDay_eq_iff.1 hyear
    obtain ⟨hrange, hrest, -⟩ := (monthOfDay_eq_iff hday).1 hmonth
    -- the months of a year are far below the limit of their word
    have hmonths : monthOfDayInWords year 1 dayOfYear = some (month, dayOfMonth) := by
      rw [monthOfDayInWords_eq le_rfl (by omega) (by rw [(monthStart_ends year).1]; omega), hmonth]
    have hshort := daysInMonth_le year month
    rw [ofUnixSeconds_of_found hyear hmonth]
    simp only [hyears, hyear, hmonths, Option.bind_eq_bind, Option.bind_some]
    -- day, hour, minute and second are each bounded by a number below 256
    rw [fits?_of_lt (by omega), Option.bind_some, fits?_of_lt (by omega), Option.bind_some,
      fits?_of_lt (by omega), Option.bind_some, fits?_of_lt (by omega), Option.bind_some,
      fits?_of_lt (by omega), Option.bind_some]
    rfl
  case isFalse hge =>
    rw [if_neg hge] at hyears
    simp only [hyears]
    rfl

lemma ofUnixSecondsInWords_of_year_le (h : (ofUnixSeconds seconds).year ≤ 65535) :
    ofUnixSecondsInWords seconds = some (ofUnixSeconds seconds) := by
  obtain ⟨year, dayOfYear, month, dayOfMonth, hyear, hmonth⟩ := exists_found seconds
  obtain ⟨-, hday, hcount⟩ := yearOfDay_eq_iff.1 hyear
  rw [ofUnixSeconds_of_found hyear hmonth] at h
  have hlast : yearStart (year + 1) ≤ yearStart 65536 := monotone_yearStart (Nat.succ_le_succ h)
  rw [yearStart_succ] at hlast
  rw [yearStart_1970, Int.zero_add] at hcount
  rw [ofUnixSecondsInWords_eq, if_pos (by omega)]

/-- **Moments and their fields.** Every moment before 65536 has a date and a time of day, found by
`ofUnixSecondsInWords` without overflow, and its seconds are those that the date and the time of day
count. Every date in the years 1970 to 65535 and every time of day are the fields of the moment that
they count. -/
theorem unixSeconds_ofUnixSeconds :
    (∀ seconds : Nat, ((seconds / 86400 : Nat) : Int) < dayNumber 65536 1 1 →
      let t := ofUnixSeconds seconds
      t.IsCivil ∧ t.year ≤ 65535 ∧ ofUnixSecondsInWords seconds = some t ∧
        t.unixSeconds = seconds) ∧
    ∀ t : Timestamp, t.IsCivil → t.year ≤ 65535 →
      ∃ seconds : Nat, (seconds : Int) = t.unixSeconds ∧
        ofUnixSeconds seconds = { t with weekday := .ofDay (seconds / 86400) } := by
  refine ⟨fun seconds hlt => ?_, fun t hcivil hyear => ?_⟩
  · have hstart : dayNumber 65536 1 1 = yearStart 65536 := by decide
    rw [hstart] at hlt
    obtain ⟨hcivil, hcount, -⟩ := ofUnixSeconds_eq_iff.1 (rfl : ofUnixSeconds seconds = _)
    refine ⟨hcivil, ?_, ?_, hcount⟩
    · -- a later year would start after the seconds that its fields count
      by_contra hlate
      have hlater : yearStart 65536 ≤ yearStart (ofUnixSeconds seconds).year :=
        monotone_yearStart (by omega)
      have hday := hcivil.date.one_le_day
      simp only [unixSeconds, dayNumber] at hcount
      omega
    · rw [ofUnixSecondsInWords_eq, if_pos hlt]
  · have hfirst : yearStart 1970 ≤ yearStart t.year := monotone_yearStart hcivil.year_ge
    have hday := hcivil.date.one_le_day
    -- from 1970 on the count is not negative
    have hpos : 0 ≤ t.unixSeconds := by
      rw [yearStart_1970] at hfirst
      simp only [unixSeconds, dayNumber]
      omega
    obtain ⟨seconds, hseconds⟩ := Int.eq_ofNat_of_zero_le hpos
    refine ⟨seconds, hseconds.symm, ofUnixSeconds_eq_iff.2 ⟨?_, hseconds, rfl⟩⟩
    exact ⟨hcivil.year_ge, hcivil.date, hcivil.hour_lt, hcivil.minute_lt, hcivil.second_lt⟩

/-- The last second before 65536 is a moment with fields, and the last second of a leap day in a
full century is the fields of one. -/
theorem unixSeconds_ofUnixSeconds_ends :
    let leap : Timestamp :=
      { year := 2000, month := 2, day := 29, hour := 23, minute := 59, second := 59
        weekday := .tuesday }
    ((2005949145599 / 86400 : Nat) : Int) < dayNumber 65536 1 1 ∧
      (ofUnixSeconds 2005949145599).unixSeconds = 2005949145599 ∧
      leap.IsCivil ∧ leap.year ≤ 65535 ∧
      ∃ seconds : Nat, (seconds : Int) = leap.unixSeconds ∧
        ofUnixSeconds seconds = { leap with weekday := .ofDay (seconds / 86400) } := by
  intro leap
  obtain ⟨hmoment, hfields⟩ := unixSeconds_ofUnixSeconds
  have hlt : ((2005949145599 / 86400 : Nat) : Int) < dayNumber 65536 1 1 := by decide
  have hleap : leap.IsCivil :=
    ⟨by decide, ⟨by decide, by decide, by decide, by decide⟩, by decide, by decide, by decide⟩
  exact ⟨hlt, (hmoment _ hlt).2.2.2, hleap, by decide, hfields leap hleap (by decide)⟩

end Timestamp

end MiniShell
