import MiniShell.Proofs.Text.Words
import MiniShell.Proofs.Timestamp

/-!
# Reading a moment back

The line that shows a moment holds all its fields. It is read back by its words: the fifth is the
same for every moment, the fourth has its three parts between colons, and each of the others is one
field. The blank in front of a day of one digit only makes the gap before that word wider. As the
fields count the seconds, no two moments have the same line.

* `Timestamp.ofText?`, `Timestamp.secondsOfText?`: the reader;
* `Timestamp.ofText?_text`: it reads what is written.
-/

namespace MiniShell

namespace Text

variable {width n : Nat} {c : Char}

/-! ## Numbers -/

/-- The number that a text of digits writes. -/
def number? (text : String) : Option Nat :=
  if text ≠ "" ∧ text.toList.all Char.isDigit then some (Nat.ofDigitChars 10 text.toList 0)
  else none

lemma toList_padLeft_zero (width n : Nat) :
    (padLeft width '0' (toString n)).toList
      = List.replicate (width - (toString n).length) '0' ++ Nat.toDigits 10 n := by
  rw [padLeft, String.toList_append, String.toList_ofList, Nat.toString_eq_ofList_toDigits,
    String.toList_ofList]

/-- All of a number that `padLeft` puts zeros in front of is digits. -/
lemma isDigit_of_mem_padLeft (h : c ∈ (padLeft width '0' (toString n)).toList) :
    c.isDigit = true := by
  rw [toList_padLeft_zero, List.mem_append] at h
  rcases h with hzero | hdigit
  · rw [List.eq_of_mem_replicate hzero]
    rfl
  · exact Nat.isDigit_of_mem_toDigits (by decide) (by decide) hdigit

lemma padLeft_ne_empty (width n : Nat) : padLeft width '0' (toString n) ≠ "" := by
  intro hempty
  have hlist := toList_padLeft_zero width n
  rw [hempty] at hlist
  exact Nat.toDigits_ne_nil (List.append_eq_nil_iff.1 hlist.symm).2

/-- Zeros that `padLeft` puts in front of a number do not change what `number?` reads. -/
theorem number?_padLeft (width n : Nat) : number? (padLeft width '0' (toString n)) = some n := by
  have hdigits : (padLeft width '0' (toString n)).toList.all Char.isDigit = true :=
    List.all_eq_true.2 fun _ => isDigit_of_mem_padLeft
  rw [number?, if_pos ⟨padLeft_ne_empty width n, hdigits⟩, toList_padLeft_zero,
    Nat.ofDigitChars_append, Nat.ofDigitChars_replicate_zero, Nat.mul_zero,
    Nat.ofDigitChars_ten_toDigits]

lemma padLeft_zero (fill : Char) (text : String) : padLeft 0 fill text = text := by
  rw [padLeft, Nat.zero_sub, List.replicate_zero, String.ofList_nil, String.empty_append]

lemma number?_toString (n : Nat) : number? (toString n) = some n := by
  rw [← padLeft_zero '0' (toString n), number?_padLeft]

lemma isBlank_of_isDigit (h : c.isDigit = true) : isBlank c = false := by
  have hrange : 48 ≤ c.toNat ∧ c.toNat ≤ 57 := by
    simpa using Char.isDigit_iff_toNat.1 h
  simp only [isBlank, Bool.or_eq_false_iff, Bool.and_eq_false_imp, decide_eq_true_eq,
    decide_eq_false_iff_not, beq_eq_false_iff_ne]
  omega

end Text

namespace Timestamp

open Calendar Text

variable {t : Timestamp}

/-! ## The reader -/

/-- The weekday whose `abbreviation` is given. -/
def weekdayOfName? (name : String) : Option Weekday :=
  Weekday.all.find? (·.abbreviation == name)

/-- The month whose `monthName` is given, counted from 1. -/
def monthOfName? (name : String) : Option Nat :=
  (monthNames.idxOf? name).map (· + 1)

/-- The hour, the minute and the second of a time of day with colons between them. -/
def clockOfText? (text : String) : Option (Nat × Nat × Nat) := do
  let [hour, minute, second] := text.toList.splitOn ':' | none
  pure (← number? (String.ofList hour), ← number? (String.ofList minute),
    ← number? (String.ofList second))

/-- The fields of the moment that a line shows, one from each of its `words`. -/
def ofText? (text : String) : Option Timestamp := do
  let [weekday, month, day, clock, zone, year] := words text | none
  guard (zone = "UTC")
  let (hour, minute, second) ← clockOfText? clock
  pure {
    year := ← number? year
    month := ← monthOfName? month
    day := ← number? day
    hour, minute, second
    weekday := ← weekdayOfName? weekday }

/-- The `unixSeconds` of the moment that a line shows. -/
def secondsOfText? (text : String) : Option Nat :=
  (ofText? text).map fun t => t.unixSeconds.toNat

/-! ## The parts of the line -/

def clock (t : Timestamp) : String :=
  twoDigits t.hour ++ ":" ++ twoDigits t.minute ++ ":" ++ twoDigits t.second

/-- The `text` of a moment is made of its words and the gaps between them. -/
lemma text_eq (t : Timestamp) :
    t.text = t.weekday.abbreviation ++ " " ++ monthName t.month ++ " " ++ alignRight 2 t.day ++ " "
      ++ t.clock ++ " " ++ "UTC" ++ " " ++ toString t.year := by
  have hzone : " UTC " = " " ++ "UTC" ++ " " := by decide
  simp only [text, clock, hzone, String.append_assoc]

lemma words_toString (n : Nat) : words (toString n) = [toString n] := by
  rw [← padLeft_zero '0' (toString n)]
  exact words_of_no_blank (padLeft_ne_empty 0 n) fun _ hc =>
    isBlank_of_isDigit (isDigit_of_mem_padLeft hc)

/-- A number that `alignRight` aligned is one word, behind blanks. -/
lemma words_alignRight (width n : Nat) : words (alignRight width n) = [toString n] := by
  have hblank : IsBlank (String.ofList (List.replicate (width - (toString n).length) ' ')) := by
    intro c hc
    rw [String.toList_ofList] at hc
    rw [List.eq_of_mem_replicate hc]
    rfl
  rw [alignRight, padLeft, words_blank_append hblank, words_toString]

lemma toList_clock (t : Timestamp) :
    t.clock.toList = (twoDigits t.hour).toList ++ ':' :: ((twoDigits t.minute).toList
      ++ ':' :: (twoDigits t.second).toList) := by
  simp [clock]

lemma words_clock (t : Timestamp) : words t.clock = [t.clock] := by
  have hlist := toList_clock t
  refine words_of_no_blank (fun hempty => ?_) fun c hc => ?_
  · rw [hempty] at hlist
    simp at hlist
  · rw [hlist] at hc
    simp only [List.mem_append, List.mem_cons] at hc
    rcases hc with hdigit | rfl | hdigit | rfl | hdigit
    · exact isBlank_of_isDigit (isDigit_of_mem_padLeft hdigit)
    · rfl
    · exact isBlank_of_isDigit (isDigit_of_mem_padLeft hdigit)
    · rfl
    · exact isBlank_of_isDigit (isDigit_of_mem_padLeft hdigit)

/-- The `words` of a moment's `text` are the fields, the day without the blank that aligns it. -/
lemma words_text (h : 1 ≤ t.month) (h' : t.month ≤ 12) :
    words t.text = [t.weekday.abbreviation, monthName t.month, toString t.day, t.clock, "UTC",
      toString t.year] := by
  have hweekday : words t.weekday.abbreviation = [t.weekday.abbreviation] := by
    cases t.weekday <;> decide
  have hmonth : words (monthName t.month) = [monthName t.month] := by
    generalize t.month = month at h h'
    interval_cases month <;> decide
  have hzone : words "UTC" = ["UTC"] := by decide
  rw [text_eq]
  simp only [words_append_blank, hweekday, hmonth, words_alignRight, words_clock, hzone,
    words_toString, List.cons_append, List.nil_append]

/-! ## Reading the parts -/

lemma splitOn_twoDigits (n : Nat) :
    (twoDigits n).toList.splitOn ':' = [(twoDigits n).toList] :=
  List.splitOn_eq_singleton fun hcolon => absurd (isDigit_of_mem_padLeft hcolon) (by decide)

/-- What `clock` writes, `clockOfText?` reads back. -/
lemma clockOfText?_clock (t : Timestamp) :
    clockOfText? t.clock = some (t.hour, t.minute, t.second) := by
  have hparts : t.clock.toList.splitOn ':'
      = [(twoDigits t.hour).toList, (twoDigits t.minute).toList, (twoDigits t.second).toList] := by
    rw [toList_clock, List.splitOn_append_cons_self, List.splitOn_append_cons_self,
      splitOn_twoDigits, splitOn_twoDigits, splitOn_twoDigits]
    rfl
  simp only [clockOfText?, hparts, String.ofList_toList, twoDigits, number?_padLeft]
  rfl

/-- The name of a month is read back, if the month has one of its own in `monthNames`. -/
lemma monthOfName?_monthName {month : Nat} (h : 1 ≤ month) (h' : month ≤ 12) :
    monthOfName? (monthName month) = some month := by
  interval_cases month <;> decide

lemma weekdayOfName?_abbreviation (weekday : Weekday) :
    weekdayOfName? weekday.abbreviation = some weekday := by
  cases weekday <;> decide

/-- All fields are read back by `ofText?` from what `text` writes. -/
theorem ofText?_text (h : 1 ≤ t.month) (h' : t.month ≤ 12) : ofText? t.text = some t := by
  simp only [ofText?, words_text h h', clockOfText?_clock, number?_toString,
    monthOfName?_monthName h h', weekdayOfName?_abbreviation]
  rfl

lemma secondsOfText?_text (seconds : Nat) :
    secondsOfText? (ofUnixSeconds seconds).text = some seconds := by
  obtain ⟨hcivil, hcount, -⟩ := ofUnixSeconds_spec seconds
  rw [secondsOfText?, ofText?_text hcivil.date.one_le_month hcivil.date.month_le, Option.map_some,
    hcount, Int.toNat_natCast]

/-- **The line identifies the second.** The `text` of every moment with a year of 16 bits is read
back by `secondsOfText?` as the seconds of the moment, and no two moments have the same line. -/
theorem text_ofUnixSeconds_injective :
    (∀ seconds : Nat, (ofUnixSeconds seconds).year ≤ 65535 →
      let t := ofUnixSeconds seconds
      ofUnixSecondsInWords seconds = some t ∧ secondsOfText? t.text = some seconds) ∧
    ∀ a b : Nat, (ofUnixSeconds a).text = (ofUnixSeconds b).text → a = b := by
  refine ⟨fun seconds hyear => ?_, fun a b htext => ?_⟩
  · exact ⟨ofUnixSecondsInWords_of_year_le hyear, secondsOfText?_text seconds⟩
  · have hread := secondsOfText?_text a
    rw [htext, secondsOfText?_text] at hread
    exact (Option.some.inj hread).symm

/-- The line of the first second of 2000, with its day of one digit, is that of no other second. -/
theorem text_ofUnixSeconds_injective_2000 :
    (ofUnixSeconds 946684800).year ≤ 65535 ∧
      secondsOfText? "Sat Jan  1 00:00:00 UTC 2000" = some 946684800 ∧
      ∀ seconds : Nat, (ofUnixSeconds seconds).text = "Sat Jan  1 00:00:00 UTC 2000" →
        seconds = 946684800 := by
  obtain ⟨hread, hinjective⟩ := text_ofUnixSeconds_injective
  have hfields : ofUnixSeconds 946684800
      = { year := 2000, month := 1, day := 1, hour := 0, minute := 0, second := 0
          weekday := .saturday } :=
    ofUnixSeconds_eq_iff.2 (by decide)
  have hyear : (ofUnixSeconds 946684800).year ≤ 65535 := by
    rw [hfields]
    decide
  have htext : (ofUnixSeconds 946684800).text = "Sat Jan  1 00:00:00 UTC 2000" := by
    rw [hfields]
    decide
  refine ⟨hyear, ?_, fun seconds hsame => hinjective _ _ (hsame.trans htext.symm)⟩
  rw [← htext]
  exact (hread _ hyear).2

end Timestamp

end MiniShell
