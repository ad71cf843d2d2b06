import Mathlib.Tactic.Lemma
import MiniShell.History
import MiniShell.Text.Blank

/-!
# The entries of a history and its cursor

The cursor is for recalling only: what becomes of the entries never depends on it, and recording
or giving up a walk puts it past the last entry. The entries themselves are the lines recorded,
without blank ones and without repeats.

* `ofLines`: the entries of given lines;
* `entries_record_of_eq_ofLines`: recording makes the entries of one line more.
-/

namespace MiniShell.History

variable {history other : History}

@[simp] theorem entries_stepBack : history.stepBack.1.entries = history.entries := by
  unfold stepBack
  split <;> rfl

@[simp] theorem entries_stepForward : history.stepForward.1.entries = history.entries := by
  unfold stepForward
  split <;> rfl

/-- What `record` makes of a history is up to its entries, not to its cursor. -/
theorem record_congr (h : history.entries = other.entries) (command : String) :
    history.record command = other.record command := by
  have haccepts : history.accepts command = other.accepts command := by
    rw [accepts, accepts, h]
  have hend : history.endWalk = other.endWalk := by
    rw [endWalk, endWalk, h]
  rw [record, record, haccepts, hend]
  split
  · rw [endWalk, endWalk, h]
  · rfl

theorem cursor_record (command : String) :
    (history.record command).cursor = (history.record command).entries.length := by
  unfold record
  split <;> rfl

/-! ## Entries of lines -/

/-- The elements of a list that differ from the one right before them, where `before` is what
stands before the first one. -/
def dropRepeats (before : Option String) : List String → List String
  | [] => []
  | entry :: rest =>
    if before = some entry then dropRepeats (some entry) rest
    else entry :: dropRepeats (some entry) rest

/-- The entries of submitted lines: the lines as `Text.trim` leaves them, except those of which
nothing is left and then those that `dropRepeats` drops. -/
def ofLines (lines : List String) : List String :=
  dropRepeats none ((lines.map Text.trim).filter (· ≠ ""))

lemma getLast?_cons_or (before : Option String) (first : String) (rest : List String) :
    (first :: rest).getLast?.or before = rest.getLast?.or (some first) := by
  cases rest <;> simp [List.getLast?_cons]

/-- Of a list with one element more, `dropRepeats` keeps that element unless it repeats the one
before. -/
lemma dropRepeats_concat (before : Option String) (entries : List String) (entry : String) :
    dropRepeats before (entries ++ [entry])
      = dropRepeats before entries
        ++ if entries.getLast?.or before = some entry then [] else [entry] := by
  induction entries generalizing before with
  | nil => by_cases h : before = some entry <;> simp [dropRepeats, h]
  | cons first rest ih =>
    rw [List.cons_append, dropRepeats, dropRepeats, ih, getLast?_cons_or]
    split <;> rfl

/-- The last element that `dropRepeats` keeps equals the last one. -/
lemma getLast?_dropRepeats (before : Option String) (entries : List String) :
    (dropRepeats before entries).getLast?.or before = entries.getLast?.or before := by
  induction entries generalizing before with
  | nil => rfl
  | cons first rest ih =>
    rw [dropRepeats, getLast?_cons_or]
    split
    case isTrue h => rw [h, ih]
    case isFalse h => rw [getLast?_cons_or, ih]

/-- The entries after `record` are longer by the command, if it is one that `accepts` takes. -/
lemma entries_record (command : String) :
    (history.record command).entries
      = history.entries ++ if history.accepts command then [command] else [] := by
  unfold record
  split
  · rfl
  · exact (List.append_nil _).symm

/-- From the entries that `ofLines` gives, recording a line makes those of one line more. -/
theorem entries_record_of_eq_ofLines {lines : List String} (h : history.entries = ofLines lines)
    (line : String) : (history.record (Text.trim line)).entries = ofLines (lines ++ [line]) := by
  rw [entries_record, accepts, h, ofLines, ofLines, List.map_append, List.filter_append]
  generalize (lines.map Text.trim).filter (· ≠ "") = kept
  -- the newest entry is the last line kept, so comparing with either is the same
  have hlast := getLast?_dropRepeats none kept
  rw [Option.or_none, Option.or_none] at hlast
  rw [hlast]
  by_cases hblank : Text.trim line = ""
  · simp [hblank]
  · have hfilter : ([line].map Text.trim).filter (· ≠ "") = [Text.trim line] := by
      simp [hblank]
    rw [hfilter, dropRepeats_concat, Option.or_none]
    by_cases hrepeat : kept.getLast? = some (Text.trim line)
    · simp [hrepeat]
    · simp [hrepeat, hblank]

end MiniShell.History
