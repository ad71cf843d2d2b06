import MiniShell.Proofs.Builtin.Failing
import MiniShell.Proofs.Session.Run
import MiniShell.Proofs.Text.Words

/-!
# What a failed line leaves behind

A line whose command fails shows one diagnostic and is kept like any other line: in a block of the
transcript and in the history. Nothing else comes of it.

* `entries_submit_of_words`: what a line with words adds to the history, failed or not;
* `submit_of_error`: all that a failed line does.
-/

namespace MiniShell.Session

variable {machine : Machine} {session : Session} {line name : String} {arguments : List String}
  {e : ShellError}

/-- A line with words is recorded by `submit` without the blanks around it, unless that repeats the
newest entry. -/
lemma entries_submit_of_words (hwords : Text.words line ≠ []) (machine : Machine)
    (session : Session) :
    (session.submit machine line).1.history.entries
      = session.history.entries
        ++ if session.history.entries.getLast? = some (Text.trim line) then []
          else [Text.trim line] := by
  have htrim : Text.trim line ≠ "" := by
    rw [ne_eq, Text.trim_eq_empty_iff, ← Text.words_eq_nil_iff]
    exact hwords
  rw [history_submit, History.entries_record, History.accepts]
  by_cases hrepeat : session.history.entries.getLast? = some (Text.trim line)
  · simp [hrepeat]
  · simp [hrepeat, htrim]

/-- What is recorded of a line depends on nothing but the line under `Text.trim` and the entries
before. -/
lemma history_submit_congr {other : Session} {typed : String}
    (hentries : session.history.entries = other.history.entries)
    (htrim : Text.trim line = Text.trim typed) (machine machine' : Machine) :
    (session.submit machine line).1.history = (other.submit machine' typed).1.history := by
  rw [history_submit, history_submit, htrim, History.record_congr hentries]

lemma style_of_mem_error {text : String} {span : Span} (h : span ∈ (Line.error text).spans) :
    span.style = .error := by
  unfold Line.error Line.styled Line.push at h
  split at h
  · nomatch h
  · obtain rfl := List.mem_singleton.1 h
    rfl

lemma text_error (text : String) : (Line.error text).text = text := by
  rw [Line.error, Line.styled, Line.text_push, Line.empty]
  exact String.empty_append

/-- **Failures are contained.** On any machine, a line whose command fails shows exactly one line,
which is the text of the error as a diagnostic. The working directory, the line being typed and the
blocks of the transcript stay as they are. One block is added to them, and the line is recorded as
it would be in any session with the same entries and on any machine, where it may well succeed. It
`Fails` in one of the ways in which commands fail. -/
theorem submit_of_error (machine : Machine) (session : Session) (line name : String)
    (arguments : List String) (e : ShellError) (hwords : Text.words line = name :: arguments)
    (hfails : (Builtin.registry.runCommand name arguments (session.environment machine)).result
      = .error e) :
    let after := (session.submit machine line).1
    let shown : Line := .error e.text
    (session.submit machine line).2 = [shown] ∧ shown.text = e.text ∧
      (∀ span ∈ shown.spans, span.style = .error) ∧
      after.cwd = session.cwd ∧ after.input = session.input ∧
      after.transcript = session.transcript
        ++ [{ echo := some { prompt := session.prompt machine.config, command := line }
              lines := [shown] }] ∧
      after.history.entries = session.history.entries
        ++ (if session.history.entries.getLast? = some (Text.trim line) then []
            else [Text.trim line]) ∧
      (∀ (machine' : Machine) (other : Session) (typed : String),
        other.history.entries = session.history.entries → Text.trim typed = Text.trim line →
        (other.submit machine' typed).1.history = after.history) ∧
      Builtin.Fails (session.environment machine) name arguments e := by
  intro after shown
  -- all that the session keeps can be read off what the line did
  have hrun : Builtin.registry.runLine line (session.environment machine)
      = (.lines [.error e.text], session.cwd) :=
    Builtin.runLine_of_error hwords hfails
  refine ⟨?_, text_error _, fun span hspan => style_of_mem_error hspan, ?_, rfl, ?_,
    entries_submit_of_words (by simp [hwords]) machine session, ?_,
    Builtin.result_runCommand_eq_error_iff.1 hfails⟩
  · rw [shown_submit, hrun]
    rfl
  · rw [cwd_submit, hrun]
  · rw [transcript_submit, hrun]
    rfl
  · intro machine' other typed hentries htrim
    exact history_submit_congr hentries htrim machine' machine

/-- A clock that fails while something else is being typed, asked by the line that was recorded last
but with a blank in front. -/
theorem submit_of_error_clock :
    let machine : Machine :=
      { config := { user := "u", host := "h", home := "/" }
        tree := .empty
        clock := .error (.io "gone") }
    let session : Session :=
      { cwd := "/", transcript := [], history := { entries := ["date now"] }, input := "dat" }
    let after := (session.submit machine " date now").1
    let shown : Line := ⟨[⟨"I/O error: gone", .error⟩]⟩
    Text.words " date now" = ["date", "now"] ∧
      (Builtin.registry.runCommand "date" ["now"] (session.environment machine)).result
        = .error (.io "gone") ∧
      (session.submit machine " date now").2 = [shown] ∧
      after.cwd = "/" ∧ after.input = "dat" ∧
      after.transcript
        = [{ echo := some { prompt := ⟨"u", "h", "~"⟩, command := " date now" }
             lines := [shown] }] ∧
      after.history.entries = ["date now"] := by
  intro machine session after shown
  have hwords : Text.words " date now" = ["date", "now"] := by decide +kernel
  have hfails : (Builtin.registry.runCommand "date" ["now"] (session.environment machine)).result
      = .error (.io "gone") :=
    Builtin.result_runCommand_eq_error_iff.2 (.timeless rfl ["now"])
  obtain ⟨hshown, -, -, hcwd, hinput, htranscript, hentries, -⟩ :=
    submit_of_error machine session " date now" "date" ["now"] (.io "gone") hwords hfails
  exact ⟨hwords, hfails, hshown.trans (by decide +kernel), hcwd, hinput,
    htranscript.trans (by decide +kernel), hentries.trans (by decide +kernel)⟩

end MiniShell.Session
