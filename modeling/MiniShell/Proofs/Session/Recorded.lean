import MiniShell.Proofs.Builtin
import MiniShell.Proofs.Session.Run

/-!
# What a session records

The history of a session is made of the lines submitted to it, however they were submitted and
whatever became of them, and `history` shows it as it was before that very line.

* `entries_run`: the history after a run;
* `submit_history`: what `history` shows.
-/

namespace MiniShell.Session

variable {machine : Machine} {session : Session} {line : String}

/-- From the entries that `History.ofLines` gives, submitting a line makes those of one line more.
-/
lemma entries_submit {lines : List String} (h : session.history.entries = History.ofLines lines)
    (machine : Machine) (line : String) :
    (session.submit machine line).1.history.entries = History.ofLines (lines ++ [line]) :=
  History.entries_record_of_eq_ofLines h line

/-- A run records its `submissions`. -/
lemma entries_run {lines : List String} (h : session.history.entries = History.ofLines lines)
    (actions : List (Reading × Action)) :
    (session.run machine actions).1.history.entries
      = History.ofLines (lines ++ (session.submissions machine actions).map Prod.snd) := by
  induction actions generalizing session lines with
  | nil =>
    rw [submissions, List.map_nil, List.append_nil]
    exact h
  | cons step rest ih =>
    obtain ⟨reading, action⟩ := step
    rw [run_cons]
    cases hline : session.line? action with
    | none =>
      have hlog := (act_of_line?_eq_none hline (machine.withClock reading)).2
      -- an action that submits nothing is not remembered
      have hentries := (congrArg Log.entries hlog).trans h
      simp only [submissions, hline]
      exact ih hentries
    | some line =>
      have hlog := (act_of_line?_eq_some hline (machine.withClock reading)).2
      have hentries := (congrArg Log.entries hlog).trans
        (entries_submit h (machine.withClock reading) line)
      simp only [submissions, hline]
      -- the line becomes the last of those that were recorded before the rest
      rw [List.map_cons, List.append_cons]
      exact ih hentries

lemma submit_history (machine : Machine) (session : Session)
    (h : (Text.words line).head? = some "history") :
    (session.submit machine line).2
      = if session.history.entries = [] then [.plain "(no history)"]
        else session.history.entries.mapIdx fun i entry => Builtin.historyLine (i + 1) entry := by
  have hrun := Builtin.runLine_history (session.environment machine) h
  rw [shown_submit, hrun]
  rfl

/-- **The history is the log of the run.** After any run of a fresh session the entries are the
`submissions`, without the blanks around them, without blank lines and without repeats; and
`history` numbers them from 1 on, the line that asks for them not included. -/
theorem history_run (machine : Machine) (actions : List (Reading × Action)) :
    let session := ((start machine.config).run machine actions).1
    let lines := ((start machine.config).submissions machine actions).map Prod.snd
    session.history.entries
        = History.dropRepeats none ((lines.map Text.trim).filter (· ≠ "")) ∧
      ∀ (reading : Reading) (action : Action) (line : String),
        session.line? action = some line → (Text.words line).head? = some "history" →
        (session.act (machine.withClock reading) action).2
          = some (if session.history.entries = [] then [.plain "(no history)"]
              else session.history.entries.mapIdx fun i entry =>
                .plain ("  " ++ Text.alignRight 4 (i + 1) ++ "  " ++ entry)) := by
  intro session lines
  refine ⟨?_, fun reading action line hline hwords => ?_⟩
  · have hfresh : (start machine.config).history.entries = History.ofLines [] := rfl
    exact entries_run hfresh actions
  · have hshown := (act_of_line?_eq_some hline (machine.withClock reading)).1
    rw [hshown, submit_history _ _ hwords]
    rfl

/-- Blank lines, repeats with other blanks around them, lines that fail and lines that wipe the
screen, typed or not, and `history` after them. -/
theorem history_run_mixed :
    let now : Reading := .ok (.ofUnixSeconds 0)
    let machine : Machine := { config := {}, tree := .empty, clock := now }
    let actions : List (Reading × Action) :=
      [(now, .submit " nosuch "), (now, .submit "  "), (now, .submit "nosuch"),
        (now, .event (.type 'x')), (now, .event (.press .confirm)), (now, .submit "clear")]
    let session := ((start machine.config).run machine actions).1
    session.history.entries = ["nosuch", "x", "clear"] ∧
      (session.act (machine.withClock now) (.submit "history")).2
        = some [.plain "     1  nosuch", .plain "     2  x", .plain "     3  clear"] := by
  intro now machine actions session
  obtain ⟨hentries, hshow⟩ := history_run machine actions
  have hlines : ((start machine.config).submissions machine actions).map Prod.snd
      = [" nosuch ", "  ", "nosuch", "x", "clear"] := by
    decide +kernel
  rw [hlines] at hentries
  have hthree : session.history.entries = ["nosuch", "x", "clear"] :=
    hentries.trans (by decide +kernel)
  have hshown := hshow now (.submit "history") "history" rfl (by decide +kernel)
  rw [hthree] at hshown
  exact ⟨hthree, hshown.trans (by decide +kernel)⟩

end MiniShell.Session
