import MiniShell.Proofs.Builtin
import MiniShell.Proofs.Session.Run
import MiniShell.Proofs.Tree.Entry

/-!
# Runs cut down to their moves

What a line shows and where it leads depends on where the session is, and on the history only if
the line asks for it. Since only `cd` moves, nothing but the `cd` lines of a run matters to a line
that comes after.

* `moves`: the lines of a run that can move;
* `submit_congr_cwd`: sessions in one place show the same;
* `cwd_run_moves`: a run ends where its moves lead.
-/

namespace MiniShell.Session

variable {machine : Machine} {session other : Session} {line : String}

/-- The lines that start with `cd`, in order. -/
def moves (lines : List (Reading × String)) : List (Reading × String) :=
  lines.filter fun step => (Text.words step.2).head? = some "cd"

lemma submit_congr_cwd (hcwd : session.cwd = other.cwd)
    (hline : (Text.words line).head? ≠ some "history") (machine : Machine) :
    (session.submit machine line).2 = (other.submit machine line).2 ∧
      (session.submit machine line).1.cwd = (other.submit machine line).1.cwd := by
  have henv : session.environment machine
      = { other.environment machine with history := session.history.entries } := by
    rw [environment, hcwd]
    rfl
  have hrun : Builtin.registry.runLine line (session.environment machine)
      = Builtin.registry.runLine line (other.environment machine) := by
    rw [henv]
    exact Builtin.runLine_withHistory hline _ _
  rw [shown_submit, shown_submit, cwd_submit, cwd_submit, hrun]
  exact ⟨rfl, rfl⟩

lemma cwd_submit_of_ne_cd (hline : (Text.words line).head? ≠ some "cd") (machine : Machine)
    (session : Session) : (session.submit machine line).1.cwd = session.cwd :=
  Builtin.cwd_runLine_of_ne_cd hline (session.environment machine)

/-- Sessions in the same directory end in the same one after a run and after its `moves`. -/
theorem cwd_run_moves (hcwd : session.cwd = other.cwd) (lines : List (Reading × String)) :
    (session.run machine (Action.ofLines lines)).1.cwd
      = (other.run machine (Action.ofLines (moves lines))).1.cwd := by
  -- the sessions agree on the directory only: their histories and transcripts drift apart
  induction lines generalizing session other with
  | nil => exact hcwd
  | cons step rest ih =>
    obtain ⟨reading, line⟩ := step
    rw [run_ofLines_cons]
    by_cases hcd : (Text.words line).head? = some "cd"
    · have hmoves : moves ((reading, line) :: rest) = (reading, line) :: moves rest :=
        List.filter_cons_of_pos (by simp [hcd])
      have hhistory : (Text.words line).head? ≠ some "history" := by simp [hcd]
      have hnext := (submit_congr_cwd hcwd hhistory (machine.withClock reading)).2
      rw [hmoves, run_ofLines_cons]
      exact ih hnext
    · have hmoves : moves ((reading, line) :: rest) = moves rest :=
        List.filter_cons_of_neg (by simp [hcd])
      have hstay := cwd_submit_of_ne_cd hcd (machine.withClock reading) session
      rw [hmoves]
      exact ih (hstay.trans hcwd)

/-- **Only `cd` influences later lines.** After a run and after its `cd` lines alone the prompt is
the same, and a line that does not start with `history` shows the same and leads to the same
directory, at whatever time it is submitted. -/
theorem submit_run_moves (machine : Machine) (session : Session)
    (lines : List (Reading × String)) (reading : Reading) (line : String)
    (hline : (Text.words line).head? ≠ some "history") :
    let after := fun lines => (session.run machine (Action.ofLines lines)).1
    let done := fun lines => (after lines).submit (machine.withClock reading) line
    (done lines).2 = (done (moves lines)).2 ∧
      (after lines).prompt machine.config = (after (moves lines)).prompt machine.config ∧
      (done lines).1.cwd = (done (moves lines)).1.cwd := by
  intro after done
  have hcwd : (after lines).cwd = (after (moves lines)).cwd := cwd_run_moves rfl lines
  obtain ⟨hshown, hend⟩ := submit_congr_cwd hcwd hline (machine.withClock reading)
  refine ⟨hshown, ?_, hend⟩
  rw [prompt, prompt, hcwd]

lemma cwd_submit_cd {typed : String} {arguments : List String}
    (hwords : Text.words line = "cd" :: typed :: arguments)
    (hdir : ∃ entries, machine.tree.lookup (Path.resolve session.cwd machine.config.home typed)
      = some (.directory entries)) :
    (session.submit machine line).1.cwd
      = Path.resolve session.cwd machine.config.home typed := by
  obtain ⟨entries, hentries⟩ := hdir
  have hrun : Builtin.registry.runLine line (session.environment machine)
      = (.nothing, (session.environment machine).resolve typed) :=
    Builtin.runLine_cd hwords hentries
  rw [cwd_submit, hrun]
  rfl

/-- Two moves among lines that show, fail and wipe: after all of them the session is where the two
moves lead. -/
theorem submit_run_moves_mixed :
    let tree := ((Tree.empty.edit (.makeDirectory "/a/b")).1.edit (.write "/a/b/f" "x")).1
    let now : Reading := .ok (.ofUnixSeconds 0)
    let machine : Machine := { config := { home := "/" }, tree, clock := now }
    let lines : List (Reading × String) :=
      [(now, "cd a"), (now, "cat b/f"), (now, "nosuch"), (now, " cd  b"), (now, "clear"),
        (now, "history")]
    let after := fun lines => ((start machine.config).run machine (Action.ofLines lines)).1
    moves lines = [(now, "cd a"), (now, " cd  b")] ∧
      (Text.words "pwd").head? ≠ some "history" ∧
      ((after lines).submit machine "pwd").2 = [.plain "/a/b"] := by
  intro tree now machine lines after
  have hmoves : moves lines = [(now, "cd a"), (now, " cd  b")] := by decide +kernel
  have hline : (Text.words "pwd").head? ≠ some "history" := by decide +kernel
  obtain ⟨hshown, -, -⟩ := submit_run_moves machine (start machine.config) lines now "pwd" hline
  have hfirst : ((start machine.config).submit (machine.withClock now) "cd a").1.cwd = "/a" := by
    rw [cwd_submit_cd (by decide +kernel : Text.words "cd a" = ["cd", "a"])
      (Tree.lookup_eq_directory.2 (by decide +kernel))]
    decide +kernel
  have hsecond : (after (moves lines)).cwd = "/a/b" := by
    simp only [after, hmoves]
    rw [run_ofLines_cons, run_ofLines_cons]
    show (submit (machine.withClock now) _ " cd  b").1.cwd = "/a/b"
    rw [cwd_submit_cd (by decide +kernel : Text.words " cd  b" = ["cd", "b"])
      (Tree.lookup_eq_directory.2 (by rw [hfirst]; decide +kernel)), hfirst]
    decide +kernel
  have hpwd := Builtin.runLine_pwd (by decide +kernel : Text.words "pwd" = ["pwd"])
    ((after (moves lines)).environment (machine.withClock now))
  refine ⟨hmoves, hline, hshown.trans ?_⟩
  rw [shown_submit, hpwd]
  show [Line.plain (after (moves lines)).cwd] = _
  rw [hsecond]

end MiniShell.Session
