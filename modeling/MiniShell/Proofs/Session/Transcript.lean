import MiniShell.Proofs.Builtin
import MiniShell.Proofs.Session.Run

/-!
# The transcript over a run

The transcript grows by one block for each submitted line and is wiped by `clear`, and by nothing
else. So it holds what was submitted since the last `clear`, under the banner if there was none.

* `Session.blocks`: the blocks of submitted lines;
* `Session.transcript_submit_eq_nil_iff`: when nothing is left to see;
* `Session.transcript_run_of_forall`: a run without `clear`.
-/

namespace MiniShell.Session

variable {session : Session} {line : String}

/-- The block that `submit` leaves: the line as it was entered, the prompt before it ran, and the
lines that it showed. -/
def block (machine : Machine) (session : Session) (line : String) : Block :=
  { echo := some { prompt := session.prompt machine.config, command := line }
    lines := (session.submit machine line).2 }

/-- The `block` of each of some lines submitted one after the other. -/
def blocks (machine : Machine) : Session → List (Reading × String) → List Block
  | _, [] => []
  | session, (reading, line) :: rest =>
    session.block (machine.withClock reading) line
      :: blocks machine (session.submit (machine.withClock reading) line).1 rest

/-- Output that is not `clear` is added to the transcript. -/
lemma transcriptAfter_of_ne_clear {output : Output} (h : output ≠ .clear) (session : Session)
    (config : Config) (line : String) :
    session.transcriptAfter config line output
      = session.transcript
        ++ [{ echo := some { prompt := session.prompt config, command := line }
              lines := output.toLines }] := by
  cases output with
  | clear => exact absurd rfl h
  | lines | nothing => rfl

/-- A line that starts with `clear` wipes the transcript and shows nothing. -/
lemma submit_of_clear (h : (Text.words line).head? = some "clear") (machine : Machine)
    (session : Session) :
    (session.submit machine line).1.transcript = [] ∧ (session.submit machine line).2 = [] := by
  have hclear := (Builtin.runLine_eq_clear_iff line (session.environment machine)).2 h
  constructor
  · show session.transcriptAfter machine.config line
      (Builtin.registry.runLine line (session.environment machine)).1 = []
    rw [hclear]
    rfl
  · rw [shown_submit, hclear]
    rfl

/-- A line that does not start with `clear` adds its `block`. -/
lemma transcript_submit_of_ne_clear (h : (Text.words line).head? ≠ some "clear")
    (machine : Machine) (session : Session) :
    (session.submit machine line).1.transcript
      = session.transcript ++ [session.block machine line] := by
  have hclear := mt (Builtin.runLine_eq_clear_iff line (session.environment machine)).1 h
  exact transcriptAfter_of_ne_clear hclear session machine.config line

/-- A line leaves the transcript empty only by starting with `clear`. -/
theorem transcript_submit_eq_nil_iff (machine : Machine) (session : Session) (line : String) :
    (session.submit machine line).1.transcript = [] ↔
      (Text.words line).head? = some "clear" := by
  constructor
  · intro h
    by_contra hline
    rw [transcript_submit_of_ne_clear hline] at h
    exact List.append_ne_nil_of_right_ne_nil _ (List.cons_ne_nil _ _) h
  · intro h
    exact (submit_of_clear h machine session).1

/-- Lines that do not start with `clear` add their `blocks`. -/
theorem transcript_run_of_forall (machine : Machine) (session : Session)
    (lines : List (Reading × String))
    (h : ∀ step ∈ lines, (Text.words step.2).head? ≠ some "clear") :
    (session.run machine (Action.ofLines lines)).1.transcript
      = session.transcript ++ session.blocks machine lines := by
  induction lines generalizing session with
  | nil => exact (List.append_nil _).symm
  | cons step rest ih =>
    obtain ⟨reading, line⟩ := step
    obtain ⟨hline, hrest⟩ := List.forall_mem_cons.1 h
    rw [run_ofLines_cons, ih _ hrest, transcript_submit_of_ne_clear hline, blocks,
      List.append_assoc, List.singleton_append]

/-- **The transcript is what was submitted since the last `clear`.** In a fresh session it is the
banner and the blocks of all lines as long as none of them starts with `clear`, and the blocks of
the lines after the last one that does; so it is empty right after such a line and at no other
time. -/
theorem transcript_run (machine : Machine) (lines : List (Reading × String)) :
    let session := start machine.config
    let after := fun lines => (session.run machine (Action.ofLines lines)).1
    ((∀ step ∈ lines, (Text.words step.2).head? ≠ some "clear") →
      (after lines).transcript
        = { echo := none, lines := [.plain machine.config.banner] }
          :: session.blocks machine lines) ∧
    (∀ before step rest, lines = before ++ step :: rest →
      (Text.words step.2).head? = some "clear" →
      (∀ later ∈ rest, (Text.words later.2).head? ≠ some "clear") →
      (after lines).transcript = (after (before ++ [step])).blocks machine rest) ∧
    ∀ (reading : Reading) (line : String),
      (((after lines).submit (machine.withClock reading) line).1.transcript = [] ↔
        (Text.words line).head? = some "clear") := by
  intro session after
  refine ⟨fun hnone => ?_, fun before step rest hlines hstep hrest => ?_, fun reading line => ?_⟩
  · exact transcript_run_of_forall machine session lines hnone
  · -- the run goes on from the session that the last wipe left
    have hsplit : after lines
        = (run machine (after (before ++ [step])) (Action.ofLines rest)).1 := by
      simp only [after, hlines, Action.ofLines, List.append_cons before step rest,
        List.map_append, run_append]
    have hwiped : (after (before ++ [step])).transcript = [] := by
      simp only [after, Action.ofLines, List.map_append, run_append]
      exact (submit_of_clear hstep _ _).1
    rw [hsplit, transcript_run_of_forall machine _ rest hrest, hwiped, List.nil_append]
  · exact transcript_submit_eq_nil_iff (machine.withClock reading) (after lines) line

/-- A blank line stands below the banner; of a run with two lines that wipe the screen only what
follows the second one, which has an argument, is left. -/
theorem transcript_run_cleared :
    let now : Reading := .ok (.ofUnixSeconds 0)
    let config : Config := { home := "/", user := "u", host := "h", banner := "hello" }
    let machine : Machine := { config, tree := .empty, clock := now }
    let after := fun lines => ((start config).run machine (Action.ofLines lines)).1
    (after [(now, " ")]).transcript
        = [{ echo := none, lines := [.plain "hello"] },
            { echo := some { prompt := { user := "u", host := "h", path := "~" }, command := " " }
              lines := [] }] ∧
      (after [(now, "clear"), (now, " clear it"), (now, "pwd"), (now, "x")]).transcript
        = (after [(now, "clear"), (now, " clear it")]).blocks machine [(now, "pwd"), (now, "x")] ∧
      ((after []).submit machine "clear").1.transcript = [] := by
  intro now config machine after
  refine ⟨?_, ?_, ?_⟩
  · obtain ⟨hnone, -, -⟩ := transcript_run machine [(now, " ")]
    exact (hnone (by decide +kernel)).trans (by decide +kernel)
  · obtain ⟨-, hsince, -⟩ :=
      transcript_run machine [(now, "clear"), (now, " clear it"), (now, "pwd"), (now, "x")]
    exact hsince [(now, "clear")] (now, " clear it") [(now, "pwd"), (now, "x")] rfl
      (by decide +kernel) (by decide +kernel)
  · obtain ⟨-, -, hempty⟩ := transcript_run machine []
    exact (hempty now "clear").2 (by decide +kernel)

end MiniShell.Session
