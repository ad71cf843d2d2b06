import Mathlib.Tactic.Common
import MiniShell.Proofs.History
import MiniShell.Session

/-!
# Runs of a session

A run does one action after another: it submits lines, or passes on events. The machine stays as
it is while its clock goes on, so every action comes with what the clock tells at the time.

* `Session.run`, `Session.submissions`: a run, and the lines that it submits;
* `Session.log`: what a session remembers of the lines submitted;
* `Session.run_induction`, `Session.run_induction_submit`: what every action preserves, or every
  submitted line, holds after every run;
* `Session.log_run`: a run does what submitting its lines does.
-/

namespace MiniShell

/-- What a clock tells, or why it fails. -/
abbrev Reading := Except ShellError Timestamp

/-- The machine at the time of a `Reading` of its clock. -/
def Machine.withClock (machine : Machine) (reading : Reading) : Machine :=
  { machine with clock := reading }

lemma Machine.ofConfig_eq (config : Config) (clock : Reading) :
    Machine.ofConfig config clock
      = (config.seededTree.mapError ShellError.ofTree).map fun tree => { config, tree, clock } := by
  -- unfolding by its equation would evaluate the stock tree
  delta Machine.ofConfig
  generalize config.seededTree = made
  cases made <;> rfl

/-- What can be done with a session: a line is given to `submit`, an event to `handle`. -/
inductive Action where
  | submit (line : String)
  | event (event : InputEvent)
  deriving DecidableEq, Repr

def Action.ofLines (lines : List (Reading × String)) : List (Reading × Action) :=
  lines.map fun step => (step.1, .submit step.2)

def Action.ofEvents (events : List (Reading × InputEvent)) : List (Reading × Action) :=
  events.map fun step => (step.1, .event step.2)

/-- What a session remembers of the lines submitted: all but the line being typed and the walk
through the history. -/
structure Log where
  cwd : String
  transcript : List Block
  entries : List String
  deriving DecidableEq, Repr

namespace Session

/-- The `Log` of a session. -/
def log (session : Session) : Log :=
  { cwd := session.cwd, transcript := session.transcript, entries := session.history.entries }

/-- The session with another input line and any walk given up. -/
def edit (session : Session) (input : String) : Session :=
  { session with input }.endWalk

/-- Does an action, by `submit` or `handle`. Gives the lines shown if it submitted one. -/
def act (machine : Machine) (session : Session) : Action → Session × Option (List Line)
  | .submit line => ((session.submit machine line).1, some (session.submit machine line).2)
  | .event event => session.handle machine event

/-- Does actions in order, each at a reading of the clock. Gives what `act` showed for each. -/
def run (machine : Machine) :
    Session → List (Reading × Action) → Session × List (Option (List Line))
  | session, [] => (session, [])
  | session, (reading, action) :: rest =>
    let (after, shown) := session.act (machine.withClock reading) action
    let (last, later) := run machine after rest
    (last, shown :: later)

/-- The line that an action submits: a given one, or the line being typed. -/
def line? (session : Session) : Action → Option String
  | .submit line => some line
  | .event (.press .confirm) => some session.input
  | .event _ => none

/-- The lines that a run submits, as `line?` finds them, in order. -/
def submissions (machine : Machine) : Session → List (Reading × Action) → List (Reading × String)
  | _, [] => []
  | session, (reading, action) :: rest =>
    let later := submissions machine (session.act (machine.withClock reading) action).1 rest
    match session.line? action with
    | some line => (reading, line) :: later
    | none => later

/-! ## One action -/

section

variable {machine : Machine} {session other : Session} {line : String} {action : Action}
  {event : InputEvent}

lemma act_submit (machine : Machine) (session : Session) (line : String) :
    session.act machine (.submit line)
      = ((session.submit machine line).1, some (session.submit machine line).2) := rfl

lemma shown_submit (machine : Machine) (session : Session) (line : String) :
    (session.submit machine line).2
      = (Builtin.registry.runLine line (session.environment machine)).1.toLines := rfl

lemma cwd_submit (machine : Machine) (session : Session) (line : String) :
    (session.submit machine line).1.cwd
      = (Builtin.registry.runLine line (session.environment machine)).2 := rfl

lemma transcript_submit (machine : Machine) (session : Session) (line : String) :
    (session.submit machine line).1.transcript
      = session.transcriptAfter machine.config line
        (Builtin.registry.runLine line (session.environment machine)).1 := rfl

lemma history_submit (machine : Machine) (session : Session) (line : String) :
    (session.submit machine line).1.history = session.history.record (Text.trim line) := rfl

lemma input_submit (machine : Machine) (session : Session) (line : String) :
    (session.submit machine line).1.input = session.input := rfl

@[simp] lemma log_withInput (session : Session) (input : String) :
    ({ session with input } : Session).log = session.log := rfl

@[simp] lemma log_edit (input : String) : (session.edit input).log = session.log := rfl

lemma log_withRecalled {recalled : History × Option String}
    (h : recalled.1.entries = session.history.entries) :
    (session.withRecalled recalled).log = session.log := by
  rw [log, log, withRecalled, h]

/-- An event other than Confirm shows nothing and leaves the `log` as it is. -/
lemma handle_of_ne_confirm (h : event ≠ .press .confirm) (machine : Machine) (session : Session) :
    (session.handle machine event).2 = none ∧
      (session.handle machine event).1.log = session.log := by
  cases event with
  | type c => exact ⟨rfl, log_edit _⟩
  | backspace => exact ⟨rfl, log_edit _⟩
  | press button =>
    cases button with
    | up => exact ⟨rfl, log_withRecalled History.entries_stepBack⟩
    | down => exact ⟨rfl, log_withRecalled History.entries_stepForward⟩
    | cancel => exact ⟨rfl, log_edit _⟩
    | confirm => exact absurd rfl h

lemma handle_confirm (machine : Machine) (session : Session) :
    session.handle machine (.press .confirm)
      = ((submit machine { session with input := "" } session.input).1,
          some (submit machine { session with input := "" } session.input).2) := rfl

/-- Submitting a line looks at the `log` only, and not at the line being typed or at the walk. -/
lemma submit_congr (h : session.log = other.log) (machine : Machine) (line : String) :
    session.submit machine line
      = ({ (other.submit machine line).1 with input := session.input },
          (other.submit machine line).2) := by
  rw [log, log, Log.mk.injEq] at h
  obtain ⟨hcwd, htranscript, hentries⟩ := h
  have henv : session.environment machine = other.environment machine := by
    rw [environment, environment, hcwd, hentries]
  have hafter : ∀ output, session.transcriptAfter machine.config line output
      = other.transcriptAfter machine.config line output := by
    intro output
    cases output <;> simp only [transcriptAfter, prompt, hcwd, htranscript]
  have hrecord := History.record_congr hentries (Text.trim line)
  simp only [submit, henv, hafter, hrecord]

lemma log_submit_congr (h : session.log = other.log) (machine : Machine) (line : String) :
    (session.submit machine line).2 = (other.submit machine line).2 ∧
      (session.submit machine line).1.log = (other.submit machine line).1.log := by
  rw [submit_congr h]
  exact ⟨rfl, log_withInput _ _⟩

/-- An action that submits a line shows what `submit` shows, and is remembered the same. -/
lemma act_of_line?_eq_some (h : session.line? action = some line) (machine : Machine) :
    (session.act machine action).2 = some (session.submit machine line).2 ∧
      (session.act machine action).1.log = (session.submit machine line).1.log := by
  cases action with
  | submit typed =>
    rw [line?, Option.some.injEq] at h
    subst h
    exact ⟨rfl, rfl⟩
  | event event =>
    by_cases hevent : event = .press .confirm
    · subst hevent
      rw [line?, Option.some.injEq] at h
      subst h
      obtain ⟨hshown, hlog⟩ := log_submit_congr (log_withInput session "") machine session.input
      rw [act, handle_confirm]
      exact ⟨congrArg some hshown, hlog⟩
    · rw [line?] at h
      · exact absurd h (by simp)
      · exact hevent

lemma act_of_line?_eq_none (h : session.line? action = none) (machine : Machine) :
    (session.act machine action).2 = none ∧ (session.act machine action).1.log = session.log := by
  cases action with
  | submit typed => exact absurd h (by simp [line?])
  | event event =>
    refine handle_of_ne_confirm (fun hevent => ?_) machine session
    rw [hevent] at h
    exact absurd h (by simp [line?])

end

/-! ## Runs -/

/-- What every `act` preserves, at every reading of the clock, holds after every run. -/
theorem run_induction {P : Session → Prop} {machine : Machine}
    (hact : ∀ session reading action, P session →
      P (session.act (machine.withClock reading) action).1)
    {session : Session} (h : P session) (actions : List (Reading × Action)) :
    P (session.run machine actions).1 := by
  induction actions generalizing session with
  | nil => exact h
  | cons step rest ih => exact ih (hact session step.1 step.2 h)

/-- What depends on the `log` only, and what every `submit` preserves, holds after every run. -/
theorem run_induction_submit {P : Session → Prop} {machine : Machine}
    (hcongr : ∀ session other : Session, other.log = session.log → P session → P other)
    (hsubmit : ∀ session reading line, P session →
      P (session.submit (machine.withClock reading) line).1)
    {session : Session} (h : P session) (actions : List (Reading × Action)) :
    P (session.run machine actions).1 := by
  refine run_induction (fun session reading action hsession => ?_) h actions
  cases hline : session.line? action with
  | some line =>
    have hlog := (act_of_line?_eq_some hline (machine.withClock reading)).2
    exact hcongr _ _ hlog (hsubmit session reading line hsession)
  | none =>
    have hlog := (act_of_line?_eq_none hline (machine.withClock reading)).2
    exact hcongr _ _ hlog hsession

lemma run_cons (machine : Machine) (session : Session) (reading : Reading) (action : Action)
    (rest : List (Reading × Action)) :
    session.run machine ((reading, action) :: rest)
      = ((run machine (session.act (machine.withClock reading) action).1 rest).1,
          (session.act (machine.withClock reading) action).2
            :: (run machine (session.act (machine.withClock reading) action).1 rest).2) := rfl

lemma run_ofLines_cons (machine : Machine) (session : Session) (reading : Reading) (line : String)
    (rest : List (Reading × String)) :
    (session.run machine (Action.ofLines ((reading, line) :: rest))).1
      = (run machine (session.submit (machine.withClock reading) line).1
          (Action.ofLines rest)).1 := rfl

/-- A run of two parts. -/
theorem run_append (machine : Machine) (session : Session) (first rest : List (Reading × Action)) :
    session.run machine (first ++ rest)
      = ((run machine (session.run machine first).1 rest).1,
          (session.run machine first).2 ++ (run machine (session.run machine first).1 rest).2) := by
  induction first generalizing session with
  | nil => rfl
  | cons step first ih =>
    obtain ⟨reading, action⟩ := step
    rw [List.cons_append, run_cons, ih, run_cons]
    rfl

/-- A run ends in the `log`, and shows the lines, of a run that submits its lines directly, from any
session with the same log. -/
lemma log_run {machine : Machine} {session other : Session} (h : session.log = other.log)
    (actions : List (Reading × Action)) :
    let direct := other.run machine (Action.ofLines (session.submissions machine actions))
    (session.run machine actions).1.log = direct.1.log ∧
      (session.run machine actions).2.filterMap id = direct.2.filterMap id := by
  -- the two sessions differ in their input lines, but never in what they remember
  induction actions generalizing session other with
  | nil => exact ⟨h, rfl⟩
  | cons step rest ih =>
    obtain ⟨reading, action⟩ := step
    cases hline : session.line? action with
    | none =>
      obtain ⟨hshown, hlog⟩ := act_of_line?_eq_none hline (machine.withClock reading)
      obtain ⟨hlast, hlater⟩ := ih (hlog.trans h)
      simp only [submissions, hline]
      rw [run_cons, hshown]
      exact ⟨hlast, hlater⟩
    | some line =>
      obtain ⟨hshown, hlog⟩ := act_of_line?_eq_some hline (machine.withClock reading)
      obtain ⟨hsame, hother⟩ := log_submit_congr h (machine.withClock reading) line
      obtain ⟨hlast, hlater⟩ := ih (hlog.trans hother)
      simp only [submissions, hline]
      rw [run_cons, hshown, Action.ofLines, List.map_cons, run_cons, act_submit, hsame]
      refine ⟨hlast, ?_⟩
      simp only [List.filterMap_cons, id]
      exact congrArg _ hlater

end Session

end MiniShell
