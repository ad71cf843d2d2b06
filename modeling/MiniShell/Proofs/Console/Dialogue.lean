import MiniShell.Proofs.Console.Input
import MiniShell.Proofs.Session.Transcript

/-!
# The console submits lines

Without colours, all that the console prints is the banner and the dialogue of its session: each
prompt and what the line entered at it shows. It ends with the input, or at the first chunk that is
no text.

* `dialogue`: what is printed for submitted lines;
* `run_map_toBytes`: the console prints the dialogue;
* `programAt_eq_dialogue`: what the program prints.
-/

namespace MiniShell

namespace Console

open Text

/-- What is printed for lines that are given to `Session.submit` one after the other: each prompt,
and the lines shown. -/
def dialogue (machine : Machine) : Session → List (Reading × String) → String
  | _, [] => ""
  | session, (reading, line) :: rest =>
    let (after, shown) := session.submit (machine.withClock reading) line
    (session.prompt machine.config).text ++ " " ++ String.join (shown.map fun l => l.text ++ "\n")
      ++ dialogue machine after rest

/-- The lines of texts by `lineOf`, each at the reading of the clock for its place. -/
def linesOf (clock : Nat → Reading) (texts : List String) : List (Reading × String) :=
  texts.mapIdx fun n text => (clock n, lineOf text)

lemma linesOf_cons (clock : Nat → Reading) (text : String) (texts : List String) :
    linesOf clock (text :: texts)
      = (clock 0, lineOf text) :: linesOf (fun n => clock (n + 1)) texts := by
  rw [linesOf, List.mapIdx_cons]
  rfl

variable {console : Console} {machine : Machine} {reading : Reading}

/-- The console looks at the lines that `line?` finds in the pieces only. -/
lemma run_congr {first second : List (List UInt8)} (h : first.map line? = second.map line?)
    (clock : Nat → Reading) (console : Console) :
    console.run clock first = console.run clock second := by
  induction first generalizing second clock console with
  | nil => rw [List.map_eq_nil_iff.1 h.symm]
  | cons piece first ih =>
    cases second with
    | nil => exact absurd h (by simp)
    | cons other second =>
      rw [List.map_cons, List.map_cons, List.cons.injEq] at h
      rw [run, run, h.1]
      cases line? other with
      | none => rfl
      | some line => simp only [ih h.2]

/-- Without colours, `enter` submits a line and prints what it shows. -/
lemma enter_eq (console : Console) (hcolor : console.color = false) (line : String) :
    console.enter line
      = ({ console with session := (console.session.submit console.machine line).1 },
          String.join ((console.session.submit console.machine line).2.map fun l =>
            l.text ++ "\n")) := by
  have hempty := Session.transcript_submit_eq_nil_iff console.machine console.session line
  have hshown := fun hclear : (Text.words line).head? = some "clear" =>
    (Session.submit_of_clear hclear console.machine console.session).2
  rw [enter, hcolor]
  generalize console.session.submit console.machine line = submitted at hempty hshown ⊢
  obtain ⟨session, shown⟩ := submitted
  -- nothing is left in the transcript only if nothing was shown
  by_cases hnil : session.transcript = []
  · have hnone : shown = [] := hshown (hempty.1 hnil)
    simp [hnil, hnone]
  · simp [hnil, Render.lines, Render.line]

/-- A piece with a line is given to `enter`, at the time that the clock tells then. -/
lemma run_cons_of_line? {piece : List UInt8} {line : String} (h : line? piece = some line)
    (clock : Nat → Reading) (console : Console) (rest : List (List UInt8)) :
    let entered := (console.withClock (clock 0)).enter line
    let later := entered.1.run (fun n => clock (n + 1)) rest
    console.run clock (piece :: rest) = (console.prompt ++ entered.2 ++ later.1, later.2) := by
  intro entered later
  rw [run, h]

lemma prompt_eq (hcolor : console.color = false)
    (hmachine : console.machine = machine.withClock reading) :
    console.prompt = (console.session.prompt machine.config).text ++ " " := by
  rw [prompt, Render.prompt, hcolor, hmachine]
  rfl

lemma dialogue_cons (machine : Machine) (session : Session) (reading : Reading) (line : String)
    (rest : List (Reading × String)) :
    let submitted := session.submit (machine.withClock reading) line
    dialogue machine session ((reading, line) :: rest)
      = (session.prompt machine.config).text ++ " "
          ++ String.join (submitted.2.map fun l => l.text ++ "\n")
          ++ dialogue machine submitted.1 rest := by
  intro submitted
  rw [dialogue]

/-- Texts are submitted as lines in a `dialogue`, as long as what comes after them only prints the
prompt. -/
theorem run_map_toBytes {later : List (List UInt8)} {tail : String} {code : UInt8}
    (hlater : ∀ clock console, run clock console later = (console.prompt ++ tail, code))
    (texts : List String) (clock : Nat → Reading) (hcolor : console.color = false)
    (hmachine : console.machine = machine.withClock reading) :
    let last := (console.session.run machine (Action.ofLines (linesOf clock texts))).1
    console.run clock (texts.map toBytes ++ later)
      = (dialogue machine console.session (linesOf clock texts)
          ++ ((last.prompt machine.config).text ++ " ") ++ tail, code) := by
  induction texts generalizing console clock reading with
  | nil =>
    intro last
    rw [List.map_nil, List.nil_append, hlater, prompt_eq hcolor hmachine]
    exact congrArg (fun printed => (printed ++ tail, code)) String.empty_append.symm
  | cons text texts ih =>
    intro last
    let submitted := console.session.submit (machine.withClock (clock 0)) (lineOf text)
    let after : Console :=
      { machine := machine.withClock (clock 0), session := submitted.1, color := console.color }
    -- the piece is entered at the first reading, and the console after it shows no colours either
    have hentered : (console.withClock (clock 0)).enter (lineOf text)
        = (after, String.join (submitted.2.map fun l => l.text ++ "\n")) := by
      have hplain : (console.withClock (clock 0)).color = false := hcolor
      rw [enter_eq _ hplain, withClock, hmachine]
      rfl
    have hlast : last = (Session.run machine submitted.1
        (Action.ofLines (linesOf (fun n => clock (n + 1)) texts))).1 := by
      simp only [last, linesOf_cons, Session.run_ofLines_cons, submitted]
    have hrest := ih (fun n => clock (n + 1)) (show after.color = false from hcolor)
      (show after.machine = machine.withClock (clock 0) from rfl)
    rw [List.map_cons, List.cons_append, run_cons_of_line? (line?_toBytes text), hentered]
    simp only [hrest]
    rw [prompt_eq hcolor hmachine, linesOf_cons, dialogue_cons, hlast]
    simp only [String.append_assoc, after, submitted]

/-! ## The program -/

section

variable {source : Config.Source} {config : Config} {tree : Tree} {clock : Nat → Reading}
  {input : List UInt8}

lemma programAt_of_load_eq_error {cause : ShellError} (h : Config.load source = .error cause) :
    programAt source clock input = ("", 1) := by
  rw [programAt, h]
  rfl

/-- A configuration that is loaded is given to `start`, at the first time that the clock tells. -/
lemma load_bind_start (hload : Config.load source = .ok config) (reading : Reading) :
    ((Config.load source).bind fun config => start config reading false)
      = (config.seededTree.mapError ShellError.ofTree).map fun tree =>
          { machine := { config, tree, clock := reading }
            session := .start config
            color := false } := by
  -- said of any continuation, so that no tree is made to check it
  have hbind : ∀ next : Config → Except ShellError Console,
      (Except.ok config : Except ShellError Config).bind next = next config := fun _ => rfl
  rw [hload, hbind, start, Machine.ofConfig_eq]
  generalize config.seededTree = made
  cases made with
  | error => rfl
  | ok => rfl

lemma programAt_of_seededTree_eq_error {cause : TreeError} (hload : Config.load source = .ok config)
    (htree : config.seededTree = .error cause) : programAt source clock input = ("", 1) := by
  rw [programAt, load_bind_start hload, htree]
  rfl

/-- With a loaded and seeded configuration, `programAt` greets with the banner and runs a fresh
session on its input. -/
lemma programAt_of_ok {chunks : List (List UInt8)} (hload : Config.load source = .ok config)
    (htree : config.seededTree = .ok tree) (hchunks : Chunked input chunks)
    (clock : Nat → Reading) :
    let console : Console :=
      { machine := { config, tree, clock := clock 0 }, session := .start config, color := false }
    programAt source clock input
      = (config.banner ++ "\n" ++ (console.run clock chunks).1, (console.run clock chunks).2) := by
  intro console
  have hgreeting : console.greeting = config.banner ++ "\n" := by
    simp [greeting, console, Session.start, Render.lines, Render.line, Line.text_plain]
  rw [programAt, load_bind_start hload, htree, ← run_congr (map_line?_pieces hchunks),
    ← hgreeting]
  rfl

/-- **The program is a dialogue.** A configuration that cannot be loaded or seeded ends it with code
1 before it prints anything. Otherwise it prints the banner and then the `dialogue` of the chunks of
its input: at the end it prints one more prompt and a line feed, and ends with code 0, but at a
chunk that is no text it ends with code 1 after the prompt. -/
theorem programAt_eq_dialogue (source : Config.Source) (clock : Nat → Reading)
    (input : List UInt8) :
    (∀ cause, Config.load source = .error cause → programAt source clock input = ("", 1)) ∧
    (∀ config cause, Config.load source = .ok config → config.seededTree = .error cause →
      programAt source clock input = ("", 1)) ∧
    (∃ chunks, Chunked input chunks) ∧
    ∀ config tree chunks, Config.load source = .ok config → config.seededTree = .ok tree →
      Chunked input chunks →
      let machine : Machine := { config, tree, clock := clock 0 }
      let printed := fun texts =>
        let lines := linesOf clock texts
        let last := ((Session.start config).run machine (Action.ofLines lines)).1
        config.banner ++ "\n" ++ dialogue machine (.start config) lines
          ++ (last.prompt config).text ++ " "
      (∀ texts, chunks = texts.map toBytes →
        programAt source clock input = (printed texts ++ "\n", 0)) ∧
      ∀ texts bad later, chunks = texts.map toBytes ++ bad :: later →
        (∀ text, toBytes text ≠ bad) → programAt source clock input = (printed texts, 1) := by
  refine ⟨fun cause => programAt_of_load_eq_error, fun config cause =>
    programAt_of_seededTree_eq_error, exists_chunked input, ?_⟩
  intro config tree chunks hload htree hchunks machine printed
  let console : Console := { machine, session := .start config, color := false }
  have hplain : console.color = false := rfl
  have hmachine : console.machine = machine.withClock (clock 0) := rfl
  have hstart : programAt source clock input
      = (config.banner ++ "\n" ++ (console.run clock chunks).1, (console.run clock chunks).2) :=
    programAt_of_ok hload htree hchunks clock
  refine ⟨fun texts htexts => ?_, fun texts bad later htexts hbad => ?_⟩
  · -- after the last text comes the end of the input, where the prompt is followed by a line feed
    have hend : ∀ clock console, run clock console [] = (console.prompt ++ "\n", 0) :=
      fun _ _ => rfl
    have hrun := run_map_toBytes hend texts clock hplain hmachine
    rw [List.append_nil, ← htexts] at hrun
    rw [hstart, hrun]
    simp only [printed, String.append_assoc]
    rfl
  · -- after the last text comes the bad chunk, where the prompt is the last thing printed
    have hlater : ∀ clock console,
        run clock console (bad :: later) = (console.prompt ++ "", 1) := by
      intro clock console
      rw [run, line?_eq_none hbad, String.append_empty]
    have hrun := run_map_toBytes hlater texts clock hplain hmachine
    rw [← htexts] at hrun
    rw [hstart, hrun]
    simp only [printed, String.append_assoc, String.append_empty]
    rfl

/-- Without a configuration file, a blank line makes a dialogue of two prompts, which a byte that is
no text cuts short. A file that is missing, and one that puts the home directory in the place of a
seeded file, leave nothing to print. -/
theorem programAt_eq_dialogue_blank :
    let clock : Nat → Reading := fun n => .ok (.ofUnixSeconds n)
    let taken := Config.Source.file (toBytes "home=\"/var/log/syslog\"")
    let greeting := "Welcome to Namour System Monitor! Type `help` to see available commands.\n"
    let prompt := "namour@ubuntu-prod-01:~$ "
    programAt .missing clock [10] = ("", 1) ∧
      programAt taken clock [10] = ("", 1) ∧
      programAt .stock clock [32, 10] = (greeting ++ prompt ++ prompt ++ "\n", 0) ∧
      programAt .stock clock [32, 10, 255] = (greeting ++ prompt ++ prompt, 1) := by
  intro clock taken greeting prompt
  let tree := (Config.seededTree {}).toOption.getD .empty
  let config : Config := { home := "/var/log/syslog" }
  have hload : Config.load taken = .ok config := by decide +kernel
  have hseeded : (Config.seededTree {}).isOk = true := by decide +kernel
  have hoccupied : config.seededTree.isOk = false := by decide +kernel
  obtain ⟨hmissing, -, -, -⟩ := programAt_eq_dialogue .missing clock [10]
  obtain ⟨-, htaken, -, -⟩ := programAt_eq_dialogue taken clock [10]
  obtain ⟨-, -, -, hgood⟩ := programAt_eq_dialogue .stock clock [32, 10]
  obtain ⟨-, -, -, hbad⟩ := programAt_eq_dialogue .stock clock [32, 10, 255]
  have hspace : (10 : UInt8) ∉ [(32 : UInt8)] := by decide
  have hlast : (10 : UInt8) ∉ [(255 : UInt8)] := by decide
  have htext : [[32, 10]] = [" \n"].map toBytes := by decide +kernel
  have hnone : ∀ text, toBytes text ≠ [255] := ofBytes?_eq_none_iff.1 (by decide +kernel)
  refine ⟨hmissing _ rfl, ?_, ?_⟩
  · cases htree : config.seededTree with
    | ok tree => simp [htree, Except.isOk, Except.toBool] at hoccupied
    | error cause => exact htaken config cause hload htree
  · have htree : Config.seededTree {} = .ok tree := by
      cases hmade : Config.seededTree {} with
      | ok made => simp [tree, hmade, Except.toOption]
      | error cause => simp [hmade, Except.isOk, Except.toBool] at hseeded
    have hprinted := (hgood {} tree [[32, 10]] rfl htree (.ended hspace .nil)).1 [" \n"] htext
    have hcut := (hbad {} tree [[32, 10], [255]] rfl htree
      (.ended hspace (.unended (List.cons_ne_nil _ _) hlast))).2 [" \n"] [255] []
      (congrArg (· ++ [[255]]) htext) hnone
    exact ⟨hprinted.trans (by decide +kernel), hcut.trans (by decide +kernel)⟩

end

end Console

end MiniShell
