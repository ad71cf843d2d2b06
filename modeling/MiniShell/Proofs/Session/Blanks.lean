import MiniShell.Proofs.Session.Moves
import MiniShell.Proofs.Session.Transcript
import MiniShell.Proofs.Text.Words

/-!
# Lines with the same words

A line is run by its words and recorded without the blanks around it. So two lines with the same
words do the same, whatever blanks they have: only the echo shows which of them was entered, and
only blanks between words make the history tell them apart. No command looks at an echo, so
sessions that differ in the text of their echoes go on to do the same.

* `bare`: a session without the texts of its echoes;
* `submit_congr_bare`, `bare_submit_congr`: such sessions and lines with the same words;
* `submit_congr_words`: lines with the same words, and lines without any.
-/

namespace MiniShell

/-- The block with the text of its echo left out. -/
def Block.bare (block : Block) : Block :=
  { block with echo := block.echo.map fun echo => { echo with command := "" } }

/-- What `runLine` does with a line is what it does with any line of the same words. -/
lemma Registry.runLine_congr_words {line other : String} (h : Text.words line = Text.words other)
    (registry : Registry) (env : Environment) :
    registry.runLine line env = registry.runLine other env := by
  rw [runLine, runLine, h]

lemma Registry.runLine_of_words_eq_nil {line : String} (h : Text.words line = [])
    (registry : Registry) (env : Environment) :
    registry.runLine line env = (.nothing, env.cwd) := by
  rw [runLine, h]

namespace Session

variable {machine : Machine} {session other : Session} {line typed : String}

/-- The session with the texts of its echoes left out. -/
def bare (session : Session) : Session :=
  { session with transcript := session.transcript.map Block.bare }

lemma bare_eq_bare_iff :
    session.bare = other.bare
      ↔ session.cwd = other.cwd ∧
        session.transcript.map Block.bare = other.transcript.map Block.bare ∧
        session.history = other.history ∧ session.input = other.input := by
  rw [bare, bare, mk.injEq]

lemma environment_congr_bare (h : session.bare = other.bare) (machine : Machine) :
    session.environment machine = other.environment machine := by
  obtain ⟨hcwd, -, hhistory, -⟩ := bare_eq_bare_iff.1 h
  rw [environment, environment, hcwd, hhistory]

/-- What output does to a transcript shows which line it was for in the echo only. -/
lemma map_bare_transcriptAfter (h : session.bare = other.bare) (config : Config)
    (line typed : String) (output : Output) :
    (session.transcriptAfter config line output).map Block.bare
      = (other.transcriptAfter config typed output).map Block.bare := by
  obtain ⟨hcwd, htranscript, -, -⟩ := bare_eq_bare_iff.1 h
  cases output with
  | clear => rfl
  | lines | nothing =>
    simp only [transcriptAfter, prompt, hcwd, List.map_append, htranscript]
    rfl

lemma dropLast_transcriptAfter (session : Session) (config : Config) (line typed : String)
    (output : Output) :
    (session.transcriptAfter config line output).dropLast
      = (session.transcriptAfter config typed output).dropLast := by
  cases output with
  | clear => rfl
  | lines | nothing => simp only [transcriptAfter, List.dropLast_concat]

/-- Sessions of equal `bare` show the same for lines with the same words, end in the same directory,
and have transcripts that differ in the texts of their echoes afterwards. -/
lemma submit_congr_bare (h : session.bare = other.bare)
    (hwords : Text.words line = Text.words typed) (machine : Machine) :
    (session.submit machine line).2 = (other.submit machine typed).2 ∧
      (session.submit machine line).1.cwd = (other.submit machine typed).1.cwd ∧
      (session.submit machine line).1.transcript.map Block.bare
        = (other.submit machine typed).1.transcript.map Block.bare := by
  have hrun : Builtin.registry.runLine line (session.environment machine)
      = Builtin.registry.runLine typed (other.environment machine) := by
    rw [environment_congr_bare h, Registry.runLine_congr_words hwords]
  refine ⟨?_, ?_, ?_⟩
  · rw [shown_submit, shown_submit, hrun]
  · rw [cwd_submit, cwd_submit, hrun]
  · rw [transcript_submit, transcript_submit, hrun]
    exact map_bare_transcriptAfter h machine.config line typed _

lemma words_congr_trim (h : Text.trim line = Text.trim typed) :
    Text.words line = Text.words typed := by
  rw [← Text.words_trim, h, Text.words_trim]

/-- Lines that `Text.trim` makes the same leave nothing else behind than the texts of their echoes.
-/
lemma bare_submit_congr (h : session.bare = other.bare) (htrim : Text.trim line = Text.trim typed)
    (machine : Machine) :
    (session.submit machine line).1.bare = (other.submit machine typed).1.bare := by
  obtain ⟨-, hcwd, htranscript⟩ := submit_congr_bare h (words_congr_trim htrim) machine
  obtain ⟨-, -, hhistory, hinput⟩ := bare_eq_bare_iff.1 h
  refine bare_eq_bare_iff.2 ⟨hcwd, htranscript, ?_, ?_⟩
  · rw [history_submit, history_submit, hhistory, htrim]
  · rw [input_submit, input_submit, hinput]

lemma submit_of_words_eq_nil (h : Text.words line = []) (machine : Machine) (session : Session) :
    (session.submit machine line).2 = [] ∧
      (session.submit machine line).1.history.entries = session.history.entries := by
  constructor
  · rw [shown_submit, Registry.runLine_of_words_eq_nil h]
    rfl
  · have htrim : Text.trim line = "" := Text.trim_eq_empty_iff.2 (Text.words_eq_nil_iff.1 h)
    rw [history_submit, History.entries_record, htrim, History.accepts]
    exact List.append_nil _

/-- **Blanks do not count.** Lines with the same `Text.words` show the same, lead to the same
directory, and leave transcripts that differ in the text of the last echo at most; and the same
history, if the lines are also the same without the blanks around them. Any registry runs a line as
it runs the words of the line with one space between them. A line without words does nothing and is
not recorded, and those are the lines of which `Text.trim` leaves nothing. -/
theorem submit_congr_words :
    (∀ (machine : Machine) (session : Session) (line other : String),
      Text.words line = Text.words other →
      let first := session.submit machine line
      let second := session.submit machine other
      first.2 = second.2 ∧ first.1.cwd = second.1.cwd ∧
        first.1.transcript.dropLast = second.1.transcript.dropLast ∧
        first.1.transcript.map Block.bare = second.1.transcript.map Block.bare ∧
        (Text.trim line = Text.trim other → first.1.history = second.1.history)) ∧
    (∀ (registry : Registry) (line : String) (env : Environment),
      registry.runLine line env = registry.runLine (" ".intercalate (Text.words line)) env) ∧
    (∀ line : String, Text.words line = [] →
      (∀ (registry : Registry) (env : Environment),
        registry.runLine line env = (.nothing, env.cwd)) ∧
      ∀ (machine : Machine) (session : Session),
        (session.submit machine line).2 = [] ∧
          (session.submit machine line).1.history.entries = session.history.entries) ∧
    ∀ line : String, Text.trim line = "" ↔ Text.words line = [] := by
  refine ⟨fun machine session line other hwords => ?_, fun registry line env => ?_,
    fun line hnone => ⟨Registry.runLine_of_words_eq_nil hnone, submit_of_words_eq_nil hnone⟩,
    fun line => ?_⟩
  · intro first second
    obtain ⟨hshown, hcwd, htranscript⟩ := submit_congr_bare (rfl : session.bare = _) hwords machine
    refine ⟨hshown, hcwd, ?_, htranscript, fun htrim => ?_⟩
    · rw [transcript_submit, transcript_submit, Registry.runLine_congr_words hwords]
      exact dropLast_transcriptAfter session machine.config line other _
    · rw [history_submit, history_submit, htrim]
  · exact Registry.runLine_congr_words (Text.words_intercalate_words line).symm registry env
  · rw [Text.trim_eq_empty_iff, Text.words_eq_nil_iff]

/-- A move typed between a line separator and a wide space, and with a no-break space and a line
feed between its words; and a line that is a next-line character. -/
theorem submit_congr_words_wide :
    let now : Reading := .ok (.ofUnixSeconds 0)
    let tree := (Tree.empty.edit (.makeDirectory "/a/b")).1
    let machine : Machine := { config := { home := "/" }, tree, clock := now }
    let session := start machine.config
    let after := fun line => (session.submit machine line).1
    Text.words "\u2028cd a\u3000" = Text.words "cd a" ∧
      Text.trim "\u2028cd a\u3000" = Text.trim "cd a" ∧
      (after "\u2028cd a\u3000").cwd = "/a" ∧
      (after "\u2028cd a\u3000").history.entries = ["cd a"] ∧
      Text.words "cd\u00a0\na" = Text.words "cd a" ∧
      Text.trim "cd\u00a0\na" ≠ Text.trim "cd a" ∧
      (after "cd\u00a0\na").cwd = "/a" ∧
      Text.words "\u0085" = [] ∧ (after "\u0085").history.entries = [] := by
  intro now tree machine session after
  obtain ⟨hsame, -, hblank, -⟩ := submit_congr_words
  have houter : Text.words "\u2028cd a\u3000" = Text.words "cd a" := by decide +kernel
  have hinner : Text.words "cd\u00a0\na" = Text.words "cd a" := by decide +kernel
  have htrim : Text.trim "\u2028cd a\u3000" = Text.trim "cd a" := by decide +kernel
  have hnone : Text.words "\u0085" = [] := by decide +kernel
  have hplain : (after "cd a").cwd = "/a" := by
    rw [cwd_submit_cd (by decide +kernel : Text.words "cd a" = ["cd", "a"])
      (Tree.lookup_eq_directory.2 (by decide +kernel))]
    decide +kernel
  have hentries : (after "cd a").history.entries = ["cd a"] := by decide +kernel
  obtain ⟨-, hcwd, -, -, hhistory⟩ := hsame machine session _ _ houter
  obtain ⟨-, hcwd', -, -, -⟩ := hsame machine session _ _ hinner
  refine ⟨houter, htrim, hcwd.trans hplain, ?_, hinner, by decide +kernel, hcwd'.trans hplain,
    hnone, ((hblank _ hnone).2 machine session).2⟩
  exact (congrArg History.entries (hhistory htrim)).trans hentries

end Session

end MiniShell
