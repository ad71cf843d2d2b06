import MiniShell.Proofs.Path.Resolve
import MiniShell.Proofs.Session.WorkingDirectory

/-!
# Reading configured files

What a configuration puts into a file is what the shell shows of it, from wherever it is asked.

* `submit_cat`: what is shown for a file at an absolute path;
* `cat_run`: configured files during a run.
-/

namespace MiniShell.Session

open MiniShell.Path

variable {path content : String}

/-- With an absolute path of names, `cat` shows the file at its segments, and stays. -/
lemma submit_cat (machine : Machine) (session : Session)
    (habsolute : path.toList.head? = some '/') (hblank : ∀ c ∈ path.toList, Text.isBlank c = false)
    (hnames : ∀ name ∈ segments path, isRelative name = false)
    (hfile : machine.tree.at? (segments path) = some (.file content)) :
    (session.submit machine ("cat " ++ path)).2 = (Text.splitLines content).map .plain ∧
      (session.submit machine ("cat " ++ path)).1.cwd = session.cwd := by
  have hne : path ≠ "" := by
    rintro rfl
    simp at habsolute
  -- neither word has a blank in it
  have hwords : Text.words ("cat " ++ path) = ["cat", path] := by
    have hline : "cat " ++ path = "cat" ++ " " ++ path := rfl
    have hcat : ∀ c ∈ "cat".toList, Text.isBlank c = false :=
      Text.no_blank_of_all (by decide +kernel)
    rw [hline, Text.words_append_blank, Text.words_of_no_blank (by decide) hcat,
      Text.words_of_no_blank hne hblank]
    rfl
  have hlookup : machine.tree.lookup ((session.environment machine).resolve path)
      = some (.file content) := by
    rw [Environment.resolve, resolve_of_absolute habsolute, Tree.lookup_eq_file,
      segments_normalize hnames]
    exact hfile
  have hrun : Builtin.registry.runLine ("cat " ++ path) (session.environment machine)
      = (.lines ((Text.splitLines content).map .plain), session.cwd) :=
    Builtin.runLine_cat hwords hlookup
  rw [shown_submit, cwd_submit, hrun]
  exact ⟨rfl, rfl⟩

/-- **Configured files read back.** After every run on the machine of a usable configuration, `cat`
and the path of a configured file without blanks shows, line by line, the content that the
configuration gives last to a file at the same segments, and stays in the working directory. -/
theorem cat_run (config : Config) (valid : config.problem? = none) (clock : Reading)
    (machine : Machine) (built : Machine.ofConfig config clock = .ok machine)
    (actions : List (Reading × Action)) (file : SeedFile) (hfile : file ∈ config.files)
    (hblank : ∀ c ∈ file.path.toList, Text.isBlank c = false) :
    let session := ((start config).run machine actions).1
    ∀ (reading : Reading) (action : Action), session.line? action = some ("cat " ++ file.path) →
      let done := session.act (machine.withClock reading) action
      ∃ shown, done.2 = some shown ∧
        config.content? file.names = some (Text.joinLines (shown.map Line.text)) ∧
        done.1.cwd = session.cwd := by
  intro session reading action hline
  obtain ⟨-, htree⟩ := Machine.of_ofConfig built
  obtain ⟨-, -, habsolute⟩ := Config.problem?_eq_none_iff.1 valid
  have hseedable := (Config.exists_seededTree_iff valid).1 ⟨machine.tree, htree⟩
  obtain ⟨-, hnames⟩ := hseedable.files_named file hfile
  obtain ⟨content, hcontent, hat⟩ := Config.exists_at?_of_mem valid htree hfile
  obtain ⟨hshown, hcwd⟩ := act_of_line? hline (machine.withClock reading)
  obtain ⟨hlines, hstay⟩ := submit_cat (machine.withClock reading) session
    (habsolute file hfile) hblank hnames hat
  have htexts : ((Text.splitLines content).map Line.plain).map Line.text
      = Text.splitLines content := by
    simp [Function.comp_def, Line.text_plain]
  refine ⟨_, hshown, ?_, hcwd.trans hstay⟩
  rw [hlines, htexts, Text.joinLines_splitLines, hcontent]

/-- A file spelled with more slashes than where it was given last, with a carriage return and empty
lines, read from another directory. -/
theorem cat_run_respelled :
    let file : SeedFile := ⟨"/etc//motd/", "first"⟩
    let config : Config := { files := [file, ⟨"/etc/motd", "a\r\n\n"⟩] }
    let now : Reading := .ok (.ofUnixSeconds 0)
    let actions : List (Reading × Action) := [(now, .submit "cd /var"), (now, .event (.type 'x'))]
    ∃ machine, config.problem? = none ∧ Machine.ofConfig config now = .ok machine ∧
      file ∈ config.files ∧ (∀ c ∈ file.path.toList, Text.isBlank c = false) ∧
      let session := ((start config).run machine actions).1
      let done := session.act (machine.withClock now) (.submit "cat /etc//motd/")
      ∃ shown, done.2 = some shown ∧ Text.joinLines (shown.map Line.text) = "a\r\n\n" ∧
        done.1.cwd = session.cwd := by
  intro file config now actions
  have valid : config.problem? = none := by decide +kernel
  have hfile : file ∈ config.files := List.mem_cons_self
  have hblank : ∀ c ∈ file.path.toList, Text.isBlank c = false :=
    Text.no_blank_of_all (by decide +kernel)
  have hlast : config.content? file.names = some "a\r\n\n" := by decide +kernel
  obtain ⟨machine, built⟩ : ∃ machine, Machine.ofConfig config now = .ok machine :=
    exists_eq_ok_of_isOk (by decide +kernel)
  obtain ⟨shown, hshown, hcontent, hstay⟩ :=
    cat_run config valid now machine built actions file hfile hblank now
      (.submit "cat /etc//motd/") rfl
  rw [hlast, Option.some.injEq] at hcontent
  exact ⟨machine, valid, built, hfile, hblank, shown, hshown, hcontent.symm, hstay⟩

end MiniShell.Session
