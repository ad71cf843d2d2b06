import Mathlib.Data.List.Nodup
import MiniShell.Builtin.Stock
import MiniShell.Proofs.Path.Normal
import MiniShell.Proofs.Registry

/-!
# The stock commands

Of the stock commands only `cd` moves, and it moves only to directories that are there; and only
`clear` wipes the screen. The two commands that can be run without arguments to look around and to
go home never fail where the working directory and the home are directories.

* `commands_cases`: the stock commands one by one;
* `find?_eq_some_iff`: their names are theirs alone;
* `runLine_cases`: what a line can do;
* `cwd_runLine`: where a line can lead;
* `runCommand_ls`, `runLine_cd`, `runLine_pwd`: looking around and moving;
* `runLine_cat`: reading a file;
* `spansOf_listingLine`: a listing contains no diagnostic;
* `runLine_eq_clear_iff`: the lines that wipe the screen;
* `runLine_withHistory`, `runLine_history`: who looks at the commands submitted before, and what
  they are shown as.
-/

namespace MiniShell.Builtin

variable {command : Command} {name typed shown line : String} {arguments : List String}
  {env : Environment} {entries : Directory}

/-! ## Finding a command -/

/-- Cases on a command of `commands`, named like the commands. -/
theorem commands_cases {motive : (command : Command) → command ∈ commands → Prop}
    (help : motive help (by simp [commands]))
    (ls : motive ls (by simp [commands]))
    (cd : motive cd (by simp [commands]))
    (pwd : motive pwd (by simp [commands]))
    (cat : motive cat (by simp [commands]))
    (grep : motive grep (by simp [commands]))
    (echo : motive echo (by simp [commands]))
    (whoami : motive whoami (by simp [commands]))
    (date : motive date (by simp [commands]))
    (neofetch : motive neofetch (by simp [commands]))
    (superuser : motive superuser (by simp [commands]))
    (history : motive history (by simp [commands]))
    (clear : motive clear (by simp [commands]))
    (command : Command) (hmem : command ∈ commands) : motive command hmem := by
  have hmem' := hmem
  simp only [commands, List.mem_cons, List.not_mem_nil, or_false] at hmem'
  rcases hmem' with rfl | rfl | rfl | rfl | rfl | rfl | rfl | rfl | rfl | rfl | rfl | rfl | rfl
  all_goals assumption

lemma nodup_names : (commands.map Command.name).Nodup := by decide

lemma find?_eq_some_iff :
    registry.find? name = some command ↔ command ∈ commands ∧ command.name = name := by
  rw [registry, Registry.find?_ofList, Registry.lastNamed?]
  constructor
  · intro h
    exact ⟨List.mem_reverse.1 (List.mem_of_find?_eq_some h), by simpa using List.find?_some h⟩
  · rintro ⟨hmem, rfl⟩
    cases hfound : commands.reverse.find? fun other => other.name = command.name with
    | none =>
      have hnone := List.find?_eq_none.1 hfound command (List.mem_reverse.2 hmem)
      simp at hnone
    | some other =>
      have hname : other.name = command.name := by simpa using List.find?_some hfound
      have hother : other ∈ commands := List.mem_reverse.1 (List.mem_of_find?_eq_some hfound)
      rw [List.inj_on_of_nodup_map nodup_names hother hmem hname]

lemma runCommand_of_mem (hmem : command ∈ commands) (hname : command.name ≠ "help")
    (arguments : List String) (env : Environment) :
    registry.runCommand command.name arguments env = command.run arguments env := by
  simp only [Registry.runCommand, if_neg hname, find?_eq_some_iff.2 ⟨hmem, rfl⟩]

/-- A line that starts with the name of a stock command other than `help` runs the command. -/
lemma runLine_of_mem (hmem : command ∈ commands) (hname : command.name ≠ "help")
    (hwords : Text.words line = command.name :: arguments) :
    registry.runLine line env
      = (Registry.report (command.run arguments env).result, (command.run arguments env).cwd) := by
  rw [Registry.runLine, hwords]
  simp only [runCommand_of_mem hmem hname]

/-- A line that `runLine` is given is blank, asks for the help text, runs a stock command or names
none. -/
lemma runLine_cases (line : String) (env : Environment) :
    (Text.words line = [] ∧ registry.runLine line env = (.nothing, env.cwd)) ∨
    (∃ arguments, Text.words line = "help" :: arguments ∧
      registry.runLine line env = (registry.help, env.cwd)) ∨
    (∃ command ∈ commands, ∃ arguments, Text.words line = command.name :: arguments ∧
      registry.runLine line env
        = (Registry.report (command.run arguments env).result,
            (command.run arguments env).cwd)) ∨
    ∃ name arguments, Text.words line = name :: arguments ∧
      registry.runLine line env = (Registry.report (.error (.unknownCommand name)), env.cwd) := by
  cases hwords : Text.words line with
  | nil => exact Or.inl ⟨rfl, by simp only [Registry.runLine, hwords]⟩
  | cons name arguments =>
    simp only [Registry.runLine, hwords, Registry.runCommand]
    by_cases hhelp : name = "help"
    · subst hhelp
      exact Or.inr (Or.inl ⟨arguments, rfl, rfl⟩)
    · simp only [if_neg hhelp]
      cases hfind : registry.find? name with
      | none => exact Or.inr (Or.inr (Or.inr ⟨name, arguments, rfl, rfl⟩))
      | some command =>
        obtain ⟨hmem, rfl⟩ := find?_eq_some_iff.1 hfind
        exact Or.inr (Or.inr (Or.inl ⟨command, hmem, arguments, rfl, rfl⟩))

/-! ## Where commands lead -/

lemma directoryAt_eq_ok_iff (command : String) :
    directoryAt command typed shown env = .ok entries
      ↔ env.tree.lookup (env.resolve typed) = some (.directory entries) := by
  unfold directoryAt
  split <;> simp_all

/-- A stock command other than `cd` stays where it is run. -/
lemma cwd_run_of_ne_cd (hmem : command ∈ commands) (hcd : command ≠ cd)
    (arguments : List String) (env : Environment) : (command.run arguments env).cwd = env.cwd := by
  cases command, hmem using commands_cases with
  | cd => exact absurd rfl hcd
  | _ => rfl

/-- A `cd` stays, or leads to the directory at a typed path. -/
lemma cwd_run_cd (arguments : List String) (env : Environment) :
    (cd.run arguments env).cwd = env.cwd ∨
      ∃ typed entries, (cd.run arguments env).cwd = env.resolve typed ∧
        env.tree.lookup (env.resolve typed) = some (.directory entries) := by
  simp only [cd]
  cases hdir : directoryAt "cd" (arguments.head?.getD "~") (arguments.head?.getD "~") env with
  | error e => exact Or.inl rfl
  | ok entries => exact Or.inr ⟨_, entries, rfl, (directoryAt_eq_ok_iff "cd").1 hdir⟩

lemma cwd_run_cd_of_error {e : ShellError} (h : (cd.run arguments env).result = .error e) :
    (cd.run arguments env).cwd = env.cwd := by
  simp only [cd] at h ⊢
  cases hdir : directoryAt "cd" (arguments.head?.getD "~") (arguments.head?.getD "~") env with
  | error cause => rfl
  | ok entries =>
    rw [hdir] at h
    nomatch h

lemma cwd_runCommand_of_error {e : ShellError}
    (h : (registry.runCommand name arguments env).result = .error e) :
    (registry.runCommand name arguments env).cwd = env.cwd := by
  unfold Registry.runCommand at h ⊢
  split at h
  · nomatch h
  · rename_i hhelp
    rw [if_neg hhelp]
    cases hfind : registry.find? name with
    | none => rfl
    | some command =>
      simp only [hfind] at h ⊢
      obtain ⟨hmem, -⟩ := find?_eq_some_iff.1 hfind
      -- only `cd` could lead elsewhere, and it does not if it fails
      by_cases hcd : command = cd
      · subst hcd
        exact cwd_run_cd_of_error h
      · exact cwd_run_of_ne_cd hmem hcd arguments env

/-- A line whose command fails with `e` shows the diagnostic of `e` alone and stays. -/
lemma runLine_of_error {e : ShellError} (hwords : Text.words line = name :: arguments)
    (h : (registry.runCommand name arguments env).result = .error e) :
    registry.runLine line env = (.lines [.error e.text], env.cwd) := by
  rw [Registry.runLine, hwords]
  simp only [h, cwd_runCommand_of_error h]
  rfl

/-- A line stays in the working directory, or leads to a directory that `env.resolve` finds for a
typed path. -/
theorem cwd_runLine (line : String) (env : Environment) :
    (registry.runLine line env).2 = env.cwd ∨
      ∃ typed entries, (registry.runLine line env).2 = env.resolve typed ∧
        env.tree.lookup (env.resolve typed) = some (.directory entries) := by
  rcases runLine_cases line env with ⟨-, hrun⟩ | ⟨-, -, hrun⟩ |
    ⟨command, hmem, arguments, -, hrun⟩ | ⟨_, _, -, hrun⟩
  · exact Or.inl (congrArg Prod.snd hrun)
  · exact Or.inl (congrArg Prod.snd hrun)
  · rw [hrun]
    by_cases hcd : command = cd
    · subst hcd
      exact cwd_run_cd arguments env
    · exact Or.inl (cwd_run_of_ne_cd hmem hcd arguments env)
  · exact Or.inl (congrArg Prod.snd hrun)

lemma cwd_runLine_of_ne_cd (h : (Text.words line).head? ≠ some "cd") (env : Environment) :
    (registry.runLine line env).2 = env.cwd := by
  rcases runLine_cases line env with ⟨-, hrun⟩ | ⟨-, -, hrun⟩ |
    ⟨command, hmem, arguments, hwords, hrun⟩ | ⟨_, _, -, hrun⟩
  · exact congrArg Prod.snd hrun
  · exact congrArg Prod.snd hrun
  · have hcd : command ≠ cd := by
      rintro rfl
      exact h (by rw [hwords]; rfl)
    rw [hrun]
    exact cwd_run_of_ne_cd hmem hcd arguments env
  · exact congrArg Prod.snd hrun

/-! ## Looking around and going home -/

/-- The path of `ls` is the `firstTarget?` of its arguments, and it shows what is there. -/
lemma runCommand_ls
    (hdir : env.tree.lookup (env.resolve ((firstTarget? arguments).getD ""))
      = some (.directory entries)) :
    registry.runCommand "ls" arguments env
      = { result := .ok (.lines [listingLine (arguments.contains "-a") entries.listings])
          cwd := env.cwd } := by
  have hentries : directoryAt "ls" ((firstTarget? arguments).getD "")
      ((firstTarget? arguments).getD ".") env = .ok entries :=
    (directoryAt_eq_ok_iff "ls").2 hdir
  have hls : registry.runCommand "ls" arguments env = ls.run arguments env :=
    runCommand_of_mem (show ls ∈ commands by simp [commands]) (by decide) arguments env
  rw [hls]
  simp only [ls, Command.reporting, hentries]
  rfl

/-- Alone, `ls` shows what the working directory holds. -/
theorem runLine_ls (hwords : Text.words line = ["ls"])
    (hdir : env.tree.lookup env.cwd = some (.directory entries)) :
    registry.runLine line env = (.lines [listingLine false entries.listings], env.cwd) := by
  have hresolve : env.resolve ((firstTarget? []).getD "") = env.cwd :=
    Path.resolve_empty env.cwd env.config.home
  rw [← hresolve] at hdir
  rw [Registry.runLine, hwords]
  simp only [runCommand_ls hdir]
  rfl

/-- A `cd` leads to the directory it names, or home if it names none, and shows nothing. -/
theorem runLine_cd (hwords : Text.words line = "cd" :: arguments)
    (hdir : env.tree.lookup (env.resolve (arguments.head?.getD "~")) = some (.directory entries)) :
    registry.runLine line env = (.nothing, env.resolve (arguments.head?.getD "~")) := by
  have hentries : directoryAt "cd" (arguments.head?.getD "~") (arguments.head?.getD "~") env
      = .ok entries :=
    (directoryAt_eq_ok_iff "cd").2 hdir
  rw [runLine_of_mem (show cd ∈ commands by simp [commands]) (by decide) hwords]
  simp only [cd, hentries]
  rfl

/-- The line that `pwd` shows is the working directory. -/
theorem runLine_pwd (hwords : Text.words line = "pwd" :: arguments) (env : Environment) :
    registry.runLine line env = (.line env.cwd, env.cwd) := by
  rw [runLine_of_mem (show pwd ∈ commands by simp [commands]) (by decide) hwords]
  rfl

/-! ## Reading -/

lemma contentAt_eq_ok_iff (command : String) {content : String} :
    contentAt command typed env = .ok content
      ↔ env.tree.lookup (env.resolve typed) = some (.file content) := by
  unfold contentAt
  split <;> simp_all

/-- The lines that `cat` shows are those of the file at a typed path, as `Text.splitLines` cuts it.
-/
theorem runLine_cat {content : String} (hwords : Text.words line = "cat" :: typed :: arguments)
    (hfile : env.tree.lookup (env.resolve typed) = some (.file content)) :
    registry.runLine line env
      = (.lines ((Text.splitLines content).map .plain), env.cwd) := by
  have hcontent : contentAt "cat" typed env = .ok content :=
    (contentAt_eq_ok_iff "cat").2 hfile
  rw [runLine_of_mem (show cat ∈ commands by simp [commands]) (by decide) hwords]
  simp only [cat, Command.reporting, hcontent]
  rfl

/-! ## Listings are no diagnostics -/

lemma spansOf_addListing (l : Line) (listing : Listing) :
    (addListing l listing).spansOf .error = l.spansOf .error := by
  -- text of another style adds no diagnostic
  have hpush : ∀ (l : Line) (text : String) (style : Style), style ≠ .error →
      (l.push text style).spansOf .error = l.spansOf .error := by
    intro l text style hstyle
    unfold Line.push Line.spansOf
    split
    · rfl
    · simp [hstyle]
  have hspan : (listingSpan listing).style ≠ .error := by
    unfold listingSpan
    split <;> simp
  unfold addListing
  simp only
  rw [hpush _ _ _ hspan]
  split
  · rfl
  · exact hpush _ _ _ (by simp)

/-- A `listingLine` contains no diagnostic. -/
theorem spansOf_listingLine (all : Bool) (listings : List Listing) :
    (listingLine all listings).spansOf .error = [] := by
  -- by induction on the listings, for any line that they are added to
  have hfold : ∀ (listings : List Listing) (l : Line),
      (listings.foldl addListing l).spansOf .error = l.spansOf .error := by
    intro listings
    induction listings with
    | nil => exact fun l => rfl
    | cons listing listings ih => exact fun l => (ih _).trans (spansOf_addListing l listing)
  rw [listingLine, hfold]
  rfl

/-! ## Wiping the screen -/

/-- What goes on after a step that may fail is not `Output.clear` if it never is after the step's
success. -/
lemma bind_ne_clear {α : Type} {step : Except ShellError α} {next : α → Except ShellError Output}
    (h : ∀ a, next a ≠ .ok .clear) : step >>= next ≠ .ok .clear := by
  cases step with
  | error e => nofun
  | ok a => exact h a

/-- A stock command other than `clear` does not wipe the screen. -/
lemma result_run_of_ne_clear (hmem : command ∈ commands) (hclear : command ≠ clear)
    (arguments : List String) (env : Environment) :
    (command.run arguments env).result ≠ .ok .clear := by
  cases command, hmem using commands_cases with
  | ls | date => exact bind_ne_clear nofun
  | cd =>
    simp only [cd]
    split <;> nofun
  | cat =>
    cases arguments with
    | nil => nofun
    | cons typed rest => exact bind_ne_clear nofun
  | grep =>
    match arguments with
    | [] | [_] => nofun
    | _ :: _ :: _ => exact bind_ne_clear nofun
  | history =>
    simp only [history, Command.reporting]
    split <;> nofun
  | clear => exact absurd rfl hclear
  | help | pwd | echo | whoami | neofetch | superuser => nofun

lemma report_eq_clear_iff {result : Except ShellError Output} :
    Registry.report result = .clear ↔ result = .ok .clear := by
  cases result with
  | ok output => simp [Registry.report]
  | error e => simp [Registry.report]

/-- The lines that wipe the screen are those that start with `clear`. -/
theorem runLine_eq_clear_iff (line : String) (env : Environment) :
    (registry.runLine line env).1 = .clear ↔ (Text.words line).head? = some "clear" := by
  constructor
  · intro h
    rcases runLine_cases line env with ⟨-, hrun⟩ | ⟨-, -, hrun⟩ |
      ⟨command, hmem, arguments, hwords, hrun⟩ | ⟨_, _, -, hrun⟩
    · rw [hrun] at h
      nomatch h
    · rw [hrun] at h
      nomatch h
    · rw [hrun, report_eq_clear_iff] at h
      -- no other stock command wipes the screen
      have hcommand : command = clear := by
        by_contra hne
        exact result_run_of_ne_clear hmem hne arguments env h
      rw [hwords, hcommand]
      rfl
    · rw [hrun] at h
      nomatch h
  · intro h
    obtain ⟨arguments, hwords⟩ := List.head?_eq_some_iff.1 h
    rw [runLine_of_mem (show clear ∈ commands by simp [commands]) (by decide) hwords]
    rfl

/-! ## Looking at the commands submitted before -/

/-- A stock command other than `history` does not look at the entries. -/
lemma run_withHistory (hmem : command ∈ commands) (hhistory : command ≠ history)
    (arguments : List String) (env : Environment) (entries : List String) :
    command.run arguments { env with history := entries } = command.run arguments env := by
  cases command, hmem using commands_cases with
  | history => exact absurd rfl hhistory
  | _ => rfl

lemma runLine_withHistory (h : (Text.words line).head? ≠ some "history") (env : Environment)
    (entries : List String) :
    registry.runLine line { env with history := entries } = registry.runLine line env := by
  apply Registry.runLine_congr
  · rfl
  · intro name arguments command hwords hfind
    obtain ⟨hmem, hname⟩ := find?_eq_some_iff.1 hfind
    have hhistory : command ≠ history := by
      rintro rfl
      exact h (by rw [hwords, ← hname]; rfl)
    exact run_withHistory hmem hhistory arguments env entries

/-- The lines of `historyLines` carry their entries' places. -/
lemma historyLines_eq_mapIdx (number : Nat) (entries : List String) :
    historyLines number entries = entries.mapIdx fun i entry => historyLine (number + i) entry := by
  induction entries generalizing number with
  | nil => rfl
  | cons entry entries ih =>
    rw [historyLines, ih, List.mapIdx_cons]
    simp only [Nat.add_zero, Nat.add_right_comm, Nat.add_assoc]

/-- The lines of `history` are the entries with their numbers, or say that there are none. -/
theorem runLine_history (env : Environment) (h : (Text.words line).head? = some "history") :
    (registry.runLine line env).1
      = .lines (if env.history = [] then [.plain "(no history)"]
          else env.history.mapIdx fun i entry => historyLine (i + 1) entry) := by
  obtain ⟨arguments, hwords⟩ := List.head?_eq_some_iff.1 h
  rw [runLine_of_mem (show history ∈ commands by simp [commands]) (by decide) hwords]
  simp only [history, Command.reporting]
  split
  case h_1 hnone =>
    rw [if_pos hnone]
    rfl
  case h_2 hsome =>
    rw [if_neg hsome, historyLines_eq_mapIdx]
    simp only [Nat.add_comm 1]
    rfl

end MiniShell.Builtin
