import MiniShell.Proofs.Builtin
import MiniShell.Proofs.Seed.Tree
import MiniShell.Proofs.Session.Moves

/-!
# The working directory over a run

A session starts at home, which is a directory of the seeded tree, and moves only to directories
that are there. Since the tree never changes, the session can always look around and go home.

* `Session.Settled`: the invariant;
* `Session.Settled.run`: every run keeps it;
* `Session.submit_ls`, `Session.submit_cd`: looking around and going home, wherever that is;
* `Session.cwd_run`: what a settled session can always do.
-/

namespace MiniShell

open MiniShell.Path

lemma Machine.of_ofConfig {config : Config} {clock : Reading} {machine : Machine}
    (built : Machine.ofConfig config clock = .ok machine) :
    machine.config = config ∧ config.seededTree = .ok machine.tree := by
  rw [Machine.ofConfig_eq] at built
  cases htree : config.seededTree with
  | ok tree =>
    rw [htree, Except.mapError, Except.map, Except.ok.injEq] at built
    subst built
    exact ⟨rfl, rfl⟩
  | error cause =>
    rw [htree] at built
    nomatch built

namespace Session

/-- The working directory is a path in normal form to a directory of the tree. -/
structure Settled (tree : Tree) (session : Session) : Prop where
  normal : isNormal session.cwd = true
  there : ∃ entries, tree.lookup session.cwd = some (.directory entries)

namespace Settled

variable {machine : Machine} {session other : Session}

/-- A fresh session is `Settled` at home. -/
theorem start {config : Config} (valid : config.problem? = none) {tree : Tree}
    (built : config.seededTree = .ok tree) : Settled tree (Session.start config) := by
  obtain ⟨hhome, -, -⟩ := Config.problem?_eq_none_iff.1 valid
  exact ⟨hhome, Tree.lookup_eq_directory.2 (Config.at?_home valid built)⟩

lemma congr {tree : Tree} (hlog : other.log = session.log) (h : Settled tree session) :
    Settled tree other := by
  have hcwd : other.cwd = session.cwd := congrArg Log.cwd hlog
  refine ⟨?_, ?_⟩ <;> rw [hcwd]
  · exact h.normal
  · exact h.there

/-- A submitted line leaves the session `Settled`, whatever directory the line leads to. -/
lemma submit (h : Settled machine.tree session) (line : String) :
    Settled machine.tree (session.submit machine line).1 := by
  rcases Builtin.cwd_runLine line (session.environment machine) with
    hstay | ⟨typed, entries, hmove, hdir⟩
  · refine ⟨?_, ?_⟩ <;> rw [cwd_submit, hstay]
    · exact h.normal
    · exact h.there
  · -- the session moved, and only to a directory that the line led to
    refine ⟨?_, ?_⟩ <;> rw [cwd_submit, hmove]
    · exact isNormal_resolve h.normal _ _
    · exact ⟨entries, hdir⟩

/-- A run leaves the session `Settled`. -/
theorem run (h : Settled machine.tree session) (actions : List (Reading × Action)) :
    Settled machine.tree (session.run machine actions).1 := by
  refine run_induction_submit (fun session other hlog hsettled => hsettled.congr hlog)
    (fun session reading line hsettled => ?_) h actions
  -- the time is no part of the tree
  have hclock : Settled (machine.withClock reading).tree session := hsettled
  exact hclock.submit line

end Settled

/-! ## Looking around and going home -/

section

variable {session : Session} {line : String} {action : Action} {entries : Directory}

/-- Alone, `ls` shows the `listingLine` of the working directory. -/
lemma submit_ls (machine : Machine) (hwords : Text.words line = ["ls"])
    (hdir : machine.tree.lookup session.cwd = some (.directory entries)) :
    (session.submit machine line).2 = [Builtin.listingLine false entries.listings] := by
  have hrun : Builtin.registry.runLine line (session.environment machine)
      = (.lines [Builtin.listingLine false entries.listings], session.cwd) :=
    Builtin.runLine_ls hwords hdir
  rw [shown_submit, hrun]
  rfl

/-- Alone, `cd` shows nothing and goes home. -/
lemma submit_cd (machine : Machine) (session : Session) (hwords : Text.words line = ["cd"])
    (hhome : isNormal machine.config.home = true)
    (hdir : machine.tree.lookup machine.config.home = some (.directory entries)) :
    (session.submit machine line).2 = [] ∧
      (session.submit machine line).1.cwd = machine.config.home := by
  have hresolve : (session.environment machine).resolve "~" = machine.config.home :=
    resolve_tilde hhome session.cwd
  have hrun : Builtin.registry.runLine line (session.environment machine)
      = (.nothing, machine.config.home) := by
    rw [← hresolve] at hdir ⊢
    exact Builtin.runLine_cd hwords hdir
  rw [shown_submit, cwd_submit, hrun]
  exact ⟨rfl, rfl⟩

lemma act_of_line? (hline : session.line? action = some line) (machine : Machine) :
    (session.act machine action).2 = some (session.submit machine line).2 ∧
      (session.act machine action).1.cwd = (session.submit machine line).1.cwd := by
  obtain ⟨hshown, hlog⟩ := act_of_line?_eq_some hline machine
  exact ⟨hshown, congrArg Log.cwd hlog⟩

end

/-- **Working directory.** After every run on the machine of a usable configuration, the working
directory is in normal form and a directory of the tree; `ls` alone shows it and `cd` alone goes
home, however the line is submitted, and neither shows a diagnostic. -/
theorem cwd_run (config : Config) (valid : config.problem? = none) (clock : Reading)
    (machine : Machine) (built : Machine.ofConfig config clock = .ok machine)
    (actions : List (Reading × Action)) :
    let session := ((start config).run machine actions).1
    isNormal session.cwd = true ∧
      ∃ entries : Directory, machine.tree.lookup session.cwd = some (.directory entries) ∧
        ∀ (reading : Reading) (action : Action) (line : String),
          session.line? action = some line →
          let done := session.act (machine.withClock reading) action
          (Text.words line = ["ls"] →
            done.2 = some [Builtin.listingLine false entries.listings] ∧
              (Builtin.listingLine false entries.listings).spansOf .error = []) ∧
          (Text.words line = ["cd"] → done.2 = some [] ∧ done.1.cwd = config.home) := by
  intro session
  obtain ⟨hconfig, htree⟩ := Machine.of_ofConfig built
  obtain ⟨hhome, -, -⟩ := Config.problem?_eq_none_iff.1 valid
  have hsettled : Settled machine.tree session := (Settled.start valid htree).run actions
  obtain ⟨entries, hdir⟩ := hsettled.there
  obtain ⟨homeEntries, hhomeDir⟩ := Tree.lookup_eq_directory.2 (Config.at?_home valid htree)
  refine ⟨hsettled.normal, entries, hdir, fun reading action line hline => ?_⟩
  obtain ⟨hshown, hcwd⟩ := act_of_line? hline (machine.withClock reading)
  refine ⟨fun hwords => ⟨?_, Builtin.spansOf_listingLine _ _⟩, fun hwords => ?_⟩
  · rw [hshown, submit_ls (machine.withClock reading) hwords hdir]
  · subst hconfig
    obtain ⟨hnothing, hgone⟩ :=
      submit_cd (machine.withClock reading) session hwords hhome hhomeDir
    rw [hshown, hcwd, hnothing]
    exact ⟨rfl, hgone⟩

/-- A stock session that moved to `/var/log` and is recalling a line can list `/var/log` and go
home. -/
theorem cwd_run_stock :
    let config : Config := {}
    let now : Reading := .ok (.ofUnixSeconds 0)
    let actions : List (Reading × Action) :=
      [(now, .submit "cd /var/log"), (now, .event (.type 'l')), (now, .event (.press .up))]
    ∃ machine, config.problem? = none ∧ Machine.ofConfig config now = .ok machine ∧
      let session := ((start config).run machine actions).1
      session.cwd = "/var/log" ∧ isNormal session.cwd = true ∧
        ∃ entries : Directory, machine.tree.lookup session.cwd = some (.directory entries) ∧
          (session.act (machine.withClock now) (.submit "ls")).2
            = some [Builtin.listingLine false entries.listings] ∧
          (session.act (machine.withClock now) (.submit " cd ")).1.cwd = "/home/namour" := by
  intro config now actions
  have valid : config.problem? = none := by decide +kernel
  obtain ⟨machine, built⟩ : ∃ machine, Machine.ofConfig config now = .ok machine :=
    exists_eq_ok_of_isOk (by decide +kernel)
  obtain ⟨hconfig, htree⟩ := Machine.of_ofConfig built
  obtain ⟨hnormal, entries, hdir, hshow⟩ := cwd_run config valid now machine built actions
  have hls := (hshow now (.submit "ls") "ls" rfl).1 (by decide +kernel)
  have hcd := (hshow now (.submit " cd ") " cd " rfl).2 (by decide +kernel)
  have hthere : ∃ entries, machine.tree.lookup "/var/log" = some (.directory entries) := by
    rw [Tree.lookup_eq_directory, Config.at?_seededTree valid htree]
    decide +kernel
  have hcwd : ((start config).run machine actions).1.cwd = "/var/log" := by
    let moved := ((start config).submit (machine.withClock now) "cd /var/log").1
    have hresolve : resolve (start config).cwd machine.config.home "/var/log" = "/var/log" := by
      rw [hconfig]
      decide +kernel
    have hmoved : moved.cwd = resolve (start config).cwd machine.config.home "/var/log" := by
      apply cwd_submit_cd (by decide +kernel : Text.words "cd /var/log" = ["cd", "/var/log"])
      show ∃ entries, machine.tree.lookup (resolve _ machine.config.home "/var/log") = _
      rw [hresolve]
      exact hthere
    -- neither of the two events is remembered
    have htyped : (moved.handle machine (.type 'l')).1.log = moved.log :=
      (handle_of_ne_confirm (by decide) machine moved).2
    have hrecalled : ((moved.handle machine (.type 'l')).1.handle machine (.press .up)).1.log
        = (moved.handle machine (.type 'l')).1.log :=
      (handle_of_ne_confirm (by decide) machine _).2
    have hlog : ((start config).run machine actions).1.log = moved.log := hrecalled.trans htyped
    exact (congrArg Log.cwd hlog).trans (hmoved.trans hresolve)
  exact ⟨machine, valid, built, hcwd, hnormal, entries, hdir, hls.1, hcd.2⟩

end Session

end MiniShell
