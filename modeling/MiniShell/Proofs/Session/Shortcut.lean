import MiniShell.Proofs.Path.Composition
import MiniShell.Proofs.Session.Moves

/-!
# Moves in one step

What two moves reach, one move along both ways reaches, unless the second way starts at the root or
at home. The directory between the two has to be there for the two moves, and need not be for the
one. A move that succeeds shows nothing, and one that fails shows why.

* `submit_cd_eq_nil_iff`, `cwd_submit_cd_of_nil`: when a move succeeds, and where it leads;
* `submit_cd_append_slash`: two moves and the one move instead.
-/

namespace MiniShell

open MiniShell.Path

variable {line typed : String} {arguments : List String}

/-! ## Moves that succeed -/

namespace Builtin

variable {env : Environment}

/-- A `cd` along a path shows nothing if the path leads to a directory, and why it stays otherwise.
-/
lemma toLines_runLine_cd_eq_nil_iff (hwords : Text.words line = "cd" :: typed :: arguments) :
    (registry.runLine line env).1.toLines = []
      ↔ ∃ entries, env.tree.lookup (env.resolve typed) = some (.directory entries) := by
  constructor
  · intro hnil
    rw [runLine_of_mem (show cd ∈ commands by simp [commands]) (by decide) hwords] at hnil
    cases hdir : directoryAt "cd" typed typed env with
    | error cause =>
      have hresult : (cd.run (typed :: arguments) env).result = .error cause := by
        simp only [cd, List.head?_cons, Option.getD_some, hdir]
      rw [hresult] at hnil
      exact absurd hnil (List.cons_ne_nil _ _)
    | ok entries => exact ⟨entries, (directoryAt_eq_ok_iff "cd").1 hdir⟩
  · rintro ⟨entries, hentries⟩
    have hrun : registry.runLine line env = (.nothing, env.resolve typed) :=
      runLine_cd hwords hentries
    rw [hrun]
    rfl

end Builtin

namespace Session

variable {machine : Machine} {session : Session}

lemma submit_cd_eq_nil_iff (hwords : Text.words line = "cd" :: typed :: arguments) :
    (session.submit machine line).2 = []
      ↔ ∃ entries, machine.tree.lookup (resolve session.cwd machine.config.home typed)
        = some (.directory entries) := by
  rw [shown_submit, Builtin.toLines_runLine_cd_eq_nil_iff hwords]
  rfl

/-- A `cd` that shows nothing leads to the directory that it names. -/
lemma cwd_submit_cd_of_nil (hwords : Text.words line = "cd" :: typed :: arguments)
    (hnil : (session.submit machine line).2 = []) :
    (session.submit machine line).1.cwd = resolve session.cwd machine.config.home typed :=
  cwd_submit_cd hwords ((submit_cd_eq_nil_iff hwords).1 hnil)

/-! ## Two moves and one -/

/-- **Moves compose.** A path behind something typed, with a slash between them, resolves as it does
where the path typed leads, if it goes on from there. So if `cd` succeeds for the one path and then
for the other, `cd` along both succeeds as well and ends in the same directory. -/
theorem submit_cd_append_slash {first second : String} (hfirst : first ≠ "")
    (hsecond : IsOnward second) :
    (∀ cwd home, resolve cwd home (first ++ "/" ++ second)
      = resolve (resolve cwd home first) home second) ∧
    ∀ (machine : Machine) (session : Session) (line next direct : String)
      (inLine inNext inDirect : List String) (atLine atNext atDirect : Reading),
      Text.words line = "cd" :: first :: inLine →
      Text.words next = "cd" :: second :: inNext →
      Text.words direct = "cd" :: (first ++ "/" ++ second) :: inDirect →
      let once := session.submit (machine.withClock atLine) line
      let twice := once.1.submit (machine.withClock atNext) next
      let straight := session.submit (machine.withClock atDirect) direct
      once.2 = [] → twice.2 = [] → straight.2 = [] ∧ straight.1.cwd = twice.1.cwd := by
  refine ⟨resolve_append_slash hfirst hsecond, ?_⟩
  intro machine session line next direct inLine inNext inDirect atLine atNext atDirect
    hline hnext hdirect once twice straight honce htwice
  have hbetween : once.1.cwd = resolve session.cwd machine.config.home first :=
    cwd_submit_cd_of_nil hline honce
  have hend : twice.1.cwd = resolve once.1.cwd machine.config.home second :=
    cwd_submit_cd_of_nil hnext htwice
  have hsame : resolve session.cwd machine.config.home (first ++ "/" ++ second)
      = resolve once.1.cwd machine.config.home second := by
    rw [resolve_append_slash hfirst hsecond, hbetween]
  -- the second `cd` succeeded, so there is a directory at the place where both ways lead
  have hreached := (submit_cd_eq_nil_iff hnext).1 htwice
  have hthere : ∃ entries, machine.tree.lookup
      (resolve session.cwd machine.config.home (first ++ "/" ++ second))
        = some (.directory entries) := by
    rw [hsame]
    exact hreached
  have hstraight : straight.2 = [] := (submit_cd_eq_nil_iff hdirect).2 hthere
  refine ⟨hstraight, ?_⟩
  rw [hend, ← hsame]
  exact cwd_submit_cd_of_nil hdirect hstraight

/-- From home down, and up and down again. -/
theorem submit_cd_append_slash_upward :
    let tree := ((Tree.empty.edit (.makeDirectory "/a/b")).1.edit (.makeDirectory "/a/c")).1
    let now : Reading := .ok (.ofUnixSeconds 0)
    let machine : Machine := { config := { home := "/a" }, tree, clock := now }
    let session : Session := { cwd := "/", transcript := [] }
    let once := session.submit (machine.withClock now) "cd ~/b"
    let twice := once.1.submit (machine.withClock now) "cd ../c/"
    let straight := session.submit (machine.withClock now) "cd ~/b/../c/"
    "~/b" ≠ "" ∧ IsOnward "../c/" ∧ once.2 = [] ∧ twice.2 = [] ∧ straight.2 = [] ∧
      straight.1.cwd = "/a/c" := by
  intro tree now machine session once twice straight
  have hfirst : "~/b" ≠ "" := by decide
  have hsecond : IsOnward "../c/" := ⟨by decide, by decide, by decide⟩
  have hline : Text.words "cd ~/b" = ["cd", "~/b"] := by decide +kernel
  have hnext : Text.words "cd ../c/" = ["cd", "../c/"] := by decide +kernel
  have hdirect : Text.words "cd ~/b/../c/" = ["cd", "~/b" ++ "/" ++ "../c/"] := by decide +kernel
  have honce : once.2 = [] :=
    (submit_cd_eq_nil_iff hline).2 (Tree.lookup_eq_directory.2 (by decide +kernel))
  have hbetween : once.1.cwd = "/a/b" :=
    (cwd_submit_cd_of_nil hline honce).trans (by decide +kernel)
  have htwice : twice.2 = [] := by
    apply (submit_cd_eq_nil_iff hnext).2
    rw [hbetween]
    exact Tree.lookup_eq_directory.2 (by decide +kernel)
  have hend : twice.1.cwd = "/a/c" := by
    rw [cwd_submit_cd_of_nil hnext htwice, hbetween]
    decide +kernel
  obtain ⟨hstraight, hsame⟩ := (submit_cd_append_slash hfirst hsecond).2 machine session
    "cd ~/b" "cd ../c/" "cd ~/b/../c/" [] [] [] now now now hline hnext hdirect honce htwice
  exact ⟨hfirst, hsecond, honce, htwice, hstraight, hsame.trans hend⟩

end Session

end MiniShell
