import MiniShell.Proofs.Builtin

/-!
# What commands find

`ls` and `cd` want a directory where a typed path leads, `cat` and `grep` want a file. They look for
it in the same place, and one that does not find what it wants says the same whether something else
is there or nothing.

* `Finds`: what it means to want a node of some kind;
* `finds_ls`, `finds_cd`, `finds_cat`, `finds_grep`: the four commands want one;
* `path_commands_agree`: when they succeed, and what they say if they do not.
-/

namespace MiniShell

lemma ShellError.unreachableText_ne (command path : String) :
    unreachableText command path ≠ "" := by
  unfold unreachableText
  split <;> simp [toString]

namespace Builtin

variable {α : Type} {kind : NodeKind} {command : Command} {name typed pattern line : String}
  {arguments : List String} {env : Environment} {step : Environment → Except ShellError α}

/-! ## Wanting a node -/

/-- A step of a command that wants a node of some kind where a typed path leads. It succeeds if
there is one; if not, it says that the path does not lead to one, whatever is there instead. -/
structure Finds (kind : NodeKind) (name typed : String)
    (step : Environment → Except ShellError α) : Prop where
  isOk_iff : ∀ env, (step env).isOk = true
    ↔ (env.tree.lookup (env.resolve typed)).map Node.kind = some kind
  text_eq : ∀ env e, step env = .error e → e.text = ShellError.unreachableText name typed

lemma finds_directoryAt (name typed : String) :
    Finds .directory name typed (directoryAt name typed typed) := by
  constructor
  · intro env
    unfold directoryAt
    split
    case h_1 hdir => simp [hdir, Node.kind, Except.isOk, Except.toBool]
    case h_2 hfile => simp [hfile, Node.kind, Except.isOk, Except.toBool]
    case h_3 hnone => simp [hnone, Except.isOk, Except.toBool]
  · intro env e herror
    unfold directoryAt at herror
    split at herror
    · nomatch herror
    all_goals
      obtain rfl := Except.error.inj herror
      rfl

lemma finds_contentAt (name typed : String) :
    Finds .file name typed (contentAt name typed) := by
  constructor
  · intro env
    unfold contentAt
    split
    case h_1 hfile => simp [hfile, Node.kind, Except.isOk, Except.toBool]
    case h_2 hdir => simp [hdir, Node.kind, Except.isOk, Except.toBool]
    case h_3 hnone => simp [hnone, Except.isOk, Except.toBool]
  · intro env e herror
    unfold contentAt at herror
    split at herror
    · nomatch herror
    all_goals
      obtain rfl := Except.error.inj herror
      rfl

/-- What is made of the node that was found does not matter to `Finds`. -/
lemma Finds.bind_pure {β : Type} (h : Finds kind name typed step) (make : α → β) :
    Finds kind name typed fun env => step env >>= fun a => pure (make a) := by
  constructor
  · intro env
    rw [← h.isOk_iff]
    cases step env <;> rfl
  · intro env e herror
    cases hstep : step env with
    | error cause =>
      rw [hstep] at herror
      obtain rfl := Except.error.inj herror
      exact h.text_eq env cause hstep
    | ok a =>
      rw [hstep] at herror
      nomatch herror

/-! ## The four commands -/

/-- A command that makes something of the node that a step finds wants the node, as `Finds` says of
the step. -/
lemma Finds.runCommand (h : Finds kind command.name typed step) (hmem : command ∈ commands)
    (hname : command.name ≠ "help") (make : α → Output)
    (hresult : ∀ env, (command.run arguments env).result = step env >>= fun a => pure (make a)) :
    Finds kind command.name typed fun env =>
      (registry.runCommand command.name arguments env).result := by
  simp only [runCommand_of_mem hmem hname, hresult]
  exact h.bind_pure make

/-- The command `ls` wants a directory, if what it is given is no option. -/
lemma finds_ls (hoption : typed.toList.head? ≠ some '-') :
    Finds .directory "ls" typed fun env => (registry.runCommand "ls" [typed] env).result := by
  have htarget : firstTarget? [typed] = some typed := by simp [firstTarget?, hoption]
  refine (finds_directoryAt ls.name typed).runCommand (show ls ∈ commands by simp [commands])
    (by decide) (fun entries => .lines [listingLine ([typed].contains "-a") entries.listings])
    fun env => ?_
  simp only [ls, Command.reporting, htarget, Option.getD_some]

lemma finds_cd (typed : String) :
    Finds .directory "cd" typed fun env => (registry.runCommand "cd" [typed] env).result := by
  refine (finds_directoryAt cd.name typed).runCommand (show cd ∈ commands by simp [commands])
    (by decide) (fun _ => .nothing) fun env => ?_
  simp only [cd, List.head?_cons, Option.getD_some]
  cases directoryAt "cd" typed typed env <;> rfl

lemma finds_cat (typed : String) :
    Finds .file "cat" typed fun env => (registry.runCommand "cat" [typed] env).result :=
  (finds_contentAt cat.name typed).runCommand (show cat ∈ commands by simp [commands])
    (by decide) (fun content => .lines ((Text.splitLines content).map .plain)) fun _ => rfl

lemma finds_grep (pattern typed : String) :
    Finds .file "grep" typed fun env =>
      (registry.runCommand "grep" [pattern, typed] env).result :=
  (finds_contentAt grep.name typed).runCommand (show grep ∈ commands by simp [commands])
    (by decide) (fun content => .lines (matchingLines pattern content)) fun _ => rfl

/-! ## Success and failure -/

/-- A line whose command does not find what it wants shows one diagnostic, and stays. -/
lemma Finds.runLine_of_not_isOk
    (h : Finds kind name typed fun env => (registry.runCommand name arguments env).result)
    (hwords : Text.words line = name :: arguments)
    (hfails : ¬ (registry.runCommand name arguments env).result.isOk = true) :
    registry.runLine line env
      = (.lines [{ spans := [{ text := ShellError.unreachableText name typed, style := .error }] }],
          env.cwd) := by
  cases hresult : (registry.runCommand name arguments env).result with
  | ok output =>
    rw [hresult] at hfails
    exact absurd rfl hfails
  | error e =>
    have htext : e.text = ShellError.unreachableText name typed := h.text_eq env e hresult
    rw [runLine_of_error hwords hresult, htext, Line.error, Line.styled,
      Line.push_of_ne (ShellError.unreachableText_ne name typed)]
    rfl

/-- **Commands agree on what is there.** Let a typed path not start with `-`. Then `ls` and `cd`
succeed on it where it leads to a directory, `cat` and `grep` where it leads to a file; so a command
of one pair never succeeds together with one of the other, and all four fail where it leads to
nothing, and only there. One that fails shows a single diagnostic, which tells only its name and the
path, and stays. After `cd` has succeeded, `pwd` shows what the path was resolved to. -/
theorem path_commands_agree (env : Environment) (pattern typed : String)
    (hoption : typed.toList.head? ≠ some '-') :
    let uses := [("ls", [typed]), ("cd", [typed]), ("cat", [typed]), ("grep", [pattern, typed])]
    let succeeds := fun (name : String) (arguments : List String) =>
      (registry.runCommand name arguments env).result.isOk = true
    let found := (env.tree.lookup (env.resolve typed)).map Node.kind
    (succeeds "ls" [typed] ↔ found = some .directory) ∧
      (succeeds "cd" [typed] ↔ found = some .directory) ∧
      (succeeds "cat" [typed] ↔ found = some .file) ∧
      (succeeds "grep" [pattern, typed] ↔ found = some .file) ∧
      ¬ (succeeds "ls" [typed] ∧ succeeds "cat" [typed]) ∧
      (¬ succeeds "ls" [typed] ∧ ¬ succeeds "cat" [typed]
        ↔ env.tree.lookup (env.resolve typed) = none) ∧
      (∀ name arguments, (name, arguments) ∈ uses → ¬ succeeds name arguments →
        ∀ line, Text.words line = name :: arguments →
          registry.runLine line env
            = (.lines
                [{ spans := [{ text := ShellError.unreachableText name typed, style := .error }] }],
                env.cwd)) ∧
      (succeeds "cd" [typed] →
        ∀ moving showing (next : Environment), Text.words moving = ["cd", typed] →
          Text.words showing = ["pwd"] → next.cwd = (registry.runLine moving env).2 →
          (registry.runLine showing next).1.toLines.map Line.text = [env.resolve typed]) := by
  intro uses succeeds found
  have hls : succeeds "ls" [typed] ↔ found = some .directory := (finds_ls hoption).isOk_iff env
  have hcd : succeeds "cd" [typed] ↔ found = some .directory := (finds_cd typed).isOk_iff env
  have hcat : succeeds "cat" [typed] ↔ found = some .file := (finds_cat typed).isOk_iff env
  have hgrep : succeeds "grep" [pattern, typed] ↔ found = some .file :=
    (finds_grep pattern typed).isOk_iff env
  refine ⟨hls, hcd, hcat, hgrep, ?_, ?_, ?_, ?_⟩
  · rw [hls, hcat]
    -- no node is of both kinds
    intro hboth
    obtain ⟨hdirectory, hfile⟩ := hboth
    rw [hdirectory] at hfile
    nomatch hfile
  · rw [hls, hcat, ← Option.map_eq_none_iff (f := Node.kind)]
    -- there are only two kinds, so what is of neither is not there
    show _ ↔ found = none
    cases found with
    | none => simp
    | some kind => cases kind <;> simp
  · intro name arguments hmem hfails line hwords
    simp only [uses, List.mem_cons, Prod.mk.injEq, List.not_mem_nil, or_false] at hmem
    rcases hmem with ⟨rfl, rfl⟩ | ⟨rfl, rfl⟩ | ⟨rfl, rfl⟩ | ⟨rfl, rfl⟩
    · exact (finds_ls hoption).runLine_of_not_isOk hwords hfails
    · exact (finds_cd typed).runLine_of_not_isOk hwords hfails
    · exact (finds_cat typed).runLine_of_not_isOk hwords hfails
    · exact (finds_grep pattern typed).runLine_of_not_isOk hwords hfails
  · intro hmoved moving showing next hmoving hshowing hnext
    -- the `cd` succeeded, so there is a directory and `next` starts in it
    obtain ⟨node, hlookup, hkind⟩ := Option.map_eq_some_iff.1 (hcd.1 hmoved)
    cases node with
    | file content => nomatch hkind
    | directory entries =>
      rw [runLine_cd hmoving hlookup] at hnext
      rw [runLine_pwd hshowing next, hnext]
      exact congrArg (fun text => [text]) (Line.text_plain _)

/-- A file is no directory to `cd`, and reads like nothing at all; and a directory behind a detour
is one that `pwd` shows without it. -/
theorem path_commands_agree_detour :
    let env : Environment :=
      { config := {}
        tree := ((Tree.empty.edit (.makeDirectory "/d")).1.edit (.write "/f" "x")).1
        clock := .ok (.ofUnixSeconds 0)
        cwd := "/"
        history := [] }
    let succeeds := fun (name : String) (arguments : List String) =>
      (registry.runCommand name arguments env).result.isOk = true
    "f".toList.head? ≠ some '-' ∧ Text.words "cd f" = ["cd", "f"] ∧
      succeeds "cat" ["f"] ∧ succeeds "grep" ["-", "f"] ∧ ¬ succeeds "cd" ["f"] ∧
      registry.runLine "cd f" env
        = (.lines [{ spans := [{ text := "cd: f: No such file or directory", style := .error }] }],
            "/") ∧
      "d/../d".toList.head? ≠ some '-' ∧ Text.words "cd d/../d" = ["cd", "d/../d"] ∧
      Text.words "pwd" = ["pwd"] ∧ succeeds "cd" ["d/../d"] ∧
      (registry.runLine "pwd"
          { env with cwd := (registry.runLine "cd d/../d" env).2 }).1.toLines.map Line.text
        = ["/d"] := by
  intro env succeeds
  have hcdf : Text.words "cd f" = ["cd", "f"] := by decide +kernel
  have hcdd : Text.words "cd d/../d" = ["cd", "d/../d"] := by decide +kernel
  have hpwd : Text.words "pwd" = ["pwd"] := by decide +kernel
  have hfile : (env.tree.lookup (env.resolve "f")).map Node.kind = some .file := by
    decide +kernel
  have hdir : (env.tree.lookup (env.resolve "d/../d")).map Node.kind = some .directory := by
    decide +kernel
  have hresolve : env.resolve "d/../d" = "/d" := by decide +kernel
  obtain ⟨-, hcd, hcat, hgrep, -, -, hfails, -⟩ := path_commands_agree env "-" "f" (by decide)
  obtain ⟨-, hmoves, -, -, -, -, -, hshows⟩ :=
    path_commands_agree env "-" "d/../d" (by decide)
  have hnot : ¬ succeeds "cd" ["f"] := by
    intro hmoved
    have hboth := hfile.symm.trans (hcd.1 hmoved)
    nomatch hboth
  have hmoved : succeeds "cd" ["d/../d"] := hmoves.2 hdir
  have hshown := hshows hmoved "cd d/../d" "pwd"
    { env with cwd := (registry.runLine "cd d/../d" env).2 } hcdd hpwd rfl
  exact ⟨by decide, hcdf, hcat.2 hfile, hgrep.2 hfile, hnot,
    hfails "cd" ["f"] (by simp) hnot "cd f" hcdf, by decide, hcdd, hpwd, hmoved,
    hshown.trans (congrArg (fun text => [text]) hresolve)⟩

end Builtin

end MiniShell
