import MiniShell.Proofs.Builtin

/-!
# How commands fail

A command fails for one of four reasons: there is none of its name, a path does not lead to the kind
of node that is wanted, an argument is missing, or the clock fails. Nothing else goes wrong,
whatever the tree, the configuration and the arguments are.

* `Wants`: the nodes that commands want;
* `Fails`: the ways in which a command fails, with what it says;
* `result_runCommand_eq_error_iff`: a command fails in these ways and in no other.
-/

namespace MiniShell.Builtin

/-- A command with these arguments wants a node of a kind where a typed path leads. It quotes the
path as `shown`. -/
inductive Wants : String → List String → NodeKind → (typed shown : String) → Prop where
  | listing (arguments : List String) :
      Wants "ls" arguments .directory ((firstTarget? arguments).getD "")
        ((firstTarget? arguments).getD ".")
  | moving (arguments : List String) :
      Wants "cd" arguments .directory (arguments.head?.getD "~") (arguments.head?.getD "~")
  | reading (typed : String) (rest : List String) :
      Wants "cat" (typed :: rest) .file typed typed
  | searching (pattern typed : String) (rest : List String) :
      Wants "grep" (pattern :: typed :: rest) .file typed typed

/-- A command with these arguments fails with an error. The exits of commands that look for a node
are those of `Wants`. -/
inductive Fails (env : Environment) : String → List String → ShellError → Prop where
  /-- No stock command has the name. -/
  | unknown {name : String} (hname : name ∉ commands.map Command.name) (arguments : List String) :
      Fails env name arguments (.unknownCommand name)
  /-- The path leads nowhere. -/
  | nowhere {name : String} {arguments : List String} {kind : NodeKind} {typed shown : String}
      (hwants : Wants name arguments kind typed shown)
      (hlookup : env.tree.lookup (env.resolve typed) = none) :
      Fails env name arguments (.pathNotFound name shown)
  /-- The path leads to a node of the other kind. -/
  | otherKind {name : String} {arguments : List String} {kind : NodeKind} {typed shown : String}
      {node : Node} (hwants : Wants name arguments kind typed shown)
      (hlookup : env.tree.lookup (env.resolve typed) = some node) (hkind : node.kind ≠ kind) :
      Fails env name arguments (.wrongNodeKind name shown kind)
  /-- There is no path to read. -/
  | unnamed : Fails env "cat" [] (.usage "usage: cat [file]")
  /-- There is no pattern to look for, or no path to look in. -/
  | unpaired {arguments : List String} (hshort : arguments.length < 2) :
      Fails env "grep" arguments (.usage "usage: grep [pattern] [filename]")
  /-- The clock does not tell the time. -/
  | timeless {e : ShellError} (hclock : env.clock = .error e) (arguments : List String) :
      Fails env "date" arguments e

variable {command : Command} {name typed shown : String} {arguments : List String}
  {env : Environment} {e : ShellError}

/-! ## Every failure is one of these -/

lemma eq_error_of_bind_pure {α : Type} {step : Except ShellError α} {make : α → Output}
    (h : step >>= (fun a => pure (make a)) = .error e) : step = .error e := by
  cases step with
  | error cause => exact congrArg _ (Except.error.inj h)
  | ok a => nomatch h

/-- A directory that `directoryAt` does not find for a command is an exit of the command. -/
lemma fails_of_directoryAt (hwants : Wants name arguments .directory typed shown)
    (h : directoryAt name typed shown env = .error e) : Fails env name arguments e := by
  unfold directoryAt at h
  split at h
  case h_1 => nomatch h
  case h_2 hfile =>
    obtain rfl := Except.error.inj h
    exact .otherKind hwants hfile (by nofun)
  case h_3 hnone =>
    obtain rfl := Except.error.inj h
    exact .nowhere hwants hnone

lemma fails_of_contentAt (hwants : Wants name arguments .file typed typed)
    (h : contentAt name typed env = .error e) : Fails env name arguments e := by
  unfold contentAt at h
  split at h
  case h_1 => nomatch h
  case h_2 hdir =>
    obtain rfl := Except.error.inj h
    exact .otherKind hwants hdir (by nofun)
  case h_3 hnone =>
    obtain rfl := Except.error.inj h
    exact .nowhere hwants hnone

lemma ok_ne_error {shown : Output} : (.ok shown : Except ShellError Output) ≠ .error e := by
  simp

/-- A stock command fails in one of the ways of `Fails` only. -/
lemma fails_of_mem (hmem : command ∈ commands) (h : (command.run arguments env).result = .error e) :
    Fails env command.name arguments e := by
  cases command, hmem using commands_cases with
  | ls => exact fails_of_directoryAt (.listing arguments) (eq_error_of_bind_pure h)
  | cd =>
    refine fails_of_directoryAt (.moving arguments) ?_
    simp only [cd] at h
    split at h
    case h_1 => exact absurd h ok_ne_error
    case h_2 hdir =>
      obtain rfl := Except.error.inj h
      exact hdir
  | cat =>
    cases arguments with
    | nil =>
      obtain rfl := Except.error.inj h
      exact .unnamed
    | cons typed rest => exact fails_of_contentAt (.reading typed rest) (eq_error_of_bind_pure h)
  | grep =>
    rcases arguments with _ | ⟨pattern, _ | ⟨typed, rest⟩⟩
    case nil | cons.nil =>
      obtain rfl := Except.error.inj h
      exact .unpaired (by simp)
    case cons.cons =>
      exact fails_of_contentAt (.searching pattern typed rest) (eq_error_of_bind_pure h)
  | date => exact .timeless (eq_error_of_bind_pure h) arguments
  | history =>
    simp only [history, Command.reporting] at h
    split at h <;> exact absurd h ok_ne_error
  | help | pwd | echo | whoami | neofetch | superuser | clear => exact absurd h ok_ne_error

/-! ## Each of these is a failure -/

lemma result_of_mem (hmem : command ∈ commands) (hname : command.name ≠ "help") :
    (registry.runCommand command.name arguments env).result
      = (command.run arguments env).result := by
  rw [runCommand_of_mem hmem hname]

/-- What wants a directory fails as `directoryAt` does. -/
lemma Wants.result_of_directoryAt (h : Wants name arguments .directory typed shown)
    (herror : directoryAt name typed shown env = .error e) :
    (registry.runCommand name arguments env).result = .error e := by
  cases h with
  | listing =>
    refine (result_of_mem (show ls ∈ commands by simp [commands]) (by decide)).trans ?_
    simp only [ls, Command.reporting, herror]
    rfl
  | moving =>
    refine (result_of_mem (show cd ∈ commands by simp [commands]) (by decide)).trans ?_
    simp only [cd, herror]

/-- What wants a file fails as `contentAt` does. -/
lemma Wants.result_of_contentAt (h : Wants name arguments .file typed shown)
    (herror : contentAt name typed env = .error e) :
    (registry.runCommand name arguments env).result = .error e := by
  cases h with
  | reading typed rest =>
    refine (result_of_mem (show cat ∈ commands by simp [commands]) (by decide)).trans ?_
    simp only [cat, Command.reporting, herror]
    rfl
  | searching pattern typed rest =>
    refine (result_of_mem (show grep ∈ commands by simp [commands]) (by decide)).trans ?_
    simp only [grep, Command.reporting, herror]
    rfl

lemma Wants.shown_eq (h : Wants name arguments .file typed shown) : shown = typed := by
  cases h <;> rfl

lemma result_of_not_mem (hname : name ∉ commands.map Command.name) (arguments : List String)
    (env : Environment) :
    (registry.runCommand name arguments env).result = .error (.unknownCommand name) := by
  have hhelp : name ≠ "help" := by
    rintro rfl
    exact hname (by decide)
  have hnone : registry.find? name = none := by
    cases hfind : registry.find? name with
    | none => rfl
    | some command =>
      obtain ⟨hmem, rfl⟩ := find?_eq_some_iff.1 hfind
      exact absurd (List.mem_map_of_mem hmem) hname
  simp only [Registry.runCommand, if_neg hhelp, hnone]

/-- A command that `runCommand` runs fails in one of the ways of `Fails`. -/
lemma fails_of_result (h : (registry.runCommand name arguments env).result = .error e) :
    Fails env name arguments e := by
  unfold Registry.runCommand at h
  split at h
  -- `help` shows its text and does not fail
  case isTrue => nomatch h
  case isFalse hhelp =>
    split at h
    case h_1 command hfind =>
      obtain ⟨hmem, rfl⟩ := find?_eq_some_iff.1 hfind
      exact fails_of_mem hmem h
    case h_2 hnone =>
      obtain rfl := Except.error.inj h
      refine .unknown (fun hmem => ?_) arguments
      obtain ⟨command, hcommand, hname⟩ := List.mem_map.1 hmem
      rw [find?_eq_some_iff.2 ⟨hcommand, hname⟩] at hnone
      nomatch hnone

/-- A command fails in each of the ways of `Fails`. -/
lemma Fails.result_eq (h : Fails env name arguments e) :
    (registry.runCommand name arguments env).result = .error e := by
  cases h with
  | unknown hname => exact result_of_not_mem hname arguments env
  | @nowhere _ _ kind _ _ hwants hlookup =>
    cases kind with
    | directory => exact hwants.result_of_directoryAt (by simp only [directoryAt, hlookup])
    | file =>
      obtain rfl := hwants.shown_eq
      exact hwants.result_of_contentAt (by simp only [contentAt, hlookup])
  | @otherKind _ _ kind _ _ node hwants hlookup hkind =>
    -- of the two kinds of node, only the one that is not wanted is left
    cases kind with
    | directory =>
      cases node with
      | directory below => exact absurd rfl hkind
      | file content => exact hwants.result_of_directoryAt (by simp only [directoryAt, hlookup])
    | file =>
      obtain rfl := hwants.shown_eq
      cases node with
      | file content => exact absurd rfl hkind
      | directory below => exact hwants.result_of_contentAt (by simp only [contentAt, hlookup])
  | unnamed =>
    refine (result_of_mem (show cat ∈ commands by simp [commands]) (by decide)).trans ?_
    rfl
  | unpaired hshort =>
    refine (result_of_mem (show grep ∈ commands by simp [commands]) (by decide)).trans ?_
    rcases arguments with _ | ⟨pattern, _ | ⟨typed, rest⟩⟩
    case nil | cons.nil => rfl
    case cons.cons =>
      rw [List.length_cons, List.length_cons] at hshort
      omega
  | timeless hclock =>
    refine (result_of_mem (show date ∈ commands by simp [commands]) (by decide)).trans ?_
    simp only [date, Command.reporting, hclock]
    rfl

/-- The failures of a command are what `Fails` lists, and nothing else. -/
theorem result_runCommand_eq_error_iff :
    (registry.runCommand name arguments env).result = .error e ↔ Fails env name arguments e :=
  ⟨fails_of_result, Fails.result_eq⟩

end MiniShell.Builtin
