import Mathlib.Data.List.Basic
import Mathlib.Data.List.Induction
import Mathlib.Tactic.Common
import MiniShell.Registry

/-!
# Registries as maps from names

A registry keeps its commands in a list and their places in a map. As long as the two agree, which
registering never breaks, finding a name means finding the command registered last under it, and
the list has one command for each name.

* `Lawful.register`, `lawful_ofList`: what the map says of the list;
* `find?_register`, `find?_ofList`: the command of a name;
* `Indexed.register`, `indexed_ofList`: what the list says of the map;
* `commands_ofList`: the commands that are listed;
* `helpLine_eq`, `report_unknownCommand`: the spans of a help line, and of the line for an unknown
  name;
* `ofList_keeps_last`: listing and running after any registrations.
-/

namespace MiniShell.Registry

/-- Every name of `index` has a place in the list, and a command of that name is there. -/
def Lawful (registry : Registry) : Prop :=
  ∀ name i, registry.index[name]? = some i →
    ∃ command : Command, registry.commands[i]? = some command ∧ command.name = name

variable {registry : Registry} {command : Command} {name : String} {i : Nat}

lemma lawful_empty : empty.Lawful := by
  intro name i h
  simp [empty] at h

lemma register_of_known (h : registry.index[command.name]? = some i) :
    registry.register command
      = { registry with commands := registry.commands.setIfInBounds i command } := by
  rw [register, h]

lemma register_of_unknown (h : registry.index[command.name]? = none) :
    registry.register command
      = { commands := registry.commands.push command
          index := registry.index.insert command.name registry.commands.size } := by
  rw [register, h]

lemma Lawful.lt_size (h : registry.Lawful) (hi : registry.index[name]? = some i) :
    i < registry.commands.size := by
  obtain ⟨found, hfound, -⟩ := h name i hi
  exact (Array.getElem?_eq_some_iff.1 hfound).1

/-- Different names have different places in `index`. -/
lemma Lawful.eq_of_same_place (h : registry.Lawful) {other : String}
    (hi : registry.index[name]? = some i) (hj : registry.index[other]? = some i) :
    name = other := by
  obtain ⟨found, hfound, rfl⟩ := h name i hi
  obtain ⟨found', hfound', rfl⟩ := h other i hj
  rw [hfound, Option.some.injEq] at hfound'
  rw [hfound']

/-- Registering keeps list and map in agreement: `register` makes a lawful registry of a lawful one.
-/
theorem Lawful.register (h : registry.Lawful) (command : Command) :
    (registry.register command).Lawful := by
  intro name j hj
  cases hknown : registry.index[command.name]? with
  | some i =>
    rw [register_of_known hknown] at hj ⊢
    by_cases hname : name = command.name
    · subst hname
      rw [hknown, Option.some.injEq] at hj
      subst hj
      exact ⟨command, by simp [h.lt_size hknown], rfl⟩
    · -- another name has another place, where nothing was replaced
      have hne : i ≠ j := by
        intro heq
        subst heq
        exact hname (h.eq_of_same_place hj hknown)
      obtain ⟨found, hfound, hname'⟩ := h name j hj
      exact ⟨found, by rw [Array.getElem?_setIfInBounds_ne hne]; exact hfound, hname'⟩
  | none =>
    rw [register_of_unknown hknown] at hj ⊢
    -- the new name has the last place; every other name keeps the place that it has
    simp only [Std.HashMap.getElem?_insert, beq_iff_eq] at hj
    split at hj
    · rename_i hname
      rw [Option.some.injEq] at hj
      subst hj
      exact ⟨command, by simp, hname⟩
    · obtain ⟨found, hfound, hname'⟩ := h name j hj
      have hlt := h.lt_size hj
      refine ⟨found, ?_, hname'⟩
      rw [Array.getElem?_push_lt hlt, ← Array.getElem?_eq_getElem hlt]
      exact hfound

/-- After `register` the command's name finds it and other names find what they found before. -/
theorem find?_register (h : registry.Lawful) :
    (registry.register command).find? name
      = if command.name = name then some command else registry.find? name := by
  cases hknown : registry.index[command.name]? with
  | some i =>
    rw [register_of_known hknown, find?, find?]
    by_cases hname : command.name = name
    · subst hname
      simp [hknown, h.lt_size hknown]
    · rw [if_neg hname]
      cases hj : registry.index[name]? with
      | none => rfl
      | some j =>
        have hne : i ≠ j := by
          intro heq
          subst heq
          exact hname (h.eq_of_same_place hknown hj)
        simp [Array.getElem?_setIfInBounds_ne hne]
  | none =>
    rw [register_of_unknown hknown, find?, find?]
    by_cases hname : command.name = name
    · subst hname
      simp
    · rw [if_neg hname]
      simp only [Std.HashMap.getElem?_insert, beq_iff_eq, hname, if_false]
      cases hj : registry.index[name]? with
      | none => rfl
      | some j =>
        -- a place in the list stays what it is when the list gets longer
        have hlt := h.lt_size hj
        simp [Array.getElem?_push_lt hlt, Array.getElem?_eq_getElem hlt]

lemma Lawful.foldl_register (h : registry.Lawful) (commands : List Command) :
    (commands.foldl Registry.register registry).Lawful := by
  induction commands generalizing registry with
  | nil => exact h
  | cons command commands ih => exact ih (h.register command)

/-- A registry made by `ofList` is lawful. -/
theorem lawful_ofList (commands : List Command) : (ofList commands).Lawful :=
  lawful_empty.foldl_register commands

/-- Of commands given to `register` in order, the last one with a name is found. -/
lemma find?_foldl_register (h : registry.Lawful) (commands : List Command) :
    (commands.foldl Registry.register registry).find? name
      = (commands.reverse.find? fun command => command.name = name).or (registry.find? name) := by
  induction commands generalizing registry with
  | nil => simp
  | cons command commands ih =>
    rw [List.foldl_cons, ih (h.register command), find?_register h, List.reverse_cons,
      List.find?_append, Option.or_assoc]
    by_cases hname : command.name = name <;> simp [hname]

/-- The command registered last under a name. -/
def lastNamed? (commands : List Command) (name : String) : Option Command :=
  commands.reverse.find? fun command => command.name = name

/-- A name finds the command of `lastNamed?` in the registry that `ofList` makes. -/
theorem find?_ofList (commands : List Command) (name : String) :
    (ofList commands).find? name = lastNamed? commands name := by
  rw [ofList, find?_foldl_register lawful_empty]
  simp [find?, empty, lastNamed?]

/-! ## The list of commands -/

/-- Every listed command has its place in `index`. -/
def Indexed (registry : Registry) : Prop :=
  ∀ (i : Nat) (command : Command), registry.commands[i]? = some command →
    registry.index[command.name]? = some i

lemma indexed_empty : empty.Indexed := by
  intro i command h
  simp [empty] at h

/-- Registering keeps the place of every listed command, also when `register` replaces one. -/
theorem Indexed.register (h : registry.Indexed) (command : Command) :
    (registry.register command).Indexed := by
  intro j listed hj
  cases hknown : registry.index[command.name]? with
  | some i =>
    rw [register_of_known hknown] at hj ⊢
    -- the place of the name holds the new command, and the other places are as they were
    by_cases hij : i = j
    · subst hij
      rw [Array.getElem?_setIfInBounds_self] at hj
      split at hj
      · rw [Option.some.injEq] at hj
        subst hj
        exact hknown
      · nomatch hj
    · rw [Array.getElem?_setIfInBounds_ne hij] at hj
      exact h j listed hj
  | none =>
    rw [register_of_unknown hknown] at hj ⊢
    simp only [Std.HashMap.getElem?_insert, beq_iff_eq]
    rw [Array.getElem?_push] at hj
    split at hj
    · rw [Option.some.injEq] at hj
      subst hj
      simp [*]
    · -- a listed name is known, so it is not the new one
      have hplace := h j listed hj
      have hname : command.name ≠ listed.name := by
        intro heq
        rw [heq, hplace] at hknown
        nomatch hknown
      rw [if_neg hname]
      exact hplace

lemma ofList_concat (commands : List Command) (command : Command) :
    ofList (commands ++ [command]) = (ofList commands).register command := by
  rw [ofList, List.foldl_append]
  rfl

theorem indexed_ofList (commands : List Command) : (ofList commands).Indexed := by
  induction commands using List.reverseRecOn with
  | nil => exact indexed_empty
  | append_singleton commands command ih =>
    rw [ofList_concat]
    exact ih.register command

/-- A name is in `index` with a place if a command of that name is listed there, and only then. -/
lemma Indexed.index_eq_some_iff (h : registry.Indexed) (hlawful : registry.Lawful) :
    registry.index[name]? = some i ↔ (registry.commands[i]?).map Command.name = some name := by
  rw [Option.map_eq_some_iff]
  constructor
  · exact hlawful name i
  · rintro ⟨listed, hlisted, rfl⟩
    exact h i listed hlisted

/-- The names listed after `register` are those before, and the command's own at their end unless it
is among them. -/
lemma map_name_register (h : registry.Indexed) (hlawful : registry.Lawful) (command : Command) :
    let names := registry.commands.toList.map Command.name
    (registry.register command).commands.toList.map Command.name
      = if command.name ∈ names then names else names ++ [command.name] := by
  intro names
  cases hknown : registry.index[command.name]? with
  | some i =>
    -- the command takes the place of one with the same name
    obtain ⟨listed, hlisted, hname⟩ := hlawful command.name i hknown
    have hplace : names[i]? = some command.name := by
      simp only [names, List.getElem?_map, Array.getElem?_toList, hlisted, Option.map_some, hname]
    obtain ⟨hi, hget⟩ := List.getElem?_eq_some_iff.1 hplace
    rw [register_of_known hknown, if_pos (List.mem_of_getElem? hplace),
      Array.toList_setIfInBounds, List.map_set]
    show names.set i command.name = names
    rw [← hget, List.set_getElem_self]
  | none =>
    have hnot : command.name ∉ names := by
      intro hmem
      obtain ⟨i, hi⟩ := List.mem_iff_getElem?.1 hmem
      rw [List.getElem?_map, Array.getElem?_toList] at hi
      rw [(h.index_eq_some_iff hlawful).2 hi] at hknown
      nomatch hknown
    rw [register_of_unknown hknown, if_neg hnot]
    simp only [names, Array.toList_push, List.map_append, List.map_cons, List.map_nil]

/-- The names of commands in the order in which they come first. -/
def firstNames (commands : List Command) : List String :=
  (commands.map Command.name).eraseDups

/-- The commands that stay registered: of each name the one of `lastNamed?`, in the order of the
first registrations. -/
def kept (commands : List Command) : List Command :=
  (firstNames commands).filterMap (lastNamed? commands)

/-- A name more comes last in `eraseDups`, unless it is there already. -/
lemma eraseDups_concat (names : List String) (name : String) :
    (names ++ [name]).eraseDups
      = if name ∈ names.eraseDups then names.eraseDups else names.eraseDups ++ [name] := by
  rw [List.eraseDups_append, List.removeAll, List.filter_singleton]
  by_cases hmem : name ∈ names <;> simp [hmem, List.eraseDups_cons]

/-- The names that `ofList` lists are the `firstNames`. -/
lemma map_name_ofList (commands : List Command) :
    (ofList commands).commands.toList.map Command.name = firstNames commands := by
  induction commands using List.reverseRecOn with
  | nil => rfl
  | append_singleton commands command ih =>
    rw [ofList_concat, map_name_register (indexed_ofList commands) (lawful_ofList commands), ih,
      firstNames, firstNames, List.map_append, List.map_singleton, eraseDups_concat]

/-- The commands that `ofList` lists are those that are `kept`. -/
theorem commands_ofList (commands : List Command) :
    (ofList commands).commands.toList = kept commands := by
  have hlast : ∀ listed ∈ (ofList commands).commands.toList,
      some listed = lastNamed? commands listed.name := by
    intro listed hlisted
    obtain ⟨i, hi⟩ := List.mem_iff_getElem?.1 hlisted
    rw [Array.getElem?_toList] at hi
    rw [← find?_ofList, find?, indexed_ofList commands i listed hi]
    exact hi.symm
  calc (ofList commands).commands.toList
      = (ofList commands).commands.toList.filterMap some := List.filterMap_some.symm
    _ = (ofList commands).commands.toList.filterMap (lastNamed? commands ∘ Command.name) :=
        List.filterMap_congr hlast
    _ = kept commands := by rw [kept, ← map_name_ofList, List.filterMap_map]

/-! ## Running a line -/

/-- What `runLine` gives is up to the working directory and to what the line's command does. -/
lemma runLine_congr {line : String} {env other : Environment} (hcwd : env.cwd = other.cwd)
    (hrun : ∀ name arguments command, Text.words line = name :: arguments →
      registry.find? name = some command →
      command.run arguments env = command.run arguments other) :
    registry.runLine line env = registry.runLine line other := by
  cases hwords : Text.words line with
  | nil => simp only [runLine, hwords, hcwd]
  | cons name arguments =>
    have hcommand : registry.runCommand name arguments env
        = registry.runCommand name arguments other := by
      unfold runCommand
      split
      · rw [hcwd]
      · cases hfind : registry.find? name with
        | none => rw [hcwd]
        | some command => exact hrun name arguments command hwords hfind
    simp only [runLine, hwords, hcommand]

/-- All three spans of a `helpLine` have text, so that none of them is left out. -/
lemma helpLine_eq (command : Command) :
    helpLine command
      = { spans := [⟨"  ", .plain⟩,
            ⟨command.usage ++ String.ofList (List.replicate (16 - command.usage.length) ' '),
              .accent⟩,
            ⟨" - " ++ command.description, .plain⟩] } := by
  have husage : Text.padRight 16 command.usage ≠ "" := Text.padRight_ne_empty (by decide) _
  have hdescription : " - " ++ command.description ≠ "" := by simp
  rw [helpLine, Line.push_of_ne hdescription, Line.push_of_ne husage]
  rfl

lemma report_unknownCommand (name : String) :
    report (.error (.unknownCommand name))
      = .lines [{ spans := [⟨name ++ ": command not found", .error⟩] }] := by
  have htext : name ++ ": command not found" ≠ "" := by simp
  exact congrArg (fun line => Output.lines [line]) (Line.styled_of_ne htext .error)

/-- **The last registration counts, in the place of the first.** After any registrations each name
is listed once, in the order of the first registrations and with the command registered last under
it, and has its place in the list. A line runs the command registered last under its first word, if
there is one; but `help` always shows what is listed. -/
theorem ofList_keeps_last (commands : List Command) :
    let registry := ofList commands
    (kept commands).map Command.name = (commands.map Command.name).eraseDups ∧
    registry.summaries
        = (kept commands).map (fun command => (command.name, command.description)) ∧
    (∀ name i, registry.index[name]? = some i ↔
      (registry.commands[i]?).map Command.name = some name) ∧
    ∀ line env, registry.runLine line env =
      match Text.words line with
      | [] => (.nothing, env.cwd)
      | name :: arguments =>
        if name = "help" then
          (.lines
            ({ spans := [⟨"Available commands:", .plain⟩] }
              :: (kept commands).map fun command =>
                { spans := [⟨"  ", .plain⟩,
                    ⟨command.usage
                      ++ String.ofList (List.replicate (16 - command.usage.length) ' '), .accent⟩,
                    ⟨" - " ++ command.description, .plain⟩] }),
            env.cwd)
        else
          match lastNamed? commands name with
          | some command =>
            (match (command.run arguments env).result with
              | .ok output => output
              | .error e => .lines [.error e.text],
              (command.run arguments env).cwd)
          | none =>
            (.lines [{ spans := [⟨name ++ ": command not found", .error⟩] }], env.cwd) := by
  intro registry
  have hkept : registry.commands.toList = kept commands := commands_ofList commands
  have hfind : ∀ name, registry.find? name = lastNamed? commands name := find?_ofList commands
  refine ⟨?_, ?_, ?_, ?_⟩
  · rw [← hkept]
    exact map_name_ofList commands
  · rw [summaries, hkept]
  · intro name i
    exact (indexed_ofList commands).index_eq_some_iff (lawful_ofList commands)
  · intro line env
    cases hwords : Text.words line with
    | nil => simp only [runLine, hwords]
    | cons name arguments =>
      simp only [runLine, hwords, runCommand, hfind]
      split
      · rw [help, hkept, funext helpLine_eq]
        rfl
      · cases lastNamed? commands name with
        | none => exact congrArg (fun output => (output, env.cwd)) (report_unknownCommand name)
        | some command =>
          simp only
          cases (command.run arguments env).result <;> rfl

/-- A command that is registered again far from its first place, with a usage wider than its column
and another result, a command called `help` that is listed but never run, one that fails, and a name
that differs from all of them in its case. -/
theorem ofList_keeps_last_replaced :
    let say := fun usage description text =>
      Command.reporting "say" usage description fun _ _ => pure (.line text)
    let other := Command.reporting "help" "help [name]" "Explains." fun _ _ => pure .clear
    let failing := Command.reporting "fail" "" "" fun _ _ => throw (.filesystem "disk on fire")
    let commands :=
      [say "say" "Says a." "a", other, failing, say "say [word] [times]" "Says b." "b"]
    let env : Environment :=
      { config := {}, tree := .empty, clock := .ok (.ofUnixSeconds 0), cwd := "/", history := [] }
    (kept commands).map Command.name = ["say", "help", "fail"] ∧
      (ofList commands).summaries = [("say", "Says b."), ("help", "Explains."), ("fail", "")] ∧
      (ofList commands).runLine " help say" env
        = (.lines
            [⟨[⟨"Available commands:", .plain⟩]⟩,
              ⟨[⟨"  ", .plain⟩, ⟨"say [word] [times]", .accent⟩, ⟨" - Says b.", .plain⟩]⟩,
              ⟨[⟨"  ", .plain⟩, ⟨"help [name]     ", .accent⟩, ⟨" - Explains.", .plain⟩]⟩,
              ⟨[⟨"  ", .plain⟩, ⟨"                ", .accent⟩, ⟨" - ", .plain⟩]⟩],
            "/") ∧
      (ofList commands).runLine "say x" env = (.lines [⟨[⟨"b", .plain⟩]⟩], "/") ∧
      (ofList commands).runLine "fail" env
        = (.lines [⟨[⟨"VFS error: disk on fire", .error⟩]⟩], "/") ∧
      (ofList commands).runLine "Say x" env
        = (.lines [⟨[⟨"Say: command not found", .error⟩]⟩], "/") := by
  intro say other failing commands env
  obtain ⟨hnames, hsummaries, -, hrun⟩ := ofList_keeps_last commands
  exact ⟨hnames.trans (by decide +kernel), hsummaries.trans (by decide +kernel),
    (hrun " help say" env).trans (by decide +kernel), (hrun "say x" env).trans (by decide +kernel),
    (hrun "fail" env).trans (by decide +kernel), (hrun "Say x" env).trans (by decide +kernel)⟩

end MiniShell.Registry
