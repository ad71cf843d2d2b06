import MiniShell.Proofs.Builtin
import MiniShell.Proofs.Line

/-!
# Commands show canonical lines

No command shows a span without text, whatever texts it is given: those of the arguments, of the
files, of the configuration and of the history, and those of errors. What a registry shows is
canonical if its commands are, the help text included.

* `Command.Canonical`: commands that show canonical lines, also when they fail;
* `Registry.canonical_runLine`: what a registry of such commands shows for a line;
* `Builtin.canonical_of_mem`: the stock commands are such commands.
-/

namespace MiniShell

def Output.Canonical (output : Output) : Prop :=
  ∀ line ∈ output.toLines, line.Canonical

/-- A command that shows `Line.Canonical` lines, whether it fails or not. -/
def Command.Canonical (command : Command) : Prop :=
  ∀ arguments env, (Registry.report (command.run arguments env).result).Canonical

namespace Output

lemma canonical_line (text : String) : (line text).Canonical :=
  List.forall_mem_singleton.2 (Line.canonical_plain text)

lemma canonical_of_toLines_eq_nil {output : Output} (h : output.toLines = []) :
    output.Canonical := by
  rw [Canonical, h]
  exact List.forall_mem_nil _

end Output

namespace Registry

lemma canonical_report_error (e : ShellError) : (report (.error e)).Canonical :=
  List.forall_mem_singleton.2 (Line.canonical_styled e.text .error)

/-- What goes on after a step that may fail shows canonical lines if it does so for every value of
the step. If the step fails, `report` makes the line. -/
lemma canonical_report_bind {α : Type} {step : Except ShellError α}
    {next : α → Except ShellError Output} (h : ∀ a, (report (next a)).Canonical) :
    (report (step >>= next)).Canonical := by
  cases step with
  | error e => exact canonical_report_error e
  | ok a => exact h a

/-- The help text is canonical, whatever the commands say of themselves, since `helpLine` pushes its
texts. -/
lemma canonical_help (registry : Registry) : registry.help.Canonical := by
  refine List.forall_mem_cons.2 ⟨Line.canonical_plain _, List.forall_mem_map.2 fun command _ => ?_⟩
  exact ((Line.canonical_plain _).push _ _).push _ _

/-- A registry whose commands show canonical lines shows such lines whatever line it runs. -/
theorem canonical_runLine {registry : Registry}
    (h : ∀ name command, registry.find? name = some command → command.Canonical) (line : String)
    (env : Environment) : (registry.runLine line env).1.Canonical := by
  unfold runLine
  split
  case h_1 => exact Output.canonical_of_toLines_eq_nil rfl
  case h_2 name arguments hwords =>
    show (report (registry.runCommand name arguments env).result).Canonical
    unfold runCommand
    split
    case isTrue => exact registry.canonical_help
    case isFalse =>
      cases hfind : registry.find? name with
      | some command => exact h name command hfind arguments env
      | none => exact canonical_report_error (.unknownCommand name)

end Registry

namespace Builtin

/-! ## The lines of the commands -/

/-- A name added to a canonical line leaves it canonical, even one that is empty. -/
lemma canonical_addListing {line : Line} (h : line.Canonical) (listing : Listing) :
    (addListing line listing).Canonical := by
  have hseparated : (if line.isEmpty then line else line.push "  " .plain).Canonical := by
    split
    · exact h
    · exact h.push _ _
  exact hseparated.push _ _

lemma canonical_listingLine (all : Bool) (listings : List Listing) :
    (listingLine all listings).Canonical := by
  -- by induction on the names shown, for any canonical line that they are added to
  have hfold : ∀ (shown : List Listing) (line : Line), line.Canonical →
      (shown.foldl addListing line).Canonical := by
    intro shown
    induction shown with
    | nil => exact fun line h => h
    | cons listing rest ih => exact fun line h => ih _ (canonical_addListing h listing)
  exact hfold _ .empty Line.canonical_empty

/-- A line that `Highlight.mark?` marks is canonical, also where hits touch each other or an end of
the line. -/
lemma canonical_of_mark? {pattern text : String} {line : Line}
    (h : Highlight.mark? pattern text = some line) : line.Canonical := by
  unfold Highlight.mark? at h
  split at h
  · obtain rfl := Option.some.inj h
    exact Line.canonical_plain text
  · split at h
    · nomatch h
    · obtain rfl := Option.some.inj h
      exact Line.canonical_ofSpans _

lemma canonical_matchingLines (pattern content : String) :
    ∀ line ∈ matchingLines pattern content, line.Canonical := by
  unfold matchingLines
  split
  · exact List.forall_mem_singleton.2 Line.canonical_empty
  · intro line hmem
    obtain ⟨text, -, hmark⟩ := List.mem_filterMap.1 hmem
    exact canonical_of_mark? hmark

/-- The lines of `factLines` are canonical, even if the user and the host have no name. -/
lemma canonical_factLines (config : Config) : ∀ line ∈ factLines config, line.Canonical := by
  refine List.forall_mem_cons.2 ⟨Line.canonical_styled _ _, List.forall_mem_cons.2
    ⟨Line.canonical_plain _, List.forall_mem_map.2 fun fact _ => ?_⟩⟩
  exact (Line.canonical_styled _ _).push _ _

lemma canonical_besideLogo {facts : List Line} (h : ∀ line ∈ facts, line.Canonical)
    (logo : List String) : ∀ line ∈ besideLogo logo facts, line.Canonical := by
  induction facts generalizing logo with
  | nil => simp [besideLogo]
  | cons fact facts ih =>
    obtain ⟨hfact, hfacts⟩ := List.forall_mem_cons.1 h
    rw [besideLogo]
    refine List.forall_mem_cons.2 ⟨?_, ih hfacts logo.tail⟩
    exact ((Line.canonical_styled _ _).push _ _).append hfact

lemma canonical_historyLines (number : Nat) (entries : List String) :
    ∀ line ∈ historyLines number entries, line.Canonical := by
  induction entries generalizing number with
  | nil => simp [historyLines]
  | cons entry entries ih => exact List.forall_mem_cons.2 ⟨Line.canonical_plain _, ih (number + 1)⟩

/-! ## The commands -/

/-- The stock commands show canonical lines: each of `commands` is `Command.Canonical`. -/
theorem canonical_of_mem {command : Command} (hmem : command ∈ commands) : command.Canonical := by
  intro arguments env
  cases command, hmem using commands_cases with
  | help | clear => exact Output.canonical_of_toLines_eq_nil rfl
  | pwd | echo | whoami | superuser => exact Output.canonical_line _
  | date => exact Registry.canonical_report_bind fun now => Output.canonical_line now.text
  | ls =>
    exact Registry.canonical_report_bind fun entries =>
      List.forall_mem_singleton.2 (canonical_listingLine _ _)
  | cd =>
    simp only [cd]
    split
    · exact Output.canonical_of_toLines_eq_nil rfl
    · exact Registry.canonical_report_error _
  | cat =>
    cases arguments with
    | nil => exact Registry.canonical_report_error _
    | cons typed rest =>
      exact Registry.canonical_report_bind fun content =>
        List.forall_mem_map.2 fun text _ => Line.canonical_plain text
  | grep =>
    rcases arguments with _ | ⟨pattern, _ | ⟨typed, rest⟩⟩
    case nil | cons.nil => exact Registry.canonical_report_error _
    case cons.cons =>
      exact Registry.canonical_report_bind fun content => canonical_matchingLines pattern content
  | neofetch => exact canonical_besideLogo (canonical_factLines env.config) logo
  | history =>
    simp only [history, Command.reporting]
    split
    · exact Output.canonical_line _
    · exact canonical_historyLines 1 _

theorem canonical_runLine (line : String) (env : Environment) :
    (registry.runLine line env).1.Canonical :=
  Registry.canonical_runLine (fun _ _ hfind => canonical_of_mem (find?_eq_some_iff.1 hfind).1) line
    env

end Builtin

end MiniShell
