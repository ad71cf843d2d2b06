import MiniShell.Proofs.Builtin.Canonical
import MiniShell.Proofs.Session.Run

/-!
# Sessions show canonical lines

Whatever is shown for a submitted line is canonical, and so is the banner. The transcript holds
nothing else, so all its lines are canonical at any time, and a line in it is blank if and only if
it has no spans.

* `Session.Canonical`: the invariant;
* `Session.Canonical.run`: every run keeps it;
* `Session.canonical_of_mem_run`: what a run shows.
-/

namespace MiniShell.Session

variable {machine : Machine} {session other : Session} {lines : List Line}

/-- The lines of the transcript are `Line.Canonical`. -/
def Canonical (session : Session) : Prop :=
  ∀ block ∈ session.transcript, ∀ line ∈ block.lines, line.Canonical

/-! ## What is shown -/

/-- What `submit` shows is canonical. -/
lemma canonical_of_mem_submit (machine : Machine) (session : Session) (typed : String) :
    ∀ line ∈ (session.submit machine typed).2, line.Canonical :=
  Builtin.canonical_runLine typed (session.environment machine)

lemma canonical_of_mem_act {action : Action} (h : (session.act machine action).2 = some lines) :
    ∀ line ∈ lines, line.Canonical := by
  cases hline : session.line? action with
  | some typed =>
    rw [(act_of_line?_eq_some hline machine).1, Option.some.injEq] at h
    rw [← h]
    exact canonical_of_mem_submit machine session typed
  | none =>
    rw [(act_of_line?_eq_none hline machine).1] at h
    nomatch h

/-- What `run` shows is canonical, from any session on. -/
theorem canonical_of_mem_run {actions : List (Reading × Action)}
    (h : some lines ∈ (session.run machine actions).2) : ∀ line ∈ lines, line.Canonical := by
  induction actions generalizing session with
  | nil => nomatch h
  | cons step rest ih =>
    obtain ⟨reading, action⟩ := step
    rw [run_cons, List.mem_cons] at h
    rcases h with hfirst | hlater
    · exact canonical_of_mem_act hfirst.symm
    · exact ih hlater

/-! ## What the transcript holds -/

namespace Canonical

lemma start (config : Config) : Canonical (Session.start config) :=
  List.forall_mem_singleton.2 (List.forall_mem_singleton.2 (Line.canonical_plain config.banner))

/-- Being canonical depends on the `log` of the session only. -/
lemma congr (h : Canonical session) (hlog : other.log = session.log) : Canonical other := by
  have htranscript : other.transcript = session.transcript := congrArg Log.transcript hlog
  rw [Canonical, htranscript]
  exact h

/-- A submitted line leaves the session canonical: it adds what it shows, or wipes everything. -/
lemma submit (h : Canonical session) (machine : Machine) (typed : String) :
    Canonical (session.submit machine typed).1 := by
  have hshown := Builtin.canonical_runLine typed (session.environment machine)
  rw [Canonical, transcript_submit]
  cases houtput : (Builtin.registry.runLine typed (session.environment machine)).1 with
  | clear => exact List.forall_mem_nil _
  | lines | nothing =>
    rw [houtput] at hshown
    exact List.forall_mem_append.2 ⟨h, List.forall_mem_singleton.2 hshown⟩

/-- What a run leaves is `Canonical`, as what each submitted line leaves is. -/
theorem run (h : Canonical session) (machine : Machine) (actions : List (Reading × Action)) :
    Canonical (session.run machine actions).1 :=
  run_induction_submit (fun _ _ hlog hsession => hsession.congr hlog)
    (fun _ reading typed hsession => hsession.submit (machine.withClock reading) typed) h actions

end Canonical

/-- **Lines are canonical.** On any machine, whatever its configuration, its tree and its clock, no
line that a run of a fresh session shows, and no line of the transcript that it ends with, contains
a span without text. So such a line has no spans if and only if it has no text. -/
theorem canonical_run (machine : Machine) (actions : List (Reading × Action)) (line : Line)
    (h : (∃ lines, some lines ∈ ((start machine.config).run machine actions).2 ∧ line ∈ lines) ∨
      ∃ block ∈ ((start machine.config).run machine actions).1.transcript, line ∈ block.lines) :
    (∀ span ∈ line.spans, span.text ≠ "") ∧ (line.isEmpty = true ↔ line.text = "") := by
  have hcanonical : line.Canonical := by
    -- shown lines are canonical in any session, those of the transcript by the run from a fresh one
    rcases h with ⟨lines, hshown, hmem⟩ | ⟨block, hblock, hmem⟩
    · exact canonical_of_mem_run hshown line hmem
    · exact (Canonical.start machine.config).run machine actions block hblock line hmem
  exact ⟨hcanonical, hcanonical.isEmpty_iff⟩

/-- An error without text below an empty banner, hits that touch each other and both ends of a line,
and a user and a host without names. -/
theorem canonical_run_blank :
    let now : Reading := .error (.usage "")
    let machine : Machine :=
      { config := { user := "", host := "", home := "/", banner := "" }
        tree := (Tree.empty.edit (.write "/f" "aAaa\n")).1
        clock := now }
    let after := fun line => (start machine.config).run machine [(now, .submit line)]
    let hits : Line := ⟨[⟨"aA", .hit⟩, ⟨"aa", .hit⟩]⟩
    let title : Line := ⟨[⟨"        .--.         ", .accent⟩, ⟨"  ", .plain⟩, ⟨"@", .accent⟩]⟩
    ((after "date").1.transcript.map Block.lines = [[.empty], [.empty]] ∧
      (Line.empty.isEmpty = true ↔ Line.empty.text = "")) ∧
    ((after "grep aa f").2 = [some [hits]] ∧ ∀ span ∈ hits.spans, span.text ≠ "") ∧
    (∃ lines, some lines ∈ (after "neofetch").2 ∧ title ∈ lines) ∧
      ∀ span ∈ title.spans, span.text ≠ "" := by
  intro now machine after hits title
  let env := (start machine.config).environment machine
  have hshown : ∀ line, (after line).2 = [some (Builtin.registry.runLine line env).1.toLines] :=
    fun line => rfl
  have hdate : Builtin.registry.runLine "date" env = (.lines [.empty], "/") := by
    rw [Builtin.runLine_of_mem (show Builtin.date ∈ Builtin.commands by simp [Builtin.commands])
      (by decide) (by decide +kernel : Text.words "date" = ["date"])]
    decide +kernel
  have hgrep : Builtin.registry.runLine "grep aa f" env = (.lines [hits], "/") := by
    rw [Builtin.runLine_of_mem (show Builtin.grep ∈ Builtin.commands by simp [Builtin.commands])
      (by decide) (by decide +kernel : Text.words "grep aa f" = ["grep", "aa", "f"])]
    decide +kernel
  have hneofetch : title ∈ (Builtin.registry.runLine "neofetch" env).1.toLines := by
    rw [Builtin.runLine_of_mem (show Builtin.neofetch ∈ Builtin.commands by simp [Builtin.commands])
      (by decide) (by decide +kernel : Text.words "neofetch" = ["neofetch"])]
    decide +kernel
  have hblank : (after "date").1.transcript.map Block.lines = [[.empty], [.empty]] := by
    show ((start machine.config).transcriptAfter machine.config "date"
      (Builtin.registry.runLine "date" env).1).map Block.lines = _
    rw [hdate]
    rfl
  have hhits : (after "grep aa f").2 = [some [hits]] := by
    rw [hshown, hgrep]
    rfl
  have htitle : ∃ lines, some lines ∈ (after "neofetch").2 ∧ title ∈ lines :=
    ⟨_, by rw [hshown]; exact List.mem_singleton_self _, hneofetch⟩
  obtain ⟨block, hblock, hlines⟩ : ∃ block ∈ (after "date").1.transcript, block.lines = [.empty] :=
    List.mem_map.1 (by rw [hblank]; exact List.mem_cons_self)
  refine ⟨⟨hblank, ?_⟩, ⟨hhits, ?_⟩, htitle, ?_⟩
  · have hmem : Line.empty ∈ block.lines := by simp [hlines]
    exact (canonical_run machine _ .empty (Or.inr ⟨block, hblock, hmem⟩)).2
  · have hmem : some [hits] ∈ (after "grep aa f").2 := by simp [hhits]
    exact (canonical_run machine _ hits (Or.inl ⟨[hits], hmem, List.mem_singleton_self hits⟩)).1
  · exact (canonical_run machine _ title (Or.inl htitle)).1

end MiniShell.Session
