import MiniShell.Proofs.Session.Run

/-!
# Typing lines instead of submitting them

Keys are a front end: whatever is typed, erased, recalled and given up in between, all that counts
is what stands in the input line when Confirm is pressed.

* `Session.confirmed`: the lines that stood there;
* `Session.run_retype`: typing a line afresh.
-/

namespace MiniShell.Session

/-- What stood in the input line whenever Confirm was pressed, in order. -/
def confirmed (machine : Machine) : Session → List (Reading × InputEvent) → List (Reading × String)
  | _, [] => []
  | session, (reading, event) :: rest =>
    let later := confirmed machine (session.handle (machine.withClock reading) event).1 rest
    if event = .press .confirm then (reading, session.input) :: later else later

/-- Of events, the `submissions` are what stood in the input line at a Confirm. -/
lemma submissions_ofEvents (machine : Machine) (session : Session)
    (events : List (Reading × InputEvent)) :
    session.submissions machine (Action.ofEvents events) = session.confirmed machine events := by
  induction events generalizing session with
  | nil => rfl
  | cons step rest ih =>
    obtain ⟨reading, event⟩ := step
    rw [Action.ofEvents, List.map_cons, ← Action.ofEvents]
    by_cases hevent : event = .press .confirm
    · subst hevent
      simp only [submissions, confirmed, line?, act, ih, if_true]
    · have hline : session.line? (.event event) = none := by
        rw [line?]
        exact hevent
      simp only [submissions, confirmed, hline, act, ih, if_neg hevent]

/-! ## Typing a line afresh -/

lemma run_type (machine : Machine) (session : Session) (input : String) (chars : List Char)
    (events : List (Reading × InputEvent)) (htyped : events.map Prod.snd = chars.map .type) :
    (run machine (session.edit input) (Action.ofEvents events)).1
      = session.edit (input ++ String.ofList chars) := by
  induction chars generalizing input events with
  | nil =>
    rw [List.map_nil, List.map_eq_nil_iff] at htyped
    subst htyped
    simp [Action.ofEvents, run]
  | cons c chars ih =>
    rw [List.map_cons, List.map_eq_cons_iff] at htyped
    obtain ⟨⟨reading, event⟩, rest, rfl, rfl, hrest⟩ := htyped
    have hpush : (input.push c) ++ String.ofList chars = input ++ String.ofList (c :: chars) := by
      apply String.toList_inj.1
      simp
    rw [Action.ofEvents, List.map_cons, ← Action.ofEvents, run_cons, ← hpush, ← ih _ rest hrest]
    rfl

/-- After Cancel, typing a line and Confirm do to the session what `submit` does with the line. -/
lemma run_retype (machine : Machine) (session : Session) (text : String)
    (events : List (Reading × InputEvent)) (reading : Reading)
    (htyped : events.map Prod.snd = .press .cancel :: text.toList.map .type) :
    (session.run machine (Action.ofEvents (events ++ [(reading, .press .confirm)]))).1
      = { (session.submit (machine.withClock reading) text).1 with input := "" } := by
  rw [List.map_eq_cons_iff] at htyped
  obtain ⟨⟨canceled, event⟩, rest, rfl, rfl, hrest⟩ := htyped
  have hline : (run machine session
      ((canceled, .event (.press .cancel)) :: Action.ofEvents rest)).1 = session.edit text := by
    rw [run_cons]
    have htype := run_type machine session "" text.toList rest hrest
    rw [String.empty_append, String.ofList_toList] at htype
    exact htype
  have hsplit : Action.ofEvents ((canceled, .press .cancel) :: rest ++ [(reading, .press .confirm)])
      = (canceled, .event (.press .cancel)) :: Action.ofEvents rest
          ++ [(reading, .event (.press .confirm))] := by
    simp [Action.ofEvents]
  -- the input line typed is all that Confirm takes over
  have hedit : ({ session.edit text with input := "" } : Session).log = session.log := rfl
  rw [hsplit, run_append, hline, run_cons, run, act, handle_confirm, submit_congr hedit]
  rfl

/-- **Typing refines submitting.** Whatever the events, they show and leave behind what submitting
the lines `confirmed` does. Other events than Confirm show nothing and are not remembered; after
Confirm the input line is empty and no walk through the history is going on; and Cancel, typing and
Confirm are as good as submitting. -/
theorem run_events (machine : Machine) (session : Session) :
    (∀ events : List (Reading × InputEvent),
      let keyed := session.run machine (Action.ofEvents events)
      let direct := session.run machine (Action.ofLines (session.confirmed machine events))
      keyed.1.log = direct.1.log ∧ keyed.2.filterMap id = direct.2.filterMap id) ∧
    (∀ event : InputEvent, event ≠ .press .confirm →
      (session.handle machine event).2 = none ∧
        (session.handle machine event).1.log = session.log) ∧
    (let after := (session.handle machine (.press .confirm)).1
     after.input = "" ∧ after.history.cursor = after.history.entries.length) ∧
    ∀ (text : String) (events : List (Reading × InputEvent)) (reading : Reading),
      events.map Prod.snd = .press .cancel :: text.toList.map .type →
      (session.run machine (Action.ofEvents (events ++ [(reading, .press .confirm)]))).1
        = { (session.submit (machine.withClock reading) text).1 with input := "" } := by
  refine ⟨fun events => ?_, fun event hevent => ?_, ?_, fun text events reading htyped => ?_⟩
  · rw [← submissions_ofEvents]
    exact log_run rfl (Action.ofEvents events)
  · exact handle_of_ne_confirm hevent machine session
  · rw [handle_confirm]
    exact ⟨rfl, History.cursor_record _⟩
  · exact run_retype machine session text events reading htyped

/-- Typing a line with a slip that is erased submits the line meant, pressing Up shows nothing,
and typing it after Cancel is submitting it. -/
theorem run_events_slip :
    let now : Reading := .ok (.ofUnixSeconds 0)
    let machine : Machine := { config := {}, tree := .empty, clock := now }
    let session := start machine.config
    let slip : List (Reading × InputEvent) :=
      [(now, .type 'l'), (now, .type 'a'), (now, .backspace), (now, .type 's'),
        (now, .press .confirm)]
    let afresh : List (Reading × InputEvent) :=
      [(now, .press .cancel), (now, .type 'l'), (now, .type 's')]
    session.confirmed machine slip = [(now, "ls")] ∧
      (session.run machine (Action.ofEvents slip)).1.log
        = (session.run machine (Action.ofLines [(now, "ls")])).1.log ∧
      (session.handle machine (.press .up)).2 = none ∧
      (session.run machine (Action.ofEvents (afresh ++ [(now, .press .confirm)]))).1
        = { (session.submit (machine.withClock now) "ls").1 with input := "" } := by
  intro now machine session slip afresh
  obtain ⟨hrefines, hquiet, -, hafresh⟩ := run_events machine session
  have hlines : session.confirmed machine slip = [(now, "ls")] := by decide +kernel
  have hslip := (hrefines slip).1
  rw [hlines] at hslip
  exact ⟨hlines, hslip, (hquiet (.press .up) (by decide)).1, hafresh "ls" afresh now (by decide)⟩

end MiniShell.Session
