import MiniShell.Proofs.Session.Run

/-!
# Walking through the history

The cursor of the history is at an entry or past the last one, and the entry that it is at stands in
the input line. Whatever is typed, erased, given up or submitted puts the cursor past the last
entry, also in the middle of a walk, so that a line typed is never taken for an entry. A walk of any
length goes where its steps lead, held at both ends.

* `History.saturate`: one step of a walk, held at both ends;
* `Session.InStep`, `Session.InStep.run`: the invariant, and that every run keeps it;
* `Session.InStep.run_ofStrides`: where a walk leads, and what it shows;
* `History.foldl_saturate_back_and_forth`: so many steps back and fewer forward.
-/

namespace MiniShell

/-- A step of a walk through the `History`. -/
inductive Stride where
  | older
  | newer
  deriving DecidableEq, Repr

namespace Stride

def button : Stride → Button
  | older => .up
  | newer => .down

/-- How far the step goes towards newer entries. -/
def offset : Stride → Int
  | older => -1
  | newer => 1

end Stride

/-- Taking steps through the history, each at a reading of the clock. -/
def Action.ofStrides (walk : List (Reading × Stride)) : List (Reading × Action) :=
  walk.map fun step => (step.1, .event (.press step.2.button))

/-! ## Places among the entries -/

namespace History

variable {history : History} {count place : Nat}

/-- Where a step leads from a place among entries, of which there are `count`. There is a place for
each entry and one past the last, and from the ends no step leads any further. -/
def saturate (count place : Nat) (stride : Stride) : Nat :=
  (max 0 (min (count : Int) (place + stride.offset))).toNat

lemma saturate_le (count place : Nat) (stride : Stride) :
    saturate count place stride ≤ count := by
  unfold saturate
  omega

lemma saturate_older (h : place ≤ count) : saturate count place .older = place - 1 := by
  simp only [saturate, Stride.offset]
  omega

lemma saturate_newer (count place : Nat) :
    saturate count place .newer = min (place + 1) count := by
  simp only [saturate, Stride.offset]
  omega

lemma foldl_saturate_le (h : place ≤ count) (strides : List Stride) :
    strides.foldl (saturate count) place ≤ count := by
  induction strides generalizing place with
  | nil => exact h
  | cons stride strides ih => exact ih (saturate_le count place stride)

/-- Steps back that `saturate` go down to the first place. -/
lemma foldl_saturate_older (h : place ≤ count) (steps : Nat) :
    (List.replicate steps Stride.older).foldl (saturate count) place = place - steps := by
  induction steps generalizing place with
  | zero => rfl
  | succ steps ih =>
    have hnext : place - 1 ≤ count := by omega
    rw [List.replicate_succ, List.foldl_cons, saturate_older h, ih hnext]
    omega

lemma foldl_saturate_newer (h : place ≤ count) (steps : Nat) :
    (List.replicate steps Stride.newer).foldl (saturate count) place
      = min (place + steps) count := by
  induction steps generalizing place with
  | zero => exact (Nat.min_eq_left h).symm
  | succ steps ih =>
    have hnext : min (place + 1) count ≤ count := Nat.min_le_right _ _
    rw [List.replicate_succ, List.foldl_cons, saturate_newer, ih hnext]
    omega

lemma foldl_saturate_back_and_forth {back forth : Nat} (hforth : forth < back)
    (hback : back ≤ count) :
    (List.replicate back Stride.older ++ List.replicate forth Stride.newer).foldl
      (saturate count) count = count - back + forth := by
  have hthere : count - back ≤ count := Nat.sub_le _ _
  rw [List.foldl_append, foldl_saturate_older (Nat.le_refl count), foldl_saturate_newer hthere]
  omega

/-! ## Steps of a history -/

/-- The one of `stepBack` and `stepForward` that takes the step. -/
def stride (history : History) : Stride → History × Option String
  | .older => history.stepBack
  | .newer => history.stepForward

lemma stride_of_nil (h : history.entries = []) (stride : Stride) :
    history.stride stride = (history, none) := by
  have hempty : history.isEmpty = true := by
    rw [isEmpty, h]
    rfl
  cases stride <;> simp only [History.stride, stepBack, stepForward, hempty, if_true]

/-- With entries, a step moves the cursor as `saturate` says and recalls the entry there, or an
empty text past the last one. -/
lemma stride_of_ne_nil (h : history.entries ≠ [])
    (hcursor : history.cursor ≤ history.entries.length) (stride : Stride) :
    let place := saturate history.entries.length history.cursor stride
    history.stride stride
      = ({ history with cursor := place }, some (history.entries[place]?.getD "")) := by
  have hempty : ¬ history.isEmpty = true := by
    rw [isEmpty, List.isEmpty_iff]
    exact h
  cases stride with
  | older =>
    -- one step back is always at an entry
    have hlength : 0 < history.entries.length := List.length_pos_iff.2 h
    have hplace : history.cursor - 1 < history.entries.length := by omega
    simp only [History.stride, stepBack, if_neg hempty, saturate_older hcursor,
      List.getElem?_eq_getElem hplace, Option.getD_some]
  | newer => simp only [History.stride, stepForward, if_neg hempty, saturate_newer]

end History

open History

namespace Session

variable {machine : Machine} {session : Session}

/-! ## The cursor and the input line -/

/-- The cursor is at a place, and the entry that it is at stands in the input line. Past the last
entry anything may stand there. -/
structure InStep (session : Session) : Prop where
  cursor_le : session.history.cursor ≤ session.history.entries.length
  shown : session.history.cursor < session.history.entries.length →
    session.history.entries[session.history.cursor]? = some session.input

/-- The session that recalls what is at a place. -/
def recallAt (session : Session) (place : Nat) : Session :=
  { session with
    history := { session.history with cursor := place }
    input := session.history.entries[place]?.getD "" }

/-- Recalling what is at another place leaves no trace of the one before. -/
lemma recallAt_recallAt (session : Session) (first second : Nat) :
    (session.recallAt first).recallAt second = session.recallAt second := rfl

lemma InStep.of_live (h : session.history.cursor = session.history.entries.length) :
    session.InStep :=
  ⟨Nat.le_of_eq h, fun hlt => absurd h (Nat.ne_of_lt hlt)⟩

lemma inStep_recallAt {place : Nat} (h : place ≤ session.history.entries.length) :
    (session.recallAt place).InStep := by
  refine ⟨h, fun hlt => ?_⟩
  have hplace : place < session.history.entries.length := hlt
  show session.history.entries[place]? = some (session.history.entries[place]?.getD "")
  rw [List.getElem?_eq_getElem hplace, Option.getD_some]

/-- Pressing the `button` of a step takes the step. -/
lemma handle_stride (machine : Machine) (session : Session) (stride : Stride) :
    (session.handle machine (.press stride.button)).1
      = session.withRecalled (session.history.stride stride) := by
  cases stride <;> rfl

lemma handle_stride_of_nil (h : session.history.entries = []) (machine : Machine)
    (stride : Stride) : (session.handle machine (.press stride.button)).1 = session := by
  rw [handle_stride, stride_of_nil h]
  rfl

/-- With entries, the `button` of a step recalls what is where the step leads. -/
lemma InStep.handle_stride (h : session.InStep) (hne : session.history.entries ≠ [])
    (machine : Machine) (stride : Stride) :
    (session.handle machine (.press stride.button)).1
      = session.recallAt
          (saturate session.history.entries.length session.history.cursor stride) := by
  rw [Session.handle_stride, stride_of_ne_nil hne h.cursor_le]
  rfl

lemma InStep.stride (h : session.InStep) (machine : Machine) (stride : Stride) :
    (session.handle machine (.press stride.button)).1.InStep := by
  by_cases hne : session.history.entries = []
  · rw [handle_stride_of_nil hne]
    exact h
  · rw [h.handle_stride hne]
    exact inStep_recallAt (saturate_le _ _ _)

/-- Every action leaves the session `InStep`: those that are no steps put the cursor past the last
entry. -/
theorem InStep.act (h : session.InStep) (machine : Machine) (action : Action) :
    (session.act machine action).1.InStep := by
  cases action with
  | submit line => exact of_live (cursor_record _)
  | event event =>
    cases event with
    | type c => exact of_live rfl
    | backspace => exact of_live rfl
    | press button =>
      cases button with
      | up => exact h.stride machine .older
      | down => exact h.stride machine .newer
      | cancel => exact of_live rfl
      | confirm => exact of_live (cursor_record _)

/-- A run leaves the session `InStep`. -/
theorem InStep.run (h : session.InStep) (machine : Machine) (actions : List (Reading × Action)) :
    (session.run machine actions).1.InStep :=
  run_induction (fun _ reading action hstep => hstep.act (machine.withClock reading) action) h
    actions

/-! ## Walks -/

lemma run_ofStrides_cons (machine : Machine) (session : Session) (reading : Reading)
    (stride : Stride) (rest : List (Reading × Stride)) :
    (session.run machine (Action.ofStrides ((reading, stride) :: rest))).1
      = (run machine (session.handle (machine.withClock reading) (.press stride.button)).1
          (Action.ofStrides rest)).1 := rfl

/-- Without entries, a walk does nothing. -/
lemma run_ofStrides_of_nil (h : session.history.entries = []) (walk : List (Reading × Stride)) :
    (session.run machine (Action.ofStrides walk)).1 = session := by
  induction walk with
  | nil => rfl
  | cons step rest ih =>
    obtain ⟨reading, stride⟩ := step
    rw [run_ofStrides_cons, handle_stride_of_nil h, ih]

/-- With entries, a walk ends in `recallAt` the place where its steps lead. -/
theorem InStep.run_ofStrides (h : session.InStep) (hne : session.history.entries ≠ [])
    {walk : List (Reading × Stride)} (hwalk : walk ≠ []) :
    (session.run machine (Action.ofStrides walk)).1
      = session.recallAt ((walk.map Prod.snd).foldl (saturate session.history.entries.length)
          session.history.cursor) := by
  induction walk generalizing session with
  | nil => exact absurd rfl hwalk
  | cons step rest ih =>
    obtain ⟨reading, stride⟩ := step
    rw [run_ofStrides_cons, h.handle_stride hne, List.map_cons, List.foldl_cons]
    cases rest with
    | nil => rfl
    | cons next rest =>
      rw [ih (inStep_recallAt (saturate_le _ _ _)) hne (List.cons_ne_nil _ _), recallAt_recallAt]
      rfl

/-- **Recall.** After any run of a fresh session, the cursor is at an entry, which then stands in
the input line, or past the last one. From there, a walk of Up and Down leaves the entries, the
directory and the transcript as they are, moves the cursor by one for each step, held at both ends,
and shows the entry there or, past the last one, nothing. Without entries a walk does nothing at
all. In particular, steps Up from past the last entry and fewer steps Down show the entry as far
from the end as there were more steps Up. -/
theorem recall_run (machine : Machine) (actions : List (Reading × Action)) :
    let session := ((start machine.config).run machine actions).1
    let entries := session.history.entries
    let cursor := session.history.cursor
    cursor ≤ entries.length ∧
    (cursor < entries.length → entries[cursor]? = some session.input) ∧
    ∀ walk : List (Reading × Stride),
      let after := (session.run machine (Action.ofStrides walk)).1
      let place := (walk.map Prod.snd).foldl (saturate entries.length) cursor
      (entries = [] → after = session) ∧
      (entries ≠ [] → walk ≠ [] → place ≤ entries.length ∧
        after = { session with
          history := { entries, cursor := place }
          input := entries[place]?.getD "" }) ∧
      ∀ back forth : Nat,
        walk.map Prod.snd = List.replicate back .older ++ List.replicate forth .newer →
        cursor = entries.length → forth < back → back ≤ entries.length →
        entries[entries.length - back + forth]? = some after.input := by
  intro session entries cursor
  have hfresh : (start machine.config).InStep := .of_live rfl
  have hstep : session.InStep := hfresh.run machine actions
  refine ⟨hstep.cursor_le, hstep.shown, fun walk => ?_⟩
  intro after place
  refine ⟨fun hnil => run_ofStrides_of_nil hnil walk, fun hne hwalk => ⟨?_, ?_⟩, ?_⟩
  · exact foldl_saturate_le hstep.cursor_le _
  · exact hstep.run_ofStrides hne hwalk
  · intro back forth hstrides hlive hforth hback
    -- so many steps back and fewer forward do not meet either end
    have hplace : place = entries.length - back + forth := by
      show (walk.map Prod.snd).foldl (saturate entries.length) cursor = _
      rw [hstrides, hlive, foldl_saturate_back_and_forth hforth hback]
    have hlt : entries.length - back + forth < entries.length := by omega
    have hne : entries ≠ [] := List.length_pos_iff.1 (by omega)
    -- there is a step back at least
    have hwalk : walk ≠ [] := by
      rintro rfl
      have hlength := congrArg List.length hstrides
      simp only [List.map_nil, List.length_nil, List.length_append, List.length_replicate]
        at hlength
      omega
    have hafter : after = session.recallAt place := hstep.run_ofStrides hne hwalk
    rw [hafter, hplace]
    show _ = some (entries[entries.length - back + forth]?.getD "")
    rw [List.getElem?_eq_getElem hlt, Option.getD_some]

/-- A walk that a submitted line ends; then one past the oldest entry and back, one that ends past
the newest entry, and so many steps back and fewer forward. -/
theorem recall_run_interrupted :
    let now : Reading := .ok (.ofUnixSeconds 0)
    let machine : Machine := { config := {}, tree := .empty, clock := now }
    let actions : List (Reading × Action) :=
      [(now, .submit "a"), (now, .submit " b "), (now, .event (.press .up)),
        (now, .event (.press .up)), (now, .submit "c")]
    let session := ((start machine.config).run machine actions).1
    let walk := fun strides : List Stride => strides.map fun stride => (now, stride)
    let walked := fun strides => (session.run machine (Action.ofStrides (walk strides))).1
    session.input = "a" ∧ session.history = { entries := ["a", "b", "c"], cursor := 3 } ∧
      walked [.older, .older, .older, .older, .newer]
        = { session with history := { session.history with cursor := 1 }, input := "b" } ∧
      walked [.older, .newer, .newer] = { session with input := "" } ∧
      (walked [.older, .older, .newer]).input = "c" := by
  intro now machine actions session walk walked
  have hinput : session.input = "a" := by decide +kernel
  have hhistory : session.history = { entries := ["a", "b", "c"], cursor := 3 } := by
    decide +kernel
  have hback : ((walk [.older, .older, .older, .older, .newer]).map Prod.snd).foldl
      (saturate 3) 3 = 1 := by
    decide +kernel
  have hlive : ((walk [.older, .newer, .newer]).map Prod.snd).foldl (saturate 3) 3 = 3 := by
    decide +kernel
  have hlength : ["a", "b", "c"].length = 3 := rfl
  obtain ⟨-, -, hwalks⟩ := recall_run machine actions
  simp only [show ((start machine.config).run machine actions).1 = session from rfl, hhistory,
    hlength] at hwalks
  refine ⟨hinput, hhistory, ?_, ?_, ?_⟩
  · have hafter := ((hwalks (walk [.older, .older, .older, .older, .newer])).2.1 (by decide)
      (by decide)).2
    rw [hback] at hafter
    rw [hhistory]
    exact hafter
  · have hafter := ((hwalks (walk [.older, .newer, .newer])).2.1 (by decide) (by decide)).2
    rw [hlive, ← hhistory] at hafter
    exact hafter
  · have hafter := (hwalks (walk [.older, .older, .newer])).2.2 2 1 rfl trivial
      (by decide) (by decide)
    exact (Option.some.inj hafter).symm

end Session

end MiniShell
