import MiniShell.Proofs.Console.Dialogue
import MiniShell.Proofs.Session.Blanks

/-!
# Padded input

Tabs, carriage returns and spaces around a line of input are bytes that no other character can be
made of, so a padded line is a text if and only if the line is one. The two texts are the same
without the blanks around them, and sessions in which they are entered differ in the texts of
their echoes at most, which the console never prints. So padding cannot be seen in what the program
prints.

* `Padded`: an input with padding around its lines;
* `map_trim_line?_pieces`: the lines of a padded input, trimmed;
* `run_congr_bare`: what the console prints for lines that are the same when trimmed;
* `programAt_padded`: what the program prints for padded input.
-/

namespace MiniShell.Console

open Text

variable {input padded bytes before after piece : List UInt8} {session other : Session}
  {line typed : String}

/-- Are the bytes tabs, carriage returns and spaces? -/
def IsPadding (bytes : List UInt8) : Prop :=
  ∀ byte ∈ bytes, byte = 9 ∨ byte = 13 ∨ byte = 32

instance (bytes : List UInt8) : Decidable (IsPadding bytes) :=
  List.decidableBAll _ bytes

/-- An input, and the input with padding around those of its lines that a line feed ends. -/
inductive Padded : List UInt8 → List UInt8 → Prop where
  | unended {piece : List UInt8} (hpiece : 10 ∉ piece) : Padded piece piece
  | ended {piece before after input padded : List UInt8} (hpiece : 10 ∉ piece)
      (hbefore : IsPadding before) (hafter : IsPadding after) (hrest : Padded input padded) :
      Padded (piece ++ 10 :: input) (before ++ piece ++ after ++ 10 :: padded)

/-- The input with a carriage return before every line feed. -/
def withReturns (input : List UInt8) : List UInt8 :=
  input.flatMap fun byte => if byte = 10 then [13, 10] else [byte]

/-! ## Lines with padding around them -/

/-- Bytes that are `IsPadding` encode blanks. -/
lemma exists_isBlank_of_isPadding (h : IsPadding bytes) :
    ∃ text, IsBlank text ∧ toBytes text = bytes := by
  induction bytes with
  | nil => exact ⟨"", by decide, rfl⟩
  | cons byte bytes ih =>
    obtain ⟨hbyte, hrest⟩ := List.forall_mem_cons.1 h
    obtain ⟨text, hblank, htext⟩ := ih hrest
    -- each of the three bytes encodes a blank by itself
    have hchar : ∃ c : Char, isBlank c = true ∧ toBytes (String.ofList [c]) = [byte] := by
      rcases hbyte with rfl | rfl | rfl
      · exact ⟨'\t', by decide +kernel, by decide +kernel⟩
      · exact ⟨'\r', by decide +kernel, by decide +kernel⟩
      · exact ⟨' ', by decide +kernel, by decide +kernel⟩
    obtain ⟨c, hc, hencoded⟩ := hchar
    refine ⟨String.ofList [c] ++ text, ?_, ?_⟩
    · rw [IsBlank, String.toList_append, String.toList_ofList]
      exact List.forall_mem_cons.2 ⟨hc, hblank⟩
    · rw [toBytes_append, hencoded, htext, List.singleton_append]

lemma IsPadding.not_mem (h : IsPadding bytes) : 10 ∉ bytes := by
  intro hmem
  have hten := h 10 hmem
  revert hten
  decide

/-- The line ends that `lineOf` cuts off a text are blanks. -/
lemma trim_lineOf (text : String) : trim (lineOf text) = trim text := by
  let lineEnd := fun c => c == '\n' || c == '\r'
  let ends := String.ofList (text.toList.rtakeWhile lineEnd)
  have hends : IsBlank ends := by
    intro c hc
    rw [String.toList_ofList] at hc
    have hend : c = '\n' ∨ c = '\r' := by simpa [lineEnd] using List.mem_rtakeWhile_imp hc
    rcases hend with rfl | rfl <;> decide
  have htext : lineOf text ++ ends = text := by
    apply String.toList_inj.1
    rw [lineOf, String.toList_append, String.toList_ofList, String.toList_ofList]
    exact List.rdropWhile_append_rtakeWhile
  calc trim (lineOf text)
      = trim (lineOf text ++ ends) := (trim_append_of_blank hends _).symm
    _ = trim text := by rw [htext]

lemma map_trim_line? (piece : List UInt8) :
    (line? piece).map trim = (ofBytes? piece).map trim := by
  have hline : line? piece = (ofBytes? piece).map lineOf := rfl
  rw [hline]
  cases ofBytes? piece with
  | none => rfl
  | some text => exact congrArg some (trim_lineOf text)

/-- Padding around a piece changes neither the line that `line?` finds, trimmed, nor whether there
is one. -/
lemma map_trim_line?_padded (hbefore : IsPadding before) (hafter : IsPadding after)
    (piece : List UInt8) :
    (line? (before ++ piece ++ after)).map trim = (line? piece).map trim := by
  obtain ⟨front, hfront, rfl⟩ := exists_isBlank_of_isPadding hbefore
  obtain ⟨back, hback, rfl⟩ := exists_isBlank_of_isPadding hafter
  rw [map_trim_line?, map_trim_line?, ofBytes?_append_toBytes, ofBytes?_toBytes_append,
    Option.map_map, Option.map_map]
  congr 1
  funext text
  show trim (front ++ text ++ back) = trim text
  rw [trim_append_of_blank hback, trim_blank_append hfront]

/-- A `Padded` input has the lines of the input, trimmed. -/
theorem map_trim_line?_pieces (h : Padded input padded) :
    (pieces padded).map (fun piece => (line? piece).map trim)
      = (pieces input).map fun piece => (line? piece).map trim := by
  induction h with
  | unended hpiece => rfl
  | @ended piece before after input padded hpiece hbefore hafter hrest ih =>
    have hfeed : 10 ∉ before ++ piece ++ after := by
      simp [hpiece, hbefore.not_mem, hafter.not_mem]
    rw [pieces_ended hpiece, pieces_ended hfeed, List.map_cons, List.map_cons, ih,
      map_trim_line?_padded hbefore hafter]

lemma padded_withReturns (input : List UInt8) : Padded input (withReturns input) := by
  -- a piece without line feeds gets no carriage return
  have hsame : ∀ {piece : List UInt8}, 10 ∉ piece → withReturns piece = piece := by
    intro piece hpiece
    induction piece with
    | nil => rfl
    | cons byte piece ih =>
      obtain ⟨hbyte, hrest⟩ := not_or.1 (mt List.mem_cons.2 hpiece)
      rw [withReturns, List.flatMap_cons, if_neg (Ne.symm hbyte), ← withReturns, ih hrest,
        List.singleton_append]
  obtain ⟨chunks, hchunks⟩ := exists_chunked input
  induction hchunks with
  | nil => exact .unended List.not_mem_nil
  | unended hne hpiece =>
    rw [hsame hpiece]
    exact .unended hpiece
  | @ended piece input chunks hpiece hrest ih =>
    have hreturns : withReturns (piece ++ 10 :: input)
        = [] ++ piece ++ [13] ++ 10 :: withReturns input := by
      rw [withReturns, List.flatMap_append, List.flatMap_cons, if_pos rfl, ← withReturns,
        ← withReturns, hsame hpiece]
      simp
    rw [hreturns]
    exact .ended hpiece (by decide) (by decide) ih

/-! ## Sessions at the console -/

lemma prompt_congr_bare (h : session.bare = other.bare) (console : Console) :
    { console with session }.prompt = { console with session := other }.prompt := by
  rw [prompt, prompt, Session.prompt, Session.prompt, (Session.bare_eq_bare_iff.1 h).1]

/-- Lines that are the same when trimmed make `enter` print the same, whatever the echoes. -/
lemma enter_congr_bare (h : session.bare = other.bare) (htrim : trim line = trim typed)
    (console : Console) :
    ({ console with session }.enter line).2
      = ({ console with session := other }.enter typed).2 := by
  obtain ⟨hshown, -, htranscript⟩ :=
    Session.submit_congr_bare h (Session.words_congr_trim htrim) console.machine
  have hempty := congrArg List.isEmpty htranscript
  rw [List.isEmpty_map, List.isEmpty_map] at hempty
  show (if (session.submit console.machine line).1.transcript.isEmpty then _
      else Render.lines console.color (session.submit console.machine line).2)
    = if (other.submit console.machine typed).1.transcript.isEmpty then _
      else Render.lines console.color (other.submit console.machine typed).2
  rw [hempty, hshown]

lemma run_cons_withSession (hline : line? piece = some line) (clock : Nat → Reading)
    (console : Console) (session : Session) (rest : List (List UInt8)) :
    let here := console.withClock (clock 0)
    let later := { here with session := (session.submit here.machine line).1 }.run
      (fun n => clock (n + 1)) rest
    { console with session }.run clock (piece :: rest)
      = ({ console with session }.prompt ++ ({ here with session }.enter line).2 ++ later.1,
          later.2) :=
  run_cons_of_line? hline clock { console with session } rest

/-- Pieces whose lines are the same when trimmed make `run` print the same, whatever the echoes. -/
theorem run_congr_bare {first second : List (List UInt8)} (h : session.bare = other.bare)
    (hlines : first.map (fun piece => (line? piece).map trim)
      = second.map fun piece => (line? piece).map trim)
    (clock : Nat → Reading) (console : Console) :
    { console with session }.run clock first
      = { console with session := other }.run clock second := by
  -- the two sessions drift apart in what they echo, and in nothing else
  induction first generalizing second session other clock console with
  | nil =>
    rw [List.map_nil, eq_comm, List.map_eq_nil_iff] at hlines
    rw [hlines, run, run, prompt_congr_bare h]
  | cons piece first ih =>
    cases second with
    | nil => exact absurd hlines (by simp)
    | cons next second =>
      rw [List.map_cons, List.map_cons, List.cons.injEq] at hlines
      obtain ⟨hline, hlines⟩ := hlines
      cases hfirst : line? piece with
      | none =>
        rw [hfirst, Option.map_none, eq_comm, Option.map_eq_none_iff] at hline
        rw [run, run, hfirst, hline]
        simp only [prompt_congr_bare h]
      | some line =>
        rw [hfirst, Option.map_some, eq_comm, Option.map_eq_some_iff] at hline
        obtain ⟨typed, hsecond, htrim⟩ := hline
        let here := console.withClock (clock 0)
        have hprinted := enter_congr_bare h htrim.symm here
        have hafter := Session.bare_submit_congr h htrim.symm here.machine
        have hlater := ih hafter hlines (fun n => clock (n + 1)) here
        rw [run_cons_withSession hfirst, run_cons_withSession hsecond, prompt_congr_bare h,
          hprinted, hlater]

/-! ## The program -/

lemma programAt_congr {clock : Nat → Reading}
    (h : ∀ console : Console, console.run clock (pieces padded) = console.run clock (pieces input))
    (source : Config.Source) : programAt source clock padded = programAt source clock input := by
  unfold programAt
  -- so that no tree is made
  generalize ((Config.load source).bind fun config => start config (clock 0) false) = started
  cases started with
  | error cause => rfl
  | ok console => simp only [h]

/-- **Padding cannot be seen.** Carriage returns before all line feeds of an input, and tabs,
carriage returns and spaces around any of its lines that a line feed ends, change neither what the
program prints nor its exit code. -/
theorem programAt_padded (source : Config.Source) (clock : Nat → Reading) (input : List UInt8) :
    programAt source clock (withReturns input) = programAt source clock input ∧
      ∀ padded, Padded input padded →
        programAt source clock padded = programAt source clock input := by
  have hpadded : ∀ padded, Padded input padded →
      programAt source clock padded = programAt source clock input := fun padded h =>
    programAt_congr (fun console => run_congr_bare rfl (map_trim_line?_pieces h) clock console)
      source
  exact ⟨hpadded _ (padded_withReturns input), hpadded⟩

/-- A line that shows the history with a space before and a tab behind it, a line that is no text
with padding of each kind around it, and a line that nothing ends. -/
theorem programAt_padded_mixed :
    let clock : Nat → Reading := fun n => .ok (.ofUnixSeconds n)
    let input := toBytes "history" ++ 10 :: ([255] ++ 10 :: toBytes "x ")
    let padded := [32] ++ toBytes "history" ++ [9] ++ 10 ::
      ([13, 9] ++ [255] ++ [32, 13] ++ 10 :: toBytes "x ")
    withReturns input = toBytes "history\r\n" ++ [255, 13, 10] ++ toBytes "x " ∧
      programAt .stock clock (withReturns input) = programAt .stock clock input ∧
      Padded input padded ∧ programAt .stock clock padded = programAt .stock clock input := by
  intro clock input padded
  have hrelated : Padded input padded :=
    .ended (by decide +kernel) (by decide) (by decide)
      (.ended (by decide) (by decide) (by decide) (.unended (by decide +kernel)))
  obtain ⟨hreturns, hsame⟩ := programAt_padded .stock clock input
  exact ⟨by decide +kernel, hreturns, hrelated, hsame padded hrelated⟩

end MiniShell.Console
