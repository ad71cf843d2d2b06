import MiniShell.Proofs.Highlight.Marking
import MiniShell.Proofs.Text.Slice

/-!
# Scanning a line in one pass

The marked line can be put together in one pass over the characters of a text, with the hits and
what stands between them cut out of its bytes. Such a pass ends, all its cuts are at borders of
characters and in order, and what it gives is the marked line.

* `Scan.round`, `Scan.run`: a round of the pass, and the pass;
* `Scan.LeadsTo`: what a pass will come to, which no round changes;
* `scan_eq`: the pass gives the marked line.
-/

namespace MiniShell.Highlight

/-- Are the characters at a place those of the pattern, by `Text.sameFolded`? -/
def isHit (pattern : List Char) (indices : List (Nat × Char)) (place : Nat) : Bool :=
  (((indices.drop place).take pattern.length).zip pattern).all fun (c, p) =>
    Text.sameFolded c.2 p

/-- A pass over a text: the place among the characters where it stands, the byte up to which the
text has been put into spans, these spans, and whether there is a hit among them. -/
structure Scan where
  place : Nat := 0
  cut : Nat := 0
  line : Line := .empty
  found : Bool := false

namespace Scan

/-- A round: a hit is cut out, with what stands between it and the one before, and left behind; a
character that starts no hit is left behind. Fails if something cannot be cut out. -/
def round (pattern text : String) (scan : Scan) : Option Scan :=
  let indices := Text.charIndices 0 text.toList
  if isHit pattern.toList indices scan.place then do
    let (start, _) ← indices[scan.place]?
    let stop := ((indices[scan.place + pattern.length]?).map Prod.fst).getD text.utf8ByteSize
    let before ← Text.slice? text scan.cut start
    let hit ← Text.slice? text start stop
    pure
      { place := scan.place + pattern.length
        cut := stop
        line := (scan.line.push before .plain).push hit .hit
        found := true }
  else some { scan with place := scan.place + 1 }

/-- The result of a pass that is over: the spans and what is left of the text, if there is a hit. -/
def result? (text : String) (scan : Scan) : Option (Option Line) :=
  if scan.found then
    (Text.slice? text scan.cut text.utf8ByteSize).map fun rest => some (scan.line.push rest .plain)
  else some none

/-- A pass of at most the given number of rounds. It is over once fewer characters are left than the
pattern has. -/
def run (pattern text : String) : Nat → Scan → Option (Option Line)
  | 0, _ => none
  | rounds + 1, scan =>
    if scan.place + pattern.length ≤ text.length then
      (scan.round pattern text).bind (run pattern text rounds)
    else scan.result? text

variable {pattern text : String} {scan : Scan} {done : Nat} {hits : List Nat}
  {result : Option Line}

/-! ## What a pass comes to -/

/-- A pass that has cut the text up to a character, and has still to find the given hits, comes to a
result: the spans so far, and those `marked` for these hits, make it up. -/
structure LeadsTo (pattern text : String) (scan : Scan) (done : Nat) (hits : List Nat)
    (result : Option Line) : Prop where
  cut_eq : scan.cut = Text.bytesBefore text done
  done_le : done ≤ scan.place
  place_le : scan.place ≤ text.length
  greedy : Greedy pattern.toList text.toList scan.place hits
  result_eq : result = if scan.found = false ∧ hits = [] then none
    else some ⟨scan.line.spans ++ marked pattern.toList text.toList done hits⟩

/-- The test `isHit` of a round finds occurrences. -/
lemma isHit_iff {pattern text : List Char} {place : Nat}
    (hroom : place + pattern.length ≤ text.length) :
    isHit pattern (Text.charIndices 0 text) place = true ↔ OccursAt pattern text place := by
  have hchars : (text.drop place).take pattern.length
      = (((Text.charIndices 0 text).drop place).take pattern.length).map Prod.snd := by
    rw [List.map_take, List.map_drop, Text.map_charIndices]
  have hlength : (((Text.charIndices 0 text).drop place).take pattern.length).length
      = pattern.length := by
    rw [← List.length_map Prod.snd, ← hchars, List.length_take, List.length_drop]
    omega
  rw [OccursAt, hchars, List.forall₂_map_left_iff, List.forall₂_iff_zip, isHit, List.all_eq_true]
  constructor
  · intro hall
    exact ⟨hlength, fun hmem => hall _ hmem⟩
  · rintro ⟨-, hall⟩ pair hmem
    exact hall hmem

/-- The byte where the character `j` starts in `Text.charIndices`, or the end of the text behind the
last one, is `Text.bytesBefore` it. -/
lemma getD_charIndices (text : String) (j : Nat) :
    (((Text.charIndices 0 text.toList)[j]?).map Prod.fst).getD text.utf8ByteSize
      = Text.bytesBefore text j := by
  rw [Text.getElem?_charIndices]
  cases hchar : text.toList[j]? with
  | none =>
    rw [List.getElem?_eq_none_iff, String.length_toList] at hchar
    exact (Text.bytesBefore_of_length_le hchar).symm
  | some c =>
    simp only [Option.map_some, Option.getD_some, Nat.zero_add]
    rfl

lemma spans_push_plain (line : Line) (between : List Char) :
    (line.push (String.ofList between) .plain).spans = line.spans ++ plainSpans between := by
  by_cases hbetween : between = [] <;> simp [Line.push, plainSpans, hbetween]

lemma spans_push_hit (line : Line) {characters : List Char} (h : characters ≠ []) :
    (line.push (String.ofList characters) .hit).spans
      = line.spans ++ [⟨String.ofList characters, .hit⟩] := by
  simp [Line.push, h]

/-- A `round` that stands at an occurrence cuts it out. -/
lemma round_of_occursAt (hpattern : pattern.toList ≠ [])
    (hcut : scan.cut = Text.bytesBefore text done) (hdone : done ≤ scan.place)
    (hocc : OccursAt pattern.toList text.toList scan.place) :
    scan.round pattern text
      = some
        { place := scan.place + pattern.length
          cut := Text.bytesBefore text (scan.place + pattern.length)
          line :=
            (scan.line.push
                (String.ofList ((text.toList.drop done).take (scan.place - done))) .plain).push
              (String.ofList ((text.toList.drop scan.place).take pattern.length)) .hit
          found := true } := by
  have hroom := hocc.add_le hpattern
  have hpos := List.length_pos_iff.2 hpattern
  have hlt : scan.place < text.toList.length := by omega
  have hstart : (Text.charIndices 0 text.toList)[scan.place]?
      = some (Text.bytesBefore text scan.place, text.toList[scan.place]) := by
    rw [Text.getElem?_charIndices, List.getElem?_eq_getElem hlt, Option.map_some, Nat.zero_add]
    rfl
  have hbefore := Text.slice?_bytesBefore text hdone
  have hhit := Text.slice?_bytesBefore text (Nat.le_add_right scan.place pattern.length)
  rw [Nat.add_sub_cancel_left] at hhit
  simp only [Scan.round, if_pos ((isHit_iff hroom).2 hocc), hstart, getD_charIndices, hcut,
    hbefore, hhit, Option.bind_eq_bind, Option.bind_some, Option.pure_def]

/-- A `round` leaves some of the text behind, and does not change what the pass comes to. -/
lemma LeadsTo.round (h : scan.LeadsTo pattern text done hits result) (hpattern : pattern ≠ "")
    (hroom : scan.place + pattern.length ≤ text.length) :
    ∃ next done hits, scan.round pattern text = some next ∧ scan.place < next.place ∧
      next.LeadsTo pattern text done hits result := by
  have hne : pattern.toList ≠ [] := by simpa using hpattern
  have hpos : 0 < pattern.length := by
    rw [← String.length_toList]
    exact List.length_pos_iff.2 hne
  by_cases hocc : OccursAt pattern.toList text.toList scan.place
  · -- the hit is the first of those to be found, and the pass goes on where it ends
    obtain ⟨rest, rfl, hrest⟩ := h.greedy.eq_cons hocc
    have hsome : (text.toList.drop scan.place).take pattern.length ≠ [] := by
      rw [← List.length_pos_iff, ← String.length_toList, hocc.length_eq]
      exact List.length_pos_iff.2 hne
    have hresult := h.result_eq
    rw [marked_cons hne h.done_le hocc, if_neg (by simp)] at hresult
    rw [String.length_toList] at hrest hresult
    refine ⟨_, scan.place + pattern.length, rest, round_of_occursAt hne h.cut_eq h.done_le hocc,
      Nat.lt_add_of_pos_right hpos, ?_⟩
    refine ⟨rfl, le_rfl, hroom, hrest, ?_⟩
    rw [hresult, if_neg (by simp), spans_push_hit _ hsome, spans_push_plain, List.append_assoc,
      List.append_assoc, List.singleton_append]
  · -- nothing is cut out, and all hits are still to be found
    have hmiss : ¬ isHit pattern.toList (Text.charIndices 0 text.toList) scan.place = true := by
      rw [← String.length_toList, ← String.length_toList] at hroom
      exact mt (isHit_iff hroom).1 hocc
    have hnext : scan.place + 1 ≤ text.length := by omega
    refine ⟨{ scan with place := scan.place + 1 }, done, hits, ?_, Nat.lt_succ_self _, ?_⟩
    · simp only [Scan.round, if_neg hmiss]
    · exact ⟨h.cut_eq, Nat.le_succ_of_le h.done_le, hnext, h.greedy.succ hocc, h.result_eq⟩

lemma LeadsTo.result? (h : scan.LeadsTo pattern text done hits result) (hpattern : pattern ≠ "")
    (hroom : ¬ scan.place + pattern.length ≤ text.length) :
    scan.result? text = some result := by
  -- a further hit would end behind the text
  have hnil : hits = [] := by
    apply h.greedy.eq_nil_iff.2
    intro j hj hocc
    have hend := hocc.add_le (by simpa using hpattern)
    rw [String.length_toList, String.length_toList] at hend
    omega
  -- the last cut is at a character, so the rest can be cut out
  have hrest : Text.slice? text scan.cut text.utf8ByteSize
      = some (String.ofList (text.toList.drop done)) := by
    have hslice := Text.slice?_bytesBefore text (h.done_le.trans h.place_le)
    rw [← h.cut_eq, Text.bytesBefore_of_length_le le_rfl, List.take_of_length_le] at hslice
    · exact hslice
    · rw [List.length_drop, String.length_toList]
  have hresult := h.result_eq
  rw [hnil, marked_nil] at hresult
  rw [Scan.result?, hresult]
  split
  case isTrue hfound =>
    rw [hrest, Option.map_some, if_neg (by simp [hfound]), ← spans_push_plain]
  case isFalse hfound => rw [if_pos ⟨by simpa using hfound, rfl⟩]

/-- A pass comes to its result if `run` may take a round more than there are characters left. -/
lemma LeadsTo.run (h : scan.LeadsTo pattern text done hits result) (hpattern : pattern ≠ "")
    {rounds : Nat} (hrounds : text.length < scan.place + rounds) :
    scan.run pattern text rounds = some result := by
  induction rounds generalizing scan done hits with
  | zero =>
    have hplace := h.place_le
    omega
  | succ rounds ih =>
    rw [Scan.run]
    split
    case isTrue hroom =>
      obtain ⟨next, _, _, hnext, hlt, hleads⟩ := h.round hpattern hroom
      rw [hnext, Option.bind_some]
      exact ih hleads (by omega)
    case isFalse hroom => exact h.result? hpattern hroom

end Scan

/-- Computes `mark?` by a pass of at most the given number of rounds. An empty pattern finds every
line and marks nothing. -/
def scan (pattern text : String) (rounds : Nat) : Option (Option Line) :=
  if pattern = "" then some (some (.plain text)) else Scan.run pattern text rounds {}

/-- A pass with a round more than there are characters ends, can cut out everything that it wants
to, and gives what `mark?` gives. -/
theorem scan_eq (pattern text : String) {rounds : Nat} (hrounds : text.length < rounds) :
    scan pattern text rounds = some (mark? pattern text) := by
  rw [scan]
  split
  case isTrue hempty => rw [mark?, if_pos hempty]
  case isFalse hpattern =>
    have hstart : Scan.LeadsTo pattern text {} 0 (starts pattern.toList text.toList)
        (mark? pattern text) := by
      refine ⟨rfl, le_rfl, Nat.zero_le _, greedy_starts_toList hpattern text, ?_⟩
      rw [mark?_eq hpattern]
      simp [Line.empty]
    exact hstart.run hpattern (by simpa using hrounds)

end MiniShell.Highlight
