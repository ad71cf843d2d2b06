import Mathlib.Tactic.Common
import MiniShell.Render

/-!
# Reading colours back

What a console with colours is sent can be read back. A reader with a style in hand finds in a line
the characters of its spans, each in the style of its span, and has the plain style in hand again
at the end; a reader that only drops colours finds the text that a console without colours is sent.

* `decodeFrom`: a reader, given by the codes that it understands;
* `decode`, `dropCodes`: the reader of styles, and the one that drops colours;
* `eq_of_prefix_code`: the codes of two styles are told apart wherever one of them stands;
* `Understands.decodeFrom_line`: what a reader finds in a line;
* `decode_line`, `dropCodes_line`, `dropCodes_prompt`: lines and prompts.
-/

namespace MiniShell.Render

/-! ## Codes -/

def escape : Char := '\x1b'

/-- The code that sets a style: its `opening?`, or the `reset` if it has none. -/
def code (style : Style) : String :=
  (opening? style).getD reset

def styles : List Style :=
  [.plain, .hit, .directory, .accent, .error]

/-- Can the character stand between the two ends of a colour code? -/
def isParameter (c : Char) : Bool :=
  c.isDigit || c == ';'

/-- Is the text a colour code, whatever colour it stands for: `ESC [`, digits and semicolons,
and `m`? -/
def IsColorCode (text : List Char) : Prop :=
  ∃ parameters : List Char, parameters.all isParameter = true ∧
    text = escape :: '[' :: (parameters ++ ['m'])

/-- The style that the code in front of a text sets, and the length of the code. -/
def styleCode? (text : List Char) : Option (Style × Nat) :=
  (styles.find? fun style => (code style).toList.isPrefixOf text).map fun style =>
    (style, (code style).length)

/-- The length of the colour code in front of a text. -/
def colorCode? : List Char → Option (Unit × Nat)
  | first :: second :: rest =>
    if first = escape ∧ second = '[' ∧ (rest.dropWhile isParameter).head? = some 'm' then
      some ((), (rest.takeWhile isParameter).length + 3)
    else none
  | _ => none

/-! ## Readers -/

section

variable {σ : Type}

/-- Reads a text from left to right with something in hand. A code in front of the text, which
`code?` finds with its length, changes what is in hand; any other character is emitted with it. The
first `covered` characters belong to a code that was found before. Gives what is in hand at the end,
too. -/
def decodeFrom (code? : List Char → Option (σ × Nat)) (hand : σ) (covered : Nat) :
    List Char → List (Char × σ) × σ
  | [] => ([], hand)
  | c :: text =>
    match covered with
    | covered + 1 => decodeFrom code? hand covered text
    | 0 =>
      match code? (c :: text) with
      | some (next, length) => decodeFrom code? next (length - 1) text
      | none =>
        let (emitted, last) := decodeFrom code? hand 0 text
        ((c, hand) :: emitted, last)

/-- A reader that understands the `code` of every style, and takes `set style` in hand at it. -/
structure Understands (code? : List Char → Option (σ × Nat)) (set : Style → σ) : Prop where
  eq_none : ∀ {c : Char}, c ≠ escape → ∀ text, code? (c :: text) = none
  eq_some : ∀ style rest,
    code? ((code style).toList ++ rest) = some (set style, (code style).toList.length)

end

/-- The characters of a text with their styles, and the style in hand at the end, by `styleCode?`.
-/
def decode (text : String) : List (Char × Style) × Style :=
  decodeFrom styleCode? .plain 0 text.toList

/-- The text without what `colorCode?` finds in it. -/
def dropCodes (text : String) : String :=
  String.ofList ((decodeFrom colorCode? () 0 text.toList).1.map Prod.fst)

/-! ## Telling codes apart -/

/-- The `code` of a style `IsColorCode`. -/
lemma isColorCode_code (style : Style) : IsColorCode (code style).toList := by
  cases style with
  | plain => exact ⟨['0'], by decide, by decide⟩
  | hit => exact ⟨['1', ';', '3', '2'], by decide, by decide⟩
  | directory => exact ⟨['1', ';', '3', '4'], by decide, by decide⟩
  | accent => exact ⟨['3', '6'], by decide, by decide⟩
  | error => exact ⟨['3', '1'], by decide, by decide⟩

lemma mem_styles (style : Style) : style ∈ styles := by
  cases style <;> decide

/-- No `code` starts with the code of another style. -/
lemma eq_of_prefix_code {style other : Style}
    (h : (code style).toList <+: (code other).toList) : style = other := by
  have hall : ∀ style ∈ styles, ∀ other ∈ styles,
      (code style).toList <+: (code other).toList → style = other := by
    decide
  exact hall style (mem_styles style) other (mem_styles other) h

lemma understands_styleCode? : Understands styleCode? id := by
  constructor
  · intro c hc text
    rw [styleCode?, Option.map_eq_none_iff, List.find?_eq_none]
    intro style _ hprefix
    obtain ⟨parameters, -, hcode⟩ := isColorCode_code style
    rw [List.isPrefixOf_iff_prefix, hcode, List.cons_prefix_cons] at hprefix
    exact hc hprefix.1.symm
  · intro style rest
    have hhere : (code style).toList.isPrefixOf ((code style).toList ++ rest) = true :=
      List.isPrefixOf_iff_prefix.2 (List.prefix_append _ rest)
    obtain ⟨found, hfound⟩ : ∃ found, styles.find? (fun other =>
        (code other).toList.isPrefixOf ((code style).toList ++ rest)) = some found :=
      Option.isSome_iff_exists.1 (List.find?_isSome.2 ⟨style, mem_styles style, hhere⟩)
    -- two codes in front of one text: one of them starts with the other
    have hprefix := List.find?_some hfound
    rw [List.isPrefixOf_iff_prefix] at hprefix
    have hsame : found = style := by
      rcases List.prefix_or_prefix_of_prefix hprefix (List.prefix_append _ rest) with h | h
      · exact eq_of_prefix_code h
      · exact (eq_of_prefix_code h).symm
    rw [styleCode?, hfound, Option.map_some, hsame, String.length_toList]
    rfl

/-- Dropping colours finds every text that `IsColorCode`. -/
lemma colorCode?_append {text : List Char} (h : IsColorCode text) (rest : List Char) :
    colorCode? (text ++ rest) = some ((), text.length) := by
  obtain ⟨parameters, hparameters, rfl⟩ := h
  rw [List.all_eq_true] at hparameters
  have hm : ¬ isParameter 'm' = true := by decide
  have htake : (parameters ++ 'm' :: rest).takeWhile isParameter = parameters := by
    rw [List.takeWhile_append_of_pos hparameters, List.takeWhile_cons_of_neg hm, List.append_nil]
  have hdrop : (parameters ++ 'm' :: rest).dropWhile isParameter = 'm' :: rest := by
    rw [List.dropWhile_append_of_pos hparameters, List.dropWhile_cons_of_neg hm]
  simp [colorCode?, htake, hdrop]

lemma understands_colorCode? : Understands colorCode? fun _ => () := by
  constructor
  · intro c hc text
    cases text with
    | nil => rfl
    | cons second rest => rw [colorCode?, if_neg fun h => hc h.1]
  · intro style rest
    exact colorCode?_append (isColorCode_code style) rest

/-! ## What readers find -/

section

variable {σ : Type} {code? : List Char → Option (σ × Nat)} {set : Style → σ}

lemma decodeFrom_covered (hand : σ) (covered : Nat) (text : List Char) :
    decodeFrom code? hand covered text = decodeFrom code? hand 0 (text.drop covered) := by
  induction text generalizing covered with
  | nil => rw [List.drop_nil]; rfl
  | cons c text ih =>
    cases covered with
    | zero => rfl
    | succ covered => exact ih covered

/-- A code that `code?` finds changes what is in hand. -/
lemma decodeFrom_code {text rest : List Char} {next : σ} (hne : text ≠ [])
    (h : code? (text ++ rest) = some (next, text.length)) (hand : σ) :
    decodeFrom code? hand 0 (text ++ rest) = decodeFrom code? next 0 rest := by
  cases text with
  | nil => exact absurd rfl hne
  | cons c text =>
    rw [List.cons_append] at h ⊢
    rw [decodeFrom]
    simp only [h]
    rw [decodeFrom_covered, List.length_cons, Nat.add_sub_cancel, List.drop_left]

/-- Characters that start no code are emitted by `decodeFrom` with what is in hand. -/
lemma Understands.decodeFrom_text (h : Understands code? set) {text : List Char}
    (htext : escape ∉ text) (hand : σ) (rest : List Char) :
    decodeFrom code? hand 0 (text ++ rest)
      = (text.map (·, hand) ++ (decodeFrom code? hand 0 rest).1,
          (decodeFrom code? hand 0 rest).2) := by
  induction text with
  | nil => rfl
  | cons c text ih =>
    rw [List.mem_cons, not_or] at htext
    rw [List.cons_append, decodeFrom]
    simp only [h.eq_none (Ne.symm htext.1), ih htext.2]
    rfl

lemma toList_code_ne_nil (style : Style) : (code style).toList ≠ [] := by
  obtain ⟨parameters, -, hcode⟩ := isColorCode_code style
  rw [hcode]
  exact List.cons_ne_nil _ _

/-- A span is emitted by `decodeFrom` in its style, and the plain one is in hand after it. -/
lemma Understands.decodeFrom_span (h : Understands code? set) {s : Span}
    (htext : escape ∉ s.text.toList) (rest : List Char) :
    decodeFrom code? (set .plain) 0 ((span s).toList ++ rest)
      = (s.text.toList.map (·, set s.style) ++ (decodeFrom code? (set .plain) 0 rest).1,
          (decodeFrom code? (set .plain) 0 rest).2) := by
  by_cases hplain : s.style = .plain
  · -- plain text has no code around it, and its style is in hand already
    have hspan : span s = s.text := by rw [span, hplain, opening?]
    rw [hspan, hplain]
    exact h.decodeFrom_text htext _ rest
  · have hspan : (span s).toList ++ rest
        = (code s.style).toList ++ (s.text.toList ++ ((code .plain).toList ++ rest)) := by
      -- every other style has an opening of its own, and the reset is the code of plain text
      unfold span code
      cases hstyle : s.style with
      | plain => exact absurd hstyle hplain
      | hit | directory | accent | error => simp [opening?]
    rw [hspan, decodeFrom_code (toList_code_ne_nil _) (h.eq_some _ _),
      h.decodeFrom_text htext, decodeFrom_code (toList_code_ne_nil _) (h.eq_some _ _)]

/-- A line is emitted span by span, and the plain style is in hand after it. -/
lemma Understands.decodeFrom_line (h : Understands code? set) {l : Line}
    (htext : ∀ s ∈ l.spans, escape ∉ s.text.toList) (rest : List Char) :
    decodeFrom code? (set .plain) 0 ((line true l).toList ++ rest)
      = ((l.spans.flatMap fun s => s.text.toList.map (·, set s.style))
            ++ (decodeFrom code? (set .plain) 0 rest).1,
          (decodeFrom code? (set .plain) 0 rest).2) := by
  obtain ⟨spans⟩ := l
  induction spans with
  | nil => simp [line]
  | cons s spans ih =>
    obtain ⟨hs, hspans⟩ := List.forall_mem_cons.1 htext
    have hline : (line true ⟨s :: spans⟩).toList ++ rest
        = (span s).toList ++ ((line true ⟨spans⟩).toList ++ rest) := by
      simp [line]
    rw [hline, h.decodeFrom_span hs, ih hspans, List.flatMap_cons, List.append_assoc]

end

/-! ## Lines and prompts -/

lemma decode_line {l : Line} (h : ∀ s ∈ l.spans, escape ∉ s.text.toList) :
    decode (line true l) = (l.spans.flatMap fun s => s.text.toList.map (·, s.style), .plain) := by
  have hline := understands_styleCode?.decodeFrom_line h []
  rw [List.append_nil] at hline
  rw [decode]
  exact hline.trans (by simp [decodeFrom])

lemma toList_text (l : Line) : l.text.toList = l.spans.flatMap fun s => s.text.toList := by
  rw [Line.text, String.toList_join, List.flatMap_map]

lemma map_fst_emitted {σ : Type} (hand : σ) (text : List Char) :
    (text.map (·, hand)).map Prod.fst = text := by
  rw [List.map_map]
  exact List.map_id text

lemma dropCodes_text_append {text : String} (h : escape ∉ text.toList) (rest : String) :
    dropCodes (text ++ rest) = text ++ dropCodes rest := by
  apply String.toList_inj.1
  rw [dropCodes, String.toList_append, understands_colorCode?.decodeFrom_text h, List.map_append,
    map_fst_emitted]
  simp [dropCodes]

/-- A colour code in front is dropped by `dropCodes`. -/
lemma dropCodes_code_append {text : String} (h : IsColorCode text.toList) (rest : String) :
    dropCodes (text ++ rest) = dropCodes rest := by
  have hne : text.toList ≠ [] := by
    obtain ⟨parameters, -, htext⟩ := h
    rw [htext]
    exact List.cons_ne_nil _ _
  rw [dropCodes, String.toList_append,
    decodeFrom_code hne (colorCode?_append h rest.toList), dropCodes]

/-- A line without colours is one with colours from which `dropCodes` has dropped them. -/
lemma dropCodes_line {l : Line} (h : ∀ s ∈ l.spans, escape ∉ s.text.toList) :
    dropCodes (line true l) = line false l := by
  have hline := understands_colorCode?.decodeFrom_line h []
  rw [List.append_nil] at hline
  apply String.toList_inj.1
  rw [dropCodes, hline, List.map_append, List.map_flatMap]
  simp only [map_fst_emitted]
  simp [decodeFrom, line, toList_text]

lemma dropCodes_prompt {p : Prompt} (huser : escape ∉ p.user.toList)
    (hhost : escape ∉ p.host.toList) (hpath : escape ∉ p.path.toList) : dropCodes (prompt true p) = prompt false p := by
  have hcolor : IsColorCode "\x1b[1;36m".toList := ⟨['1', ';', '3', '6'], by decide, by decide⟩
  have hcolor' : IsColorCode "\x1b[32m".toList := ⟨['3', '2'], by decide, by decide⟩
  have hreset : IsColorCode reset.toList := isColorCode_code .plain
  have hsplit : ":\x1b[32m" = ":" ++ "\x1b[32m" := by decide
  have hend : dropCodes "$ " = "$ " := by decide +kernel
  rw [prompt, if_pos rfl, prompt, if_neg (by simp), Prompt.text, hsplit]
  simp only [String.append_assoc]
  rw [dropCodes_code_append hcolor, dropCodes_text_append huser, dropCodes_text_append (by decide),
    dropCodes_text_append hhost, dropCodes_code_append hreset, dropCodes_text_append (by decide),
    dropCodes_code_append hcolor', dropCodes_text_append hpath, dropCodes_code_append hreset, hend]
  rfl

/-- **Colours can be read back.** In a line with colours, none of whose characters starts a code,
a reader finds the characters of the spans in order, each in the style of its span, and has the
plain style in hand at the end. So a line, and likewise a prompt, from which the codes are dropped
is what a console without colours is sent. -/
theorem colors_read_back :
    (∀ l : Line, (∀ s ∈ l.spans, escape ∉ s.text.toList) →
      decode (line true l)
          = (l.spans.flatMap fun s => s.text.toList.map fun c => (c, s.style), .plain) ∧
        (decode (line true l)).1.map Prod.fst = (line false l).toList ∧
        dropCodes (line true l) = line false l ∧ line false l = l.text) ∧
    ∀ p : Prompt, escape ∉ p.user.toList → escape ∉ p.host.toList → escape ∉ p.path.toList →
      dropCodes (prompt true p) = prompt false p := by
  refine ⟨fun l h => ?_, fun p huser hhost hpath => dropCodes_prompt huser hhost hpath⟩
  have hplain : line false l = l.text := if_neg (by simp)
  refine ⟨decode_line h, ?_, dropCodes_line h, hplain⟩
  rw [decode_line h, hplain, toList_text, List.map_flatMap]
  simp only [map_fst_emitted]

/-- Spans and a prompt with the ends of codes in their texts. -/
theorem colors_read_back_lookalikes :
    let l : Line := ⟨[⟨"[", .plain⟩, ⟨"0m", .hit⟩, ⟨"", .accent⟩, ⟨"m", .error⟩, ⟨"1", .plain⟩]⟩
    let p : Prompt := { user := "[0m", host := "h", path := "~/32m" }
    (∀ s ∈ l.spans, escape ∉ s.text.toList) ∧
      decode (line true l)
        = ([('[', .plain), ('0', .hit), ('m', .hit), ('m', .error), ('1', .plain)], .plain) ∧
      dropCodes (line true l) = "[0mm1" ∧
      escape ∉ p.user.toList ∧ escape ∉ p.host.toList ∧ escape ∉ p.path.toList ∧
      dropCodes (prompt true p) = "[0m@h:~/32m$ " := by
  intro l p
  obtain ⟨hline, hprompt⟩ := colors_read_back
  have hspans : ∀ s ∈ l.spans, escape ∉ s.text.toList := by decide
  obtain ⟨hdecode, -, hdrop, -⟩ := hline l hspans
  have huser : escape ∉ p.user.toList := by decide
  have hhost : escape ∉ p.host.toList := by decide
  have hpath : escape ∉ p.path.toList := by decide
  exact ⟨hspans, hdecode.trans (by decide), hdrop.trans (by decide), huser, hhost, hpath,
    (hprompt p huser hhost hpath).trans (by decide)⟩

end MiniShell.Render
