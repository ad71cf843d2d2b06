import Mathlib.Data.List.DropRight
import MiniShell.Proofs.Text.Pieces

/-!
# Words and the blanks around them

Blanks keep words apart and do nothing else: neither those around a line nor how many there are
between two words can be told from its words. Trimming takes off just the blanks around a line, so
it keeps the words, and leaves nothing of a line exactly if the line has none.

* `words_append_of_blank`, `words_blank_append`, `words_trim`: the words of a line with blanks
  around it;
* `trim_append_of_blank`, `trim_blank_append`: such a line trimmed;
* `words_eq_nil_iff`, `trim_eq_empty_iff`: lines of blanks;
* `words_intercalate_words`: the words with one space between them.
-/

namespace MiniShell.Text

/-- Is the text made of characters that are `isBlank`? -/
def IsBlank (text : String) : Prop :=
  ∀ c ∈ text.toList, isBlank c = true

instance (text : String) : Decidable (IsBlank text) :=
  List.decidableBAll _ text.toList

variable {text before after word : String} {c : Char} {cs : List Char}

lemma words_ofList_cons_of_blank (hc : isBlank c = true) :
    words (String.ofList (c :: cs)) = words (String.ofList cs) := by
  rw [words, words, String.toList_ofList, String.toList_ofList,
    List.splitOnP_cons_eq_if_modifyHead, if_pos hc, List.filter_cons_of_neg (by simp)]

/-- A text that starts with a character that is not `isBlank` has a word. -/
lemma words_ofList_cons_ne_nil (hc : isBlank c = false) :
    words (String.ofList (c :: cs)) ≠ [] := by
  obtain ⟨run, runs, hcut⟩ := List.exists_cons_of_ne_nil (List.splitOnP_ne_nil isBlank cs)
  rw [words, String.toList_ofList, List.splitOnP_cons_eq_if_modifyHead, if_neg (by simp [hc]), hcut,
    List.modifyHead_cons, List.filter_cons_of_pos (by simp), List.map_cons]
  exact List.cons_ne_nil _ _

lemma words_blank_append (h : IsBlank before) (text : String) :
    words (before ++ text) = words text := by
  have hlist : ∀ blanks : List Char, (∀ c ∈ blanks, isBlank c = true) →
      words (String.ofList (blanks ++ text.toList)) = words text := by
    intro blanks hblanks
    induction blanks with
    | nil => rw [List.nil_append, String.ofList_toList]
    | cons c blanks ih =>
      obtain ⟨hc, hrest⟩ := List.forall_mem_cons.1 hblanks
      rw [List.cons_append, words_ofList_cons_of_blank hc, ih hrest]
  rw [← hlist before.toList h, ← String.toList_append, String.ofList_toList]

/-- A text has no `words` if it is made of blanks, and only then. -/
theorem words_eq_nil_iff : words text = [] ↔ IsBlank text := by
  constructor
  · intro hnil
    rw [← String.ofList_toList (s := text)] at hnil
    unfold IsBlank
    -- by induction on the characters, as the first one that is not blank begins a word
    generalize text.toList = cs at hnil ⊢
    induction cs with
    | nil => simp
    | cons c cs ih =>
      cases hc : isBlank c with
      | false => exact absurd hnil (words_ofList_cons_ne_nil hc)
      | true =>
        rw [words_ofList_cons_of_blank hc] at hnil
        exact List.forall_mem_cons.2 ⟨hc, ih hnil⟩
  · intro hblank
    rw [← String.append_empty (s := text), words_blank_append hblank]
    rfl

lemma words_append_of_blank (h : IsBlank after) (text : String) :
    words (text ++ after) = words text := by
  unfold IsBlank at h
  cases hafter : after.toList with
  | nil => rw [String.toList_eq_nil_iff.1 hafter, String.append_empty]
  | cons c rest =>
    rw [hafter] at h
    obtain ⟨hc, hrest⟩ := List.forall_mem_cons.1 h
    -- the first blank ends the last word, and the others make none
    have hnone : words (String.ofList rest) = [] := by
      rw [words_eq_nil_iff, IsBlank, String.toList_ofList]
      exact hrest
    rw [words, String.toList_ofList] at hnone
    rw [words, String.toList_append, hafter, List.splitOnP_append_cons _ _ hc, List.filter_append,
      List.map_append, hnone, List.append_nil, words]

/-! ## Trimming -/

lemma toList_trim (text : String) :
    (trim text).toList = (text.toList.dropWhile isBlank).rdropWhile isBlank := by
  rw [trim, String.toList_ofList, List.rdropWhile]

/-- A text is what `trim` leaves of it, with blanks around. -/
lemma exists_eq_append_trim (text : String) :
    ∃ before after, IsBlank before ∧ IsBlank after ∧ text = before ++ trim text ++ after := by
  refine ⟨String.ofList (text.toList.takeWhile isBlank),
    String.ofList ((text.toList.dropWhile isBlank).rtakeWhile isBlank), ?_, ?_, ?_⟩
  · intro c hc
    rw [String.toList_ofList] at hc
    exact List.mem_takeWhile_imp hc
  · intro c hc
    rw [String.toList_ofList] at hc
    exact List.mem_rtakeWhile_imp hc
  · apply String.toList_inj.1
    rw [String.toList_append, String.toList_append, String.toList_ofList, String.toList_ofList,
      toList_trim, List.append_assoc, List.rdropWhile_append_rtakeWhile,
      List.takeWhile_append_dropWhile]

/-- What `trim` takes off is no part of the `words`. -/
theorem words_trim (text : String) : words (trim text) = words text := by
  obtain ⟨before, after, hbefore, hafter, htext⟩ := exists_eq_append_trim text
  calc words (trim text)
      = words (before ++ trim text) := (words_blank_append hbefore _).symm
    _ = words (before ++ trim text ++ after) := (words_append_of_blank hafter _).symm
    _ = words text := by rw [← htext]

/-- Nothing is left of a text by `trim` if it `IsBlank`, and only then. -/
theorem trim_eq_empty_iff : trim text = "" ↔ IsBlank text := by
  constructor
  · intro hempty
    rw [← words_eq_nil_iff, ← words_trim, hempty]
    rfl
  · intro hblank
    apply String.toList_inj.1
    rw [toList_trim, List.dropWhile_eq_nil_iff.2 hblank]
    rfl

lemma trim_blank_append (h : IsBlank before) (text : String) :
    trim (before ++ text) = trim text := by
  apply String.toList_inj.1
  rw [toList_trim, toList_trim, String.toList_append, List.dropWhile_append_of_pos h]

lemma trim_append_of_blank (h : IsBlank after) (text : String) :
    trim (text ++ after) = trim text := by
  have hafter : ∀ cs : List Char,
      (cs ++ after.toList).rdropWhile isBlank = cs.rdropWhile isBlank := by
    intro cs
    have hreverse : ∀ c ∈ after.toList.reverse, isBlank c = true := fun c hc =>
      h c (List.mem_reverse.1 hc)
    rw [List.rdropWhile, List.reverse_append, List.dropWhile_append_of_pos hreverse,
      List.rdropWhile]
  apply String.toList_inj.1
  rw [toList_trim, toList_trim, String.toList_append, List.dropWhile_append]
  split
  case isTrue hnone =>
    rw [List.isEmpty_iff.1 hnone, List.dropWhile_eq_nil_iff.2 h]
  case isFalse => exact hafter _

/-! ## Words put together -/

lemma no_blank_of_mem_words (h : word ∈ words text) : ∀ c ∈ word.toList, isBlank c = false := by
  obtain ⟨run, hrun, rfl⟩ := List.mem_map.1 h
  rw [String.toList_ofList]
  exact forall_of_mem_splitOnP (List.mem_filter.1 hrun).1

/-- Words with one space between them are the `words` of what they make up. -/
lemma words_intercalate {ws : List String}
    (h : ∀ word ∈ ws, word ≠ "" ∧ ∀ c ∈ word.toList, isBlank c = false) :
    words (" ".intercalate ws) = ws := by
  induction ws with
  | nil => rfl
  | cons word rest ih =>
    obtain ⟨⟨hne, hblank⟩, hrest⟩ := List.forall_mem_cons.1 h
    cases rest with
    | nil => rw [String.intercalate_singleton, words_of_no_blank hne hblank]
    | cons next rest =>
      rw [String.intercalate_cons_cons, words_append_blank, words_of_no_blank hne hblank, ih hrest,
        List.singleton_append]

/-- The words of a line with one space between them are again its words. -/
theorem words_intercalate_words (text : String) :
    words (" ".intercalate (words text)) = words text :=
  words_intercalate fun _ hword => ⟨ne_empty_of_mem_words hword, no_blank_of_mem_words hword⟩

end MiniShell.Text
