import Mathlib.Tactic.Common

/-!
# Parts of a text by byte positions

A text can be cut at byte positions only where one character ends and the next one starts. The
positions at which characters start are such, and cutting at them gives the characters between.

* `slice?`: the part between two positions;
* `charIndices`: the characters and where they start;
* `slice?_bytesBefore`: cutting where characters start.
-/

namespace MiniShell.Text

/-- The part of a text between two byte positions. Fails unless they are in order and each of them
is a border of characters. -/
def slice? (text : String) (first last : Nat) : Option String :=
  if h : first ≤ last ∧ String.Pos.Raw.IsValid text ⟨first⟩
      ∧ String.Pos.Raw.IsValid text ⟨last⟩ then
    some (String.extract (text.pos ⟨first⟩ h.2.1) (text.pos ⟨last⟩ h.2.2))
  else none

/-- The characters of a text and the byte positions at which they start, the first one at
`position`. -/
def charIndices (position : Nat) : List Char → List (Nat × Char)
  | [] => []
  | c :: text => (position, c) :: charIndices (position + c.utf8Size) text

/-- The bytes before a character, given by its place among the characters. -/
def bytesBefore (text : String) (j : Nat) : Nat :=
  (String.ofList (text.toList.take j)).utf8ByteSize

/-- A text cut by `slice?` around a part of it. -/
lemma slice?_append (before part after : String) :
    slice? (before ++ part ++ after) before.utf8ByteSize (before ++ part).utf8ByteSize
      = some part := by
  have hle : before.utf8ByteSize ≤ (before ++ part).utf8ByteSize := by
    rw [String.utf8ByteSize_append]
    omega
  have hfirst : String.Pos.Raw.IsValid (before ++ part ++ after) ⟨before.utf8ByteSize⟩ :=
    String.Pos.Raw.isValid_iff_exists_append.2
      ⟨before, part ++ after, String.append_assoc, rfl⟩
  have hlast : String.Pos.Raw.IsValid (before ++ part ++ after) ⟨(before ++ part).utf8ByteSize⟩ :=
    String.Pos.Raw.isValid_iff_exists_append.2 ⟨before ++ part, after, rfl, rfl⟩
  rw [slice?, dif_pos ⟨hle, hfirst, hlast⟩]
  apply congrArg some
  -- texts are equal if their bytes are, and those are cut like any array
  apply String.toByteArray_inj.1
  have hbytes : ((before.toByteArray ++ part.toByteArray) ++ after.toByteArray).extract
      (before.utf8ByteSize + 0) (before.utf8ByteSize + part.utf8ByteSize) = part.toByteArray := by
    rw [ByteArray.append_assoc, ByteArray.extract_append_size_add' String.size_toByteArray.symm]
    exact ByteArray.extract_append_eq_left String.size_toByteArray.symm
  simpa using hbytes

-- `é` takes two bytes, and nothing can be cut within it
example : slice? "aéb" 1 3 = some "é" ∧ slice? "aéb" 1 2 = none := by decide

lemma slice?_bytesBefore (text : String) {i j : Nat} (h : i ≤ j) :
    slice? text (bytesBefore text i) (bytesBefore text j)
      = some (String.ofList ((text.toList.drop i).take (j - i))) := by
  have hupto : text.toList.take j = text.toList.take i ++ (text.toList.drop i).take (j - i) := by
    rw [← List.take_add, Nat.add_sub_cancel' h]
  have htext : text = String.ofList (text.toList.take i)
      ++ String.ofList ((text.toList.drop i).take (j - i))
      ++ String.ofList (text.toList.drop j) := by
    rw [← String.ofList_append, ← hupto, ← String.ofList_append, List.take_append_drop,
      String.ofList_toList]
  have hslice := slice?_append (String.ofList (text.toList.take i))
    (String.ofList ((text.toList.drop i).take (j - i))) (String.ofList (text.toList.drop j))
  rw [← htext, ← String.ofList_append, ← hupto] at hslice
  exact hslice

lemma bytesBefore_of_length_le {text : String} {j : Nat} (h : text.length ≤ j) :
    bytesBefore text j = text.utf8ByteSize := by
  rw [bytesBefore, List.take_of_length_le (by rwa [String.length_toList]), String.ofList_toList]

lemma utf8ByteSize_ofList_cons (c : Char) (text : List Char) :
    (String.ofList (c :: text)).utf8ByteSize
      = c.utf8Size + (String.ofList text).utf8ByteSize := by
  rw [String.ofList_cons, String.utf8ByteSize_append, String.utf8ByteSize_singleton]

/-- Each character is listed by `charIndices` with where it starts. -/
lemma getElem?_charIndices (text : List Char) (position j : Nat) :
    (charIndices position text)[j]?
      = text[j]?.map fun c => (position + (String.ofList (text.take j)).utf8ByteSize, c) := by
  induction text generalizing position j with
  | nil => simp [charIndices]
  | cons c text ih =>
    cases j with
    | zero => simp [charIndices]
    | succ j =>
      rw [charIndices, List.getElem?_cons_succ, List.getElem?_cons_succ, ih, List.take_succ_cons,
        utf8ByteSize_ofList_cons, Nat.add_assoc]

lemma charIndices_append (position : Nat) (first rest : List Char) :
    charIndices position (first ++ rest)
      = charIndices position first
        ++ charIndices (position + (String.ofList first).utf8ByteSize) rest := by
  induction first generalizing position with
  | nil => simp [charIndices]
  | cons c first ih =>
    rw [List.cons_append, charIndices, charIndices, ih, utf8ByteSize_ofList_cons, Nat.add_assoc,
      List.cons_append]

lemma map_charIndices (text : List Char) (position : Nat) :
    (charIndices position text).map Prod.snd = text := by
  induction text generalizing position with
  | nil => rfl
  | cons c text ih => rw [charIndices, List.map_cons, ih]

end MiniShell.Text
