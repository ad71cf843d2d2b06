import Mathlib.Tactic.Lemma
import MiniShell.Text.Bytes

/-!
# Texts and their encodings

Reading bytes gives the text that they encode, if there is one, and a text at the start or the end
of the bytes is one at the start or the end of what they encode.

* `ofBytes?_eq_some_iff`: reading undoes encoding;
* `ofBytes?_append_toBytes`, `ofBytes?_toBytes_append`: reading bytes with a text around them.
-/

namespace MiniShell.Text

variable {bytes : List UInt8} {text other : String}

/-- The UTF-8 encoding of a text. -/
def toBytes (text : String) : List UInt8 :=
  text.toUTF8.data.toList

/-- Bytes are read by `ofBytes?` as the text that they encode. -/
theorem ofBytes?_eq_some_iff : ofBytes? bytes = some text ↔ toBytes text = bytes := by
  unfold ofBytes? toBytes String.fromUTF8?
  constructor
  · intro h
    split at h
    · cases h
      rfl
    · nomatch h
  · rintro rfl
    have hvalid : ByteArray.IsValidUTF8 ⟨text.toUTF8.data.toList.toArray⟩ := text.isValidUTF8
    rw [dif_pos hvalid]
    rfl

lemma ofBytes?_eq_none_iff : ofBytes? bytes = none ↔ ∀ text, toBytes text ≠ bytes := by
  simp only [Option.eq_none_iff_forall_not_mem, Option.mem_def, ofBytes?_eq_some_iff, ne_eq]

lemma toBytes_injective (h : toBytes text = toBytes other) : text = other := by
  have hsome := ofBytes?_eq_some_iff.2 h
  rw [ofBytes?_eq_some_iff.2 rfl, Option.some.injEq] at hsome
  exact hsome.symm

lemma length_toBytes (text : String) : (toBytes text).length = text.utf8ByteSize := rfl

lemma toBytes_append (text other : String) :
    toBytes (text ++ other) = toBytes text ++ toBytes other := by
  simp [toBytes]

lemma toBytes_newline : toBytes "\n" = [10] := by decide

/-- A text for which `toBytes` ends in the encoding of another text ends in the other text. -/
lemma exists_of_toBytes_eq_append (h : toBytes text = bytes ++ toBytes other) :
    ∃ before, text = before ++ other ∧ toBytes before = bytes := by
  have hlength : text.utf8ByteSize = bytes.length + (toBytes other).length := by
    rw [← length_toBytes, h, List.length_append]
  have hle : (⟨bytes.length⟩ : String.Pos.Raw) ≤ text.rawEndPos := by
    rw [String.Pos.Raw.le_iff, String.byteIdx_rawEndPos, hlength]
    exact Nat.le_add_right _ _
  -- the other text starts with no continuation byte, so a character starts there
  have hvalid : String.Pos.Raw.IsValid text ⟨bytes.length⟩ := by
    rcases Nat.eq_zero_or_pos (toBytes other).length with hempty | hpos
    · refine String.Pos.Raw.isValid_iff_isUTF8FirstByte.2 (Or.inl ?_)
      rw [hempty] at hlength
      exact String.Pos.Raw.ext hlength.symm
    · have hlt : (⟨bytes.length⟩ : String.Pos.Raw) < text.rawEndPos := by
        rw [String.Pos.Raw.lt_iff, String.byteIdx_rawEndPos, hlength]
        exact Nat.lt_add_of_pos_right hpos
      refine String.Pos.Raw.isValid_iff_isUTF8FirstByte.2 (Or.inr ⟨hlt, ?_⟩)
      have hfirst := other.isValidUTF8.isUTF8FirstByte_getElem_zero hpos
      have hget : (toBytes text)[bytes.length]? = some ((toBytes other)[0]) := by
        rw [h, List.getElem?_append_right (Nat.le_refl _), Nat.sub_self,
          List.getElem?_eq_getElem hpos]
      have hbyte : text.getUTF8Byte ⟨bytes.length⟩ hlt = (toBytes other)[0] :=
        (List.getElem?_eq_some_iff.1 hget).2
      rw [hbyte]
      exact hfirst
  obtain ⟨before, last, rfl, hpos⟩ := String.Pos.Raw.isValid_iff_exists_append.1 hvalid
  have hsize : (toBytes before).length = bytes.length :=
    (congrArg String.Pos.Raw.byteIdx hpos).symm
  rw [toBytes_append] at h
  obtain ⟨hbefore, hlast⟩ := List.append_inj h hsize
  exact ⟨before, by rw [toBytes_injective hlast], hbefore⟩

/-- A text for which `toBytes` starts with the encoding of another text starts with the other text.
-/
lemma exists_of_toBytes_eq_toBytes_append (h : toBytes text = toBytes other ++ bytes) :
    ∃ after, text = other ++ after ∧ toBytes after = bytes := by
  have hencoded : other.toList.utf8Encode ++ ⟨bytes.toArray⟩ = text.toList.utf8Encode := by
    rw [String.utf8Encode_toList, String.utf8Encode_toList]
    apply ByteArray.ext
    apply Array.toList_inj.1
    rw [ByteArray.data_append, Array.toList_append]
    exact h.symm
  obtain ⟨rest, hrest⟩ := List.isPrefix_of_utf8Encode_append_eq_utf8Encode _ hencoded
  have htext : text = other ++ String.ofList rest := by
    apply String.toList_inj.1
    rw [String.toList_append, String.toList_ofList, hrest]
  refine ⟨String.ofList rest, htext, ?_⟩
  rw [htext, toBytes_append] at h
  exact List.append_cancel_left h

/-- A text behind some bytes is read by `ofBytes?` as it is, and is in the way of nothing. -/
theorem ofBytes?_append_toBytes (bytes : List UInt8) (text : String) :
    ofBytes? (bytes ++ toBytes text) = (ofBytes? bytes).map (· ++ text) := by
  cases hread : ofBytes? bytes with
  | some before =>
    rw [Option.map_some, ofBytes?_eq_some_iff, toBytes_append, ofBytes?_eq_some_iff.1 hread]
  | none =>
    -- a whole that can be read would have a front that can be read
    rw [Option.map_none, ofBytes?_eq_none_iff]
    intro whole hwhole
    obtain ⟨before, -, hbefore⟩ := exists_of_toBytes_eq_append hwhole
    exact ofBytes?_eq_none_iff.1 hread before hbefore

theorem ofBytes?_toBytes_append (bytes : List UInt8) (text : String) :
    ofBytes? (toBytes text ++ bytes) = (ofBytes? bytes).map (text ++ ·) := by
  cases hread : ofBytes? bytes with
  | some after =>
    rw [Option.map_some, ofBytes?_eq_some_iff, toBytes_append, ofBytes?_eq_some_iff.1 hread]
  | none =>
    rw [Option.map_none, ofBytes?_eq_none_iff]
    intro whole hwhole
    obtain ⟨after, -, hafter⟩ := exists_of_toBytes_eq_toBytes_append hwhole
    exact ofBytes?_eq_none_iff.1 hread after hafter

end MiniShell.Text
