import Mathlib.Data.List.Basic
import MiniShell.Prompt
import MiniShell.Proofs.Path.Resolve

/-!
# Abbreviated paths

A prompt shortens the working directory by the home. What it shows can be typed: it resolves to the
working directory from anywhere, so different directories are never shown alike.

* `eq_append_slash_iff_isAbove`: what lies below a directory as text lies below it as a path;
* `abbreviate_cases`: the three ways to show a directory;
* `resolve_abbreviate`: what is shown resolves to the directory, and when it starts with a tilde.
-/

namespace MiniShell.Path

variable {cwd home : String}

/-! ## Texts that continue a path -/

lemma components_injective : Function.Injective components :=
  Function.LeftInverse.injective intercalate_components

/-- Paths that are `isNormal` with the same segments are the same. -/
lemma eq_of_segments_eq {path other : String} (h : isNormal path = true)
    (hother : isNormal other = true) (hsame : segments path = segments other) : path = other := by
  rw [← ofSegments_segments h, hsame, ofSegments_segments hother]

lemma append_slash_ne (path rest : String) : path ++ "/" ++ rest ≠ path := by
  intro heq
  have hlength := congrArg (fun text => text.toList.length) heq
  simp at hlength

/-- The text of a path continues that of a directory other than the root, with a slash between them,
if the directory `IsAbove` the path, and only then. -/
lemma eq_append_slash_iff_isAbove (hcwd : isNormal cwd = true) (hhome : isNormal home = true)
    (hroot : home ≠ "/") :
    (∃ rest, cwd = home ++ "/" ++ rest) ↔ IsAbove (segments home) (segments cwd) := by
  constructor
  · rintro ⟨rest, rfl⟩
    refine ⟨⟨segments rest, (segments_append_slash home rest).symm⟩, fun heq => ?_⟩
    exact append_slash_ne home rest (eq_of_segments_eq hcwd hhome heq.symm)
  · rintro ⟨⟨more, hmore⟩, hne⟩
    have hmore_ne : more ≠ [] := by
      rintro rfl
      exact hne (by rw [← hmore, List.append_nil])
    have hcwd_ne : cwd ≠ "/" := by
      rintro rfl
      rw [segments_root, List.append_eq_nil_iff] at hmore
      exact hmore_ne hmore.2
    have hslash : ∀ name ∈ more, '/' ∉ name.toList := by
      intro name hname
      have hmem : name ∈ segments cwd := by
        rw [← hmore]
        exact List.mem_append_right _ hname
      exact (of_mem_segments hmem).2
    -- both texts have the same components
    refine ⟨"/".intercalate more, components_injective ?_⟩
    rw [components_append_slash, components_intercalate hmore_ne hslash,
      components_of_isNormal hcwd hcwd_ne, components_of_isNormal hhome hroot, ← hmore,
      List.cons_append]

/-! ## Ways to show a directory -/

/-- The home is shown by `abbreviate` as a tilde, and what continues it as a tilde and the rest,
unless the home is the root; all else is shown as it is. -/
lemma abbreviate_cases (cwd home : String) :
    (cwd = home ∧ abbreviate cwd home = "~") ∨
    (home ≠ "/" ∧ ∃ rest, cwd = home ++ "/" ++ rest ∧ abbreviate cwd home = "~/" ++ rest) ∨
    cwd ≠ home ∧ (home ≠ "/" → ∀ rest, cwd ≠ home ++ "/" ++ rest) ∧
      abbreviate cwd home = cwd := by
  unfold abbreviate
  split
  case isTrue hsame => exact Or.inl ⟨hsame, rfl⟩
  case isFalse hne =>
    right
    split
    case isTrue hroot => exact Or.inr ⟨hne, fun hnot => absurd hroot hnot, rfl⟩
    case isFalse hroot =>
      split
      case h_1 rest hcut =>
        rw [List.isPrefixOf?_eq_some_iff_append_eq] at hcut
        refine Or.inl ⟨hroot, String.ofList rest, ?_, rfl⟩
        apply String.toList_inj.1
        simp [← hcut]
      case h_2 hcut =>
        refine Or.inr ⟨hne, fun _ rest hrest => ?_, rfl⟩
        apply hcut rest.toList
        rw [List.isPrefixOf?_eq_some_iff_append_eq, hrest]
        simp

/-- What `abbreviate` shows resolves to the directory. -/
lemma resolve_abbreviate_eq (hcwd : isNormal cwd = true) (hhome : isNormal home = true)
    (elsewhere : String) : resolve elsewhere home (abbreviate cwd home) = cwd := by
  rcases abbreviate_cases cwd home with ⟨rfl, htilde⟩ | ⟨-, rest, rfl, hbelow⟩ | ⟨-, -, hplain⟩
  · rw [htilde, resolve_tilde hhome]
  · have hresolve : resolve elsewhere home ("~/" ++ rest) = normalize (home ++ "/" ++ rest) := by
      simp [resolve]
    rw [hbelow, hresolve, normalize_of_isNormal hcwd]
  · rw [hplain, resolve_of_isNormal hcwd]

/-- **What a prompt shows can be typed.** A directory as a prompt shows it resolves to the directory
from anywhere, so no two directories are shown alike. It starts with a tilde if the directory is the
home, or the home is not the root and on the way to it, and only then. -/
theorem resolve_abbreviate (hcwd : isNormal cwd = true) (hhome : isNormal home = true) :
    (∀ elsewhere, resolve elsewhere home (abbreviate cwd home) = cwd) ∧
    (∀ (config : Config) (other : String), config.home = home → isNormal other = true →
      (Prompt.make config other).path = (Prompt.make config cwd).path → other = cwd) ∧
    ((abbreviate cwd home).toList.head? = some '~'
      ↔ cwd = home ∨ home ≠ "/" ∧ segments home <+: segments cwd) := by
  refine ⟨resolve_abbreviate_eq hcwd hhome, ?_, ?_⟩
  · rintro config other rfl hother hshown
    rw [← resolve_abbreviate_eq hother hhome "/", ← resolve_abbreviate_eq hcwd hhome "/"]
    -- what is shown alike resolves alike, and each resolves to its directory
    exact congrArg (resolve "/" config.home) hshown
  · have hbelow := eq_append_slash_iff_isAbove hcwd hhome
    rcases abbreviate_cases cwd home with
      ⟨hsame, htilde⟩ | ⟨hroot, rest, hrest, hshown⟩ | ⟨hne, hnot, hshown⟩
    · exact iff_of_true (by simp [htilde]) (Or.inl hsame)
    · exact iff_of_true (by simp [hshown]) (Or.inr ⟨hroot, ((hbelow hroot).1 ⟨rest, hrest⟩).1⟩)
    · -- a directory that is shown as it is starts with a slash
      refine iff_of_false (by simp [hshown, head?_of_isNormal hcwd]) ?_
      rintro (hsame | ⟨hroot, hway⟩)
      · exact hne hsame
      · have hsegments : segments home ≠ segments cwd :=
          fun heq => hne (eq_of_segments_eq hcwd hhome heq.symm)
        obtain ⟨rest, hrest⟩ := (hbelow hroot).2 ⟨hway, hsegments⟩
        exact hnot hroot rest hrest

/-- A directory that is called like an abbreviation, below the home, and one whose name only starts
like that of the home. -/
theorem resolve_abbreviate_lookalikes :
    isNormal "/home/n/~" = true ∧ isNormal "/home/nx" = true ∧ isNormal "/home/n" = true ∧
      abbreviate "/home/n/~" "/home/n" = "~/~" ∧ resolve "/~" "/home/n" "~/~" = "/home/n/~" ∧
      (abbreviate "/home/nx" "/home/n").toList.head? ≠ some '~' := by
  have hbelow : isNormal "/home/n/~" = true := by decide +kernel
  have hbeside : isNormal "/home/nx" = true := by decide +kernel
  have hhome : isNormal "/home/n" = true := by decide +kernel
  have hshown : abbreviate "/home/n/~" "/home/n" = "~/~" := by decide +kernel
  have hresolved := (resolve_abbreviate hbelow hhome).1 "/~"
  rw [hshown] at hresolved
  have htilde := (resolve_abbreviate hbeside hhome).2.2
  exact ⟨hbelow, hbeside, hhome, hshown, hresolved, mt htilde.1 (by decide +kernel)⟩

end MiniShell.Path
