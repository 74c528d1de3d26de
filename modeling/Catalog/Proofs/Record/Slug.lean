import Catalog.Policy.Basic
import Catalog.Proofs.Number.Numeral
import Catalog.Record.Slug

/-!
# Slugs and the keys that they are written as

A slug has small letters and digits of ASCII and hyphens only (`isSlugPart_of_slugify`), so that
there is nothing in it to trim or to write in lower case. In the key of a setting a kind has low
lines for hyphens (`kindKey_of_slugify`). A key is its own key (`kindKey_kindKey`), and two slugs
with the same key are the same (`kindKey_injective`), since there are no low lines in slugs.
-/

namespace Catalog

open Text

/-- A character that slugs may have. -/
def isSlugPart (c : Char) : Bool := isSlugChar c || c == '-'

variable {s t : String} {c : Char} {cs : List Char}

/-! ## Characters -/

theorem mem_of_mem_trimWhile {p : Char → Bool} (h : c ∈ trimWhile p cs) : c ∈ cs := by
  rw [trimWhile, dropEndWhile, List.mem_reverse] at h
  exact (List.dropWhile_sublist p).subset
    (List.mem_reverse.1 ((List.dropWhile_sublist p).subset h))

theorem isSlugPart_of_mem_hyphenated {inRun : Bool} (h : c ∈ hyphenated inRun cs) :
    isSlugPart c = true := by
  induction cs generalizing inRun with
  | nil => exact absurd h List.not_mem_nil
  | cons d cs ih =>
    rw [hyphenated] at h
    split at h
    · next hd =>
      rcases List.mem_cons.1 h with rfl | h
      · rw [isSlugPart, hd, Bool.true_or]
      · exact ih h
    · split at h
      · exact ih h
      · rcases List.mem_cons.1 h with rfl | h
        · decide
        · exact ih h

/-- A slug is made of small letters, digits and hyphens. -/
theorem isSlugPart_of_slugify (h : slugify s = s) : ∀ c ∈ s.toList, isSlugPart c = true := by
  intro c hc
  rw [← h, slugify, String.toList_ofList] at hc
  exact isSlugPart_of_mem_hyphenated (mem_of_mem_trimWhile hc)

/-- A character of a slug, or a low line. -/
def isKeyPart (c : Char) : Bool := isSlugPart c || c == '_'

theorem isKeyPart_cases (h : isKeyPart c = true) :
    97 ≤ c.toNat ∧ c.toNat ≤ 122 ∨ 48 ≤ c.toNat ∧ c.toNat ≤ 57 ∨ c = '-' ∨ c = '_' := by
  unfold isKeyPart isSlugPart isSlugChar Char.isLower at h
  simpa [Char.isDigit, UInt32.le_iff_toNat_le, or_assoc] using h

theorem not_isBlank_of_isKeyPart (h : isKeyPart c = true) : isBlank c = false := by
  rcases isKeyPart_cases h with h | h | rfl | rfl
  · exact not_isBlank_of_visible (by omega)
  · exact not_isBlank_of_visible (by omega)
  · decide
  · decide

theorem toLower_of_isKeyPart (h : isKeyPart c = true) : c.toNat < 128 ∧ c.toLower = c := by
  have small (h : ¬(65 ≤ c.toNat ∧ c.toNat ≤ 90)) : c.toLower = c := by
    unfold Char.toLower
    refine dif_neg fun hupper => h ?_
    exact ⟨UInt32.le_iff_toNat_le.1 hupper.1, UInt32.le_iff_toNat_le.1 hupper.2⟩
  rcases isKeyPart_cases h with h | h | rfl | rfl
  · exact ⟨by omega, small (by omega)⟩
  · exact ⟨by omega, small (by omega)⟩
  · decide
  · decide

/-! ## Keys -/

theorem trim_of_isKeyPart (h : ∀ c ∈ s.toList, isKeyPart c = true) : trim s = s := by
  rw [trim, trimWhile_of_none fun c hc => not_isBlank_of_isKeyPart (h c hc), String.ofList_toList]

theorem lowerFrom_of_isKeyPart {cased : Bool} (h : ∀ c ∈ cs, isKeyPart c = true) :
    lowerFrom cased cs = cs := by
  induction cs generalizing cased with
  | nil => rfl
  | cons c cs ih =>
    rw [List.forall_mem_cons] at h
    obtain ⟨hascii, hlower⟩ := toLower_of_isKeyPart h.1
    rw [lowerFrom, if_pos hascii, hlower, ih h.2]
    rfl

theorem lower_of_isKeyPart (h : ∀ c ∈ s.toList, isKeyPart c = true) : lower s = s := by
  rw [lower, lowerFrom_of_isKeyPart h, String.ofList_toList]

/-- In a key there are low lines for hyphens. -/
def keyPart (c : Char) : Char := if c = '-' then '_' else c

theorem kindKey_of_isKeyPart (h : ∀ c ∈ s.toList, isKeyPart c = true) :
    kindKey s = String.ofList (s.toList.map keyPart) := by
  rw [kindKey, trim_of_isKeyPart h, lower_of_isKeyPart h]
  rfl

theorem isKeyPart_of_slugify (h : slugify s = s) : ∀ c ∈ s.toList, isKeyPart c = true := by
  intro c hc
  rw [isKeyPart, isSlugPart_of_slugify h c hc, Bool.true_or]

/-- The key of a slug is the slug with low lines for hyphens. -/
theorem kindKey_of_slugify (h : slugify s = s) :
    kindKey s = String.ofList (s.toList.map keyPart) :=
  kindKey_of_isKeyPart (isKeyPart_of_slugify h)

/-- The key of a slug is its own key. -/
theorem kindKey_kindKey (h : slugify s = s) : kindKey (kindKey s) = kindKey s := by
  have part {c : Char} (hc : isKeyPart c = true) :
      isKeyPart (keyPart c) = true ∧ keyPart (keyPart c) = keyPart c := by
    by_cases hyphen : c = '-'
    · subst hyphen
      decide
    · have kept : keyPart c = c := if_neg hyphen
      rw [kept, kept]
      exact ⟨hc, rfl⟩
  have written := kindKey_of_slugify h
  have parts : ∀ c ∈ (kindKey s).toList, isKeyPart c = true := by
    rw [written, String.toList_ofList, List.forall_mem_map]
    exact fun c hc => (part (isKeyPart_of_slugify h c hc)).1
  rw [kindKey_of_isKeyPart parts, written, String.toList_ofList, List.map_map]
  refine congrArg String.ofList (List.map_congr_left fun c hc => ?_)
  exact (part (isKeyPart_of_slugify h c hc)).2

/-- Slugs with the same key are the same. -/
theorem kindKey_injective (hs : slugify s = s) (ht : slugify t = t) (h : kindKey s = kindKey t) :
    s = t := by
  -- Each low line comes from a hyphen, since there is none in a slug.
  let hyphens (c : Char) : Char := if c = '_' then '-' else c
  have undone {c : Char} (hc : isSlugPart c = true) : hyphens (keyPart c) = c := by
    by_cases hyphen : c = '-'
    · subst hyphen
      rfl
    · have line : c ≠ '_' := by
        rintro rfl
        exact absurd hc (by decide)
      exact (congrArg hyphens (if_neg hyphen)).trans (if_neg line)
  have slug {s : String} (hs : slugify s = s) : (kindKey s).toList.map hyphens = s.toList := by
    rw [kindKey_of_slugify hs, String.toList_ofList, List.map_map]
    exact (List.map_congr_left fun c hc => undone (isSlugPart_of_slugify hs c hc)).trans
      (List.map_id _)
  rw [← String.toList_inj, ← slug hs, ← slug ht, h]

end Catalog
