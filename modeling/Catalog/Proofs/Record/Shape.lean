import Catalog.Proofs.Record.Kept
import Catalog.Rule.Scope

/-!
# The shape of what is written

Whatever is written has passed the check of its shape as it is (`checkShape_create`,
`checkShape_replace`, `checkShape_update`). So its list fields are arrays of texts or null
(`isTexts_of_checkShape`), and its owners can be told (`ownersOf_of_checkShape`).
-/

namespace Catalog.Record

variable {p : Policy} {payload stored doc doc' : Document} {now : Instant}

/-- The derived fields are written before the shape is checked. -/
theorem checkShape_finish (h : finish p doc = .ok doc') : checkShape p doc' = .ok () :=
  (finish_eq_ok h).1

theorem checkShape_create {requester : Requester} {id : String}
    (h : create p payload requester now id = .ok doc) : checkShape p doc = .ok () := by
  obtain ⟨kind, created, updated, given, approved, validUntil, readable, -, -, -, -, -, -, -, hf⟩
    := create_eq_ok h
  exact checkShape_finish hf

theorem checkShape_replace (h : replace p stored payload now = .ok doc) :
    checkShape p doc = .ok () := by
  obtain ⟨id, timed, readable, written, -, -, -, -, -, hf⟩ := replace_eq_ok h
  exact checkShape_finish hf

theorem checkShape_update (h : update p stored payload now = .ok doc) :
    checkShape p doc = .ok () := by
  obtain ⟨timed, written, -, -, -, -, hf⟩ := update_eq_ok h
  exact checkShape_finish hf

/-! ## List fields -/

/-- A document of the right shape has arrays of texts, or null, in its list fields. -/
theorem isTexts_of_checkShape (h : checkShape p doc = .ok ()) {field : String}
    (hf : field ∈ countedArrays) : isTexts (doc.field field) = true := by
  rw [checkShape] at h
  dsimp only at h
  split at h
  · cases h
  · split at h
    · cases h
    · next none =>
      have texts := List.find?_eq_none.1 none field hf
      simpa using texts

/-- An array of texts is what it says, and null has none. -/
theorem isTexts_iff {v : Value} :
    isTexts v = true ↔ v = .null ∨ ∃ texts : List String, v = .array (texts.map .text) := by
  constructor
  · intro h
    cases v with
    | null => exact .inl rfl
    | array items =>
      refine .inr ?_
      induction items with
      | nil => exact ⟨[], rfl⟩
      | cons v items ih =>
        rw [isTexts, List.all_cons, Bool.and_eq_true] at h
        obtain ⟨texts, htexts⟩ := ih h.2
        cases v with
        | text s => exact ⟨s :: texts, by rw [List.map_cons, ← Value.array.inj htexts]⟩
        | _ => exact Bool.noConfusion h.1
    | _ => exact Bool.noConfusion h
  · rintro (rfl | ⟨texts, rfl⟩)
    · rfl
    · rw [isTexts, List.all_eq_true, List.forall_mem_map]
      exact fun _ _ => rfl

/-- A field with an array of texts lists these, and one with null none. -/
theorem idsIn_of_isTexts {field : String} (h : isTexts (doc.field field) = true) :
    ∃ ids, idsIn field doc = .ok ids ∧
      ((doc.field field = .null ∧ ids = []) ∨ doc.field field = .array (ids.map .text)) := by
  have read : idsIn field doc = if (doc.field field).truthy then
      (orFault .shape (doc.field field).elements?).map (List.map Value.display) else .ok [] := rfl
  rw [read]
  rcases isTexts_iff.1 h with h | ⟨texts, h⟩
  · rw [h]
    exact ⟨[], rfl, .inl ⟨rfl, rfl⟩⟩
  · rw [h]
    refine ⟨texts, ?_, .inr rfl⟩
    cases texts with
    | nil => rfl
    | cons t texts =>
      have shown : ((t :: texts).map Value.text).map Value.display = t :: texts := by
        rw [List.map_map]
        exact List.map_id'' (fun _ => rfl) _
      change Except.ok (((t :: texts).map Value.text).map Value.display) = _
      rw [shown]

/-- The owners of a document of the right shape can be told. -/
theorem ownersOf_of_checkShape (h : checkShape p doc = .ok ()) :
    ∃ owners, ownersOf doc = .ok owners ∧ idsIn "_ownerUsers" doc = .ok owners.users := by
  obtain ⟨users, husers, -⟩ := idsIn_of_isTexts (isTexts_of_checkShape h
    (by decide : "_ownerUsers" ∈ countedArrays))
  obtain ⟨groups, hgroups, -⟩ := idsIn_of_isTexts (isTexts_of_checkShape h
    (by decide : "_ownerGroups" ∈ countedArrays))
  exact ⟨{ users, groups }, by rw [ownersOf, husers, hgroups]; rfl, husers⟩

end Catalog.Record
