import Catalog.Proofs.Keyed
import Catalog.Proofs.Record.Kept

/-!
# Fields that name records

The reference fields of a record are taken from the payload when it is made (`get?_create`), and
never change afterwards: a payload that says something else is refused, or not listened to
(`get?_reference_update`, `get?_reference_replace`). A text stays this text; of another value an
update may write one that is the same (`exists_reference_update`), such as true for one.

A payload is an object in which no key is there twice, as it is in the text of every object.
-/

namespace Catalog

/-- The members of a document that are written over another one take the place of its own. -/
theorem Document.get?_putAll {news : Document} (h : news.Distinct) (doc : Document)
    (key : String) : (doc.putAll news).get? key = (news.get? key).or (doc.get? key) := by
  induction news generalizing doc with
  | nil => rfl
  | cons m rest ih =>
    obtain ⟨k, v⟩ := m
    rw [Distinct, keys, List.map_cons, List.nodup_cons] at h
    have step : doc.putAll ((k, v) :: rest) = (doc.put k v).putAll rest := rfl
    rw [step, ih h.2, get?_put, get?]
    by_cases hk : k = key
    · subst hk
      rw [get?_eq_none_iff.2 h.1, if_pos rfl, if_pos rfl]
      rfl
    · rw [if_neg hk, if_neg (Ne.symm hk)]

theorem Document.Distinct.withoutServerFields {doc : Document} (h : doc.Distinct) :
    doc.withoutServerFields.Distinct := by
  rw [Document.withoutServerFields]
  generalize serverFields = fields
  induction fields generalizing doc with
  | nil => exact h
  | cons field fields ih => exact ih (h.erase field)

theorem Document.get?_withoutServerFields {key : String} (h : key ∉ serverFields)
    (doc : Document) : doc.withoutServerFields.get? key = doc.get? key := by
  rw [withoutServerFields, get?_eraseAll, if_neg h]

namespace Record

variable {p : Policy} {payload stored doc : Document} {now : Instant} {key : String}

/-- The fields that the catalogue writes when it makes a record, or may write. -/
def managedFields : List String :=
  serverFields ++ countedArrays ++ ["_kind", "_createdDateTime", "_lastUpdatedDateTime",
    "_validFromDateTime", "_validUntilDateTime", "_visibility", "_slug"]

theorem ne_of_managed (hk : key ∉ managedFields) {field : String} (hf : field ∈ managedFields) :
    key ≠ field := by
  rintro rfl
  exact hk hf

theorem not_mem_of_managed (hk : key ∉ managedFields) {fields : List String}
    (hf : ∀ field ∈ fields, field ∈ managedFields) : key ∉ fields :=
  fun h => hk (hf key h)

/-- No reference field is managed. -/
theorem not_mem_managedFields {f : Family} {r : String × Family} (h : r ∈ f.references) :
    r.1 ∉ managedFields := by
  revert r
  cases f <;> decide

/-- A new record has what the payload says, but for the managed fields. -/
theorem get?_create (hk : key ∉ managedFields) {requester : Requester} {id : String}
    (hd : payload.Distinct) (h : create p payload requester now id = .ok doc) :
    doc.get? key = payload.get? key := by
  have server : key ∉ serverFields := not_mem_of_managed hk (by decide)
  have filled : key ∉ filledFields := not_mem_of_managed hk (by decide)
  have kind : key ≠ "_kind" := ne_of_managed hk (by decide)
  have id : key ≠ "_id" := ne_of_managed hk (by decide)
  have given : (payload.withoutServerFields.erase "_kind").get? key = payload.get? key := by
    rw [Document.get?_erase, if_neg kind, Document.get?_withoutServerFields server]
  obtain ⟨k, hkind⟩ := get?_create_eq filled h
  rw [hkind, Document.get?_putAll (hd.withoutServerFields.erase "_kind"), given, Document.get?,
    if_neg id.symm, Document.get?, if_neg kind.symm, Document.get?, Option.or_none]

/-! ## Changes -/

/-- A payload for a stored record says of a reference field what the record has, or nothing. -/
theorem get?_of_checkUnchanged (h : checkUnchanged p stored payload = .ok ())
    {r : String × Family} (hr : r ∈ p.family.references) {v : Value}
    (hv : payload.get? r.1 = some v) : v.same (stored.field r.1) = true := by
  rw [checkUnchanged] at h
  split at h
  · cases h
  · dsimp only at h
    split at h
    · cases h
    · next none =>
      have same := List.find?_eq_none.1 none r hr
      rw [hv] at same
      simpa using same

/-- An update writes the members of the payload, and then the managed fields. -/
theorem get?_update_of_not_mem (hk : key ∉ managedFields)
    (h : update p stored payload now = .ok doc) :
    doc.get? key = (stored.putAll payload.withoutServerFields).get? key := by
  obtain ⟨written, finished, merged⟩ := exists_merged_update h
  rw [get?_finish (ne_of_managed hk (by decide)) (not_mem_of_managed hk (by decide)) finished,
    merged key (not_mem_of_managed hk (by decide))]

/-- What a record says in a reference field is still there when it is updated, or the same. -/
theorem exists_reference_update (hd : payload.Distinct)
    (h : update p stored payload now = .ok doc) {r : String × Family}
    (hr : r ∈ p.family.references) {v : Value} (hv : stored.get? r.1 = some v) :
    ∃ w, doc.get? r.1 = some w ∧ (w = v ∨ w.same v = true) := by
  have managed := not_mem_managedFields hr
  have server : r.1 ∉ serverFields := not_mem_of_managed managed (by decide)
  obtain ⟨timed, written, unchanged, -⟩ := update_eq_ok h
  rw [get?_update_of_not_mem managed h, Document.get?_putAll hd.withoutServerFields,
    Document.get?_withoutServerFields server]
  cases hw : payload.get? r.1 with
  | none => exact ⟨v, by rw [Option.none_or, hv], .inl rfl⟩
  | some w =>
    have same := get?_of_checkUnchanged unchanged hr hw
    rw [Document.field, hv] at same
    exact ⟨w, rfl, .inr same⟩

/-- A record that is updated keeps naming what it named. -/
theorem get?_reference_update (hd : payload.Distinct)
    (h : update p stored payload now = .ok doc) {r : String × Family}
    (hr : r ∈ p.family.references) {t : String} (ht : stored.get? r.1 = some (.text t)) :
    doc.get? r.1 = some (.text t) := by
  obtain ⟨w, hw, rfl | same⟩ := exists_reference_update hd h hr ht
  · exact hw
  · rw [hw, Value.same_text.1 same]

/-- What a stored document says in one of several fields is written over another one. -/
theorem get?_putStored {fields : List (String × Family)} {v : Value}
    (hs : stored.get? key = some v) {d : Document}
    (h : key ∈ fields.map Prod.fst ∨ d.get? key = some v) :
    Document.get? key (fields.foldl (fun d (field, _) =>
      match stored.get? field with
      | some v => d.put field v
      | none => d) d) = some v := by
  induction fields generalizing d with
  | nil => exact h.resolve_left List.not_mem_nil
  | cons r rest ih =>
    obtain ⟨field, target⟩ := r
    rw [List.foldl_cons]
    refine ih ?_
    dsimp only
    by_cases hf : key = field
    · subst hf
      rw [hs]
      exact .inr (by rw [Document.get?_put, if_pos rfl])
    · rw [List.map_cons, List.mem_cons] at h
      rcases h with (h | h) | h
      · exact absurd h hf
      · exact .inl h
      · refine .inr ?_
        split
        · rw [Document.get?_put, if_neg hf, h]
        · exact h

/-- A record that is replaced keeps naming what it named. -/
theorem get?_reference_replace (h : replace p stored payload now = .ok doc)
    {r : String × Family} (hr : r ∈ p.family.references) {v : Value}
    (hv : stored.get? r.1 = some v) : doc.get? r.1 = some v := by
  have managed := not_mem_managedFields hr
  obtain ⟨id, written, -, finished, started⟩ := exists_started_replace h
  rw [get?_finish (ne_of_managed managed (by decide)) (not_mem_of_managed managed (by decide))
    finished, started r.1 (not_mem_of_managed managed (by decide))
    (not_mem_of_managed managed (by decide))]
  exact get?_putStored hv (.inl (List.mem_map_of_mem hr))

end Record

end Catalog
