import Catalog.Proofs.Record.Carried

/-!
# Settled documents

What the operations derive or fill in, and what they leave out, is settled in every document that
they lead to (`Record.Settled`): nothing stands in the fields that no payload may write and the
catalogue does not write either, the lists are there, a slug has been made of the name if there was
none, and the references are values as they are read. Being managed says what the other fields are;
together they make a document one that writing again does not change.
-/

namespace Catalog.Record

variable {p : Policy} {payload stored body doc doc' : Document} {now : Instant} {key : String}

/-- The fields that no payload may write, and that the catalogue does not write either. -/
def unwrittenFields (f : Family) : List String :=
  ["_fromMetadata", "_toMetadata"] ++
    if f.hasAccessFields then [] else countedArrays.map countField

/-- What is settled in a document besides the managed fields. -/
structure Settled (f : Family) (doc : Document) : Prop where
  /-- Nothing stands in the fields that nobody writes. -/
  unwritten : ∀ key ∈ unwrittenFields f, doc.get? key = none
  /-- If it says who may read it, its list fields are there. -/
  lists : f.hasAccessFields = true → ∀ field ∈ countedArrays, (doc.get? field).isSome = true
  /-- If it has a name and no slug, the name has been made into one: that is why there is none. -/
  slug : (doc.field "_name").truthy = true → (doc.field "_slug").truthy = false →
    doc.get? "_slug" = some (.text (slugify (doc.field "_name").display))
  /-- Its references are values as they are read. -/
  references : ∀ r ∈ f.references, ∀ v, doc.get? r.1 = some v → v.WellKeyed

/-! ## Fields that nobody writes -/

theorem mem_serverFields_of_unwritten {f : Family} (h : key ∈ unwrittenFields f) :
    key ∈ serverFields := by
  revert h
  revert key
  cases f <;> decide

theorem not_mem_of_unwritten {f : Family} (h : key ∈ unwrittenFields f) :
    key ∉ ["_id", "_kind", "_version", "_slug", "_visibility"] ++ instantFields ++ countedArrays ++
      f.references.map Prod.fst := by
  revert h
  revert key
  cases f <;> decide

theorem ne_of_unwritten {f : Family} (h : key ∈ unwrittenFields f) {field : String}
    (hf : field ∈ ["_id", "_kind", "_version", "_slug", "_visibility"] ++ instantFields ++
      countedArrays ++ f.references.map Prod.fst) : key ≠ field := by
  rintro rfl
  exact not_mem_of_unwritten h hf

theorem not_mem_counts_of_unwritten {f : Family} (h : key ∈ unwrittenFields f)
    (ha : f.hasAccessFields = true) : key ∉ countedArrays.map countField := by
  revert h
  revert key
  revert ha
  cases f <;> decide

theorem not_mem_stamps_of_unwritten {f : Family} (h : key ∈ unwrittenFields f) :
    key ∉ stampedFields ∧ key ∉ "_visibility" :: countedArrays := by
  revert h
  revert key
  cases f <;> decide

theorem get?_finish_of_unwritten (hk : key ∈ unwrittenFields p.family)
    (h : finish p doc = .ok doc') : doc'.get? key = doc.get? key := by
  have slug : key ≠ "_slug" := ne_of_unwritten hk (by simp)
  obtain ⟨-, ⟨ha, counted⟩ | ⟨-, rfl⟩⟩ := finish_eq_ok h
  · rw [get?_putCounts (not_mem_counts_of_unwritten hk ha) counted, get?_putSlug slug]
  · exact get?_putSlug slug doc

/-- Where a record has an id and a kind, and else what a payload may write, nothing stands in a
    field that nobody writes. -/
theorem get?_started_of_unwritten (hk : key ∈ unwrittenFields p.family) {id kind : Value}
    (hbody : key ∉ body.keys) :
    (Document.putAll [("_id", id), ("_kind", kind)] body).get? key = none := by
  have hid : key ≠ "_id" := ne_of_unwritten hk (by simp)
  have hkind : key ≠ "_kind" := ne_of_unwritten hk (by simp)
  rw [Document.get?_putAll_of_not_mem hbody, Document.get?, if_neg hid.symm, Document.get?,
    if_neg hkind.symm, Document.get?]

theorem unwritten_create {requester : Requester} {id : String}
    (h : create p payload requester now id = .ok doc) (hk : key ∈ unwrittenFields p.family) :
    doc.get? key = none := by
  have other {field : String} (hf : field ∈ ["_id", "_kind", "_version", "_slug", "_visibility"] ++
      instantFields ++ countedArrays ++ p.family.references.map Prod.fst) : key ≠ field :=
    ne_of_unwritten hk hf
  have hbody : key ∉ (newBody payload).keys := by
    rw [newBody, ← Document.get?_eq_none_iff, Document.get?_erase, if_neg (other (by simp))]
    exact Document.get?_eq_none_iff.2
      (Document.not_mem_keys_withoutServerFields (mem_serverFields_of_unwritten hk) payload)
  obtain ⟨kind, created, updated, given, approved, validUntil, readable, -, -, -, -, -, -, ha, hf⟩
    := create_eq_ok h
  have stamps : key ≠ "_version" ∧ key ≠ "_createdDateTime" ∧ key ≠ "_lastUpdatedDateTime" ∧
      key ≠ "_validFromDateTime" ∧ key ≠ "_validUntilDateTime" :=
    ⟨other (by simp), other (by simp [instantFields]), other (by simp [instantFields]),
      other (by simp [instantFields, validityFields]),
      other (by simp [instantFields, validityFields])⟩
  have counted : key ∉ countedArrays := fun hm =>
    not_mem_of_unwritten hk (List.mem_append_left _ (List.mem_append_right _ hm))
  rw [get?_finish_of_unwritten hk hf, get?_ifAccess (get?_putAccess (other (by simp)) counted) ha]
  simp only [stamped, Document.get?_put, stamps, if_false]
  exact get?_started_of_unwritten hk hbody

theorem unwritten_replace (h : replace p stored payload now = .ok doc)
    (hk : key ∈ unwrittenFields p.family) : doc.get? key = none := by
  obtain ⟨stamps, access⟩ := not_mem_stamps_of_unwritten hk
  have reference : ∀ r ∈ p.family.references, key ≠ r.1 := fun r hr =>
    ne_of_unwritten hk (List.mem_append_right _ (List.mem_map_of_mem hr))
  have fewer : ∀ field ∈ ["_version", "_lastUpdatedDateTime"] ++ validityFields,
      field ∈ stampedFields := by decide
  obtain ⟨id, written, -, finished, started⟩ := exists_started_replace h
  rw [get?_finish_of_unwritten hk finished, started key (fun hm => stamps (fewer key hm)) access,
    get?_replaced (fun r hr e => absurd e (reference r hr))
      (ne_of_unwritten hk (by simp [instantFields])) (ne_of_unwritten hk (by simp))]
  exact get?_started_of_unwritten hk
    (Document.not_mem_keys_withoutServerFields (mem_serverFields_of_unwritten hk) payload)

theorem get?_update_of_unwritten (h : update p stored payload now = .ok doc)
    (hk : key ∈ unwrittenFields p.family) : doc.get? key = stored.get? key := by
  obtain ⟨written, finished, merged⟩ := exists_merged_update h
  rw [get?_finish_of_unwritten hk finished, merged key (not_mem_stamps_of_unwritten hk).1,
    Document.get?_putAll_of_not_mem
      (Document.not_mem_keys_withoutServerFields (mem_serverFields_of_unwritten hk) payload)]

/-! ## Lists -/

theorem isSome_get?_put {field : String} (h : (doc.get? key).isSome = true) (v : Value) :
    ((doc.put field v).get? key).isSome = true := by
  rw [Document.get?_put]
  split
  · rfl
  · exact h

theorem isSome_get?_of_not_lacks (h : ¬doc.lacks key = true) : (doc.get? key).isSome = true := by
  cases hk : doc.get? key with
  | none =>
    rw [Document.lacks, Document.field, hk] at h
    exact absurd rfl h
  | some v => rfl

/-- A field that is filled in where it is missing is there. -/
theorem isSome_get?_fill (field : String) (v : Value) (doc : Document) :
    (Document.get? field (if doc.lacks field then doc.put field v else doc)).isSome = true := by
  split
  · rw [Document.get?_put, if_pos rfl]
    rfl
  · next present => exact isSome_get?_of_not_lacks present

/-- All fields that are filled in one after the other are there. -/
theorem isSome_get?_fillAll {fields : List String} {v : String → Value}
    (h : key ∈ fields ∨ (doc.get? key).isSome = true) :
    (Document.get? key (fields.foldl
      (fun d field => if d.lacks field then d.put field (v field) else d) doc)).isSome = true := by
  induction fields generalizing doc with
  | nil => exact h.resolve_left List.not_mem_nil
  | cons field fields ih =>
    refine ih ?_
    by_cases hk : key = field
    · subst hk
      exact .inr (isSome_get?_fill key (v key) doc)
    · refine h.imp (fun hm => (List.mem_cons.1 hm).resolve_left hk) fun hs => ?_
      rwa [Document.get?_fill hk]

/-- A new record has its owners from the payload, or else from the requester; the other lists are
    filled in. -/
theorem lists_create {requester : Requester} {id : String} (hp : payload.Distinct)
    (h : create p payload requester now id = .ok doc) (ha : p.family.hasAccessFields = true) :
    ∀ field ∈ countedArrays, (doc.get? field).isSome = true := by
  have plain : ∀ field ∈ countedArrays, field ≠ "_slug" ∧ field ∉ countedArrays.map countField := by
    decide
  have filled : ∀ field ∈ countedArrays, field = "_ownerUsers" ∨
      field ∈ ["_ownerGroups", "_viewerUsers", "_viewerGroups", "_parents"] := by decide
  intro field hf
  obtain ⟨kind, created, updated, given, approved, validUntil, readable, -, -, -, -, -, -, hr, hf'⟩
    := create_eq_ok h
  rw [get?_finish (plain field hf).1 (plain field hf).2 hf']
  obtain ⟨-, hr⟩ | ⟨closed, -⟩ := ifAccess_eq_ok hr
  · obtain ⟨visibility, v, -, made⟩ := putAccess_eq_ok hr
    rw [made]
    refine isSome_get?_fillAll ((filled field hf).symm.imp_right ?_)
    rintro rfl
    split
    · rw [Document.get?_put, if_pos rfl]
      rfl
    · next owned =>
      have distinct : (newBody payload).Distinct := hp.withoutServerFields.erase "_kind"
      refine isSome_get?_put ?_ v
      simp only [stamped, Document.get?_put, String.reduceEq, reduceIte,
        Document.get?_putAll distinct, Option.isSome_or, isSome_get?_of_not_lacks owned,
        Bool.true_or]
  · exact Bool.noConfusion (ha.symm.trans closed)

/-- The lists of a record that is replaced are filled in from it. -/
theorem lists_replace (h : replace p stored payload now = .ok doc)
    (ha : p.family.hasAccessFields = true) :
    ∀ field ∈ countedArrays, (doc.get? field).isSome = true := by
  have plain : ∀ field ∈ countedArrays, (field ≠ "_slug" ∧ field ∉ countedArrays.map countField) ∧
      field ≠ "_version" ∧ field ≠ "_lastUpdatedDateTime" := by decide
  intro field hf
  obtain ⟨⟨hs, hc⟩, hv, hu⟩ := plain field hf
  obtain ⟨id, timed, readable, written, -, -, -, hr, hw, hf'⟩ := replace_eq_ok h
  rw [get?_finish hs hc hf', get?_putWriting hv hu hw]
  obtain ⟨-, hr⟩ | ⟨closed, -⟩ := ifAccess_eq_ok hr
  · rw [(keepAccess_eq_ok hr).2]
    exact isSome_get?_fillAll (.inl (List.mem_cons_of_mem _ hf))
  · exact Bool.noConfusion (ha.symm.trans closed)

/-- An update removes no list. -/
theorem lists_update (hp : payload.Distinct) (h : update p stored payload now = .ok doc)
    {field : String} (hf : field ∈ countedArrays) (hs : (stored.get? field).isSome = true) :
    (doc.get? field).isSome = true := by
  have plain : ∀ field ∈ countedArrays, field ∉ stampedFields ∧ field ≠ "_slug" ∧
      field ∉ countedArrays.map countField := by decide
  obtain ⟨hstamped, hslug, hcount⟩ := plain field hf
  rw [get?_update_over hstamped hslug hcount hp h, Option.isSome_or, hs, Bool.or_true]

/-! ## Slugs -/

/-- At the end of every writing a slug is made of the name, if there is a name and no slug. -/
theorem slug_finish (h : finish p doc = .ok doc') (hname : (doc'.field "_name").truthy = true)
    (hslug : (doc'.field "_slug").truthy = false) :
    doc'.get? "_slug" = some (.text (slugify (doc'.field "_name").display)) := by
  have name : doc'.get? "_name" = doc.get? "_name" := get?_finish (by decide) (by decide) h
  have slug := get?_slug_finish h
  rw [Document.field, slug] at hslug
  rw [Document.field, name] at hname ⊢
  rw [slug]
  rw [putSlug] at hslug ⊢
  split
  · rw [Document.get?_put, if_pos rfl]
    rfl
  · next unmade =>
    rw [if_neg unmade] at hslug
    rw [Document.field, hname, Document.field, hslug] at unmade
    exact absurd rfl unmade

/-! ## References -/

theorem references_create {requester : Requester} {id : String}
    (hp : (Value.object payload).WellKeyed) (h : create p payload requester now id = .ok doc)
    {r : String × Family} (hr : r ∈ p.family.references) {v : Value}
    (hv : doc.get? r.1 = some v) : v.WellKeyed := by
  rw [get?_create (not_mem_managedFields hr) hp.distinct h] at hv
  exact hp.of_get? hv

theorem references_replace (hp : (Value.object payload).WellKeyed)
    (h : replace p stored payload now = .ok doc) {r : String × Family}
    (hr : r ∈ p.family.references) (hs : ∀ v, stored.get? r.1 = some v → v.WellKeyed) {v : Value}
    (hv : doc.get? r.1 = some v) : v.WellKeyed := by
  cases had : stored.get? r.1 with
  | none =>
    rw [get?_replace (not_mem_managedFields hr) (fun _ _ _ => had) hp.distinct h] at hv
    exact hp.of_get? hv
  | some w =>
    rw [get?_reference_replace h hr had] at hv
    cases hv
    exact hs v had

theorem references_update (hp : (Value.object payload).WellKeyed)
    (h : update p stored payload now = .ok doc) {r : String × Family}
    (hr : r ∈ p.family.references) (hs : ∀ v, stored.get? r.1 = some v → v.WellKeyed) {v : Value}
    (hv : doc.get? r.1 = some v) : v.WellKeyed := by
  have managed := not_mem_managedFields hr
  rw [get?_update_of_not_mem managed h, Document.get?_putAll hp.distinct.withoutServerFields,
    Document.get?_withoutServerFields (not_mem_of_managed managed (by decide)),
    Option.or_eq_some_iff] at hv
  rcases hv with said | ⟨-, had⟩
  · exact hp.of_get? said
  · exact hs v had

/-! ## Produced documents -/

/-- What is settled in a document is so whatever operations led to it. -/
theorem Produced.settled {f : Family} (h : Produced f doc) : Settled f doc := by
  induction h with
  | create hq keyed made =>
    subst hq
    exact {
      unwritten := fun key => unwritten_create made
      lists := lists_create keyed.distinct made
      slug := by
        obtain ⟨_, _, _, _, _, _, readable, -, -, -, -, -, -, -, finished⟩ := create_eq_ok made
        exact slug_finish finished
      references := fun r hr v => references_create keyed made hr }
  | replace hq _ keyed made ih =>
    subst hq
    exact {
      unwritten := fun key => unwritten_replace made
      lists := lists_replace made
      slug := by
        obtain ⟨_, finished⟩ := (relabelled_replace made).finished
        exact slug_finish finished
      references := fun r hr v => references_replace keyed made hr (ih.references r hr) }
  | update hq _ keyed made ih =>
    subst hq
    exact {
      unwritten := fun key hk => by rw [get?_update_of_unwritten made hk, ih.unwritten key hk]
      lists := fun ha field hf => lists_update keyed.distinct made hf (ih.lists ha field hf)
      slug := by
        obtain ⟨_, finished⟩ := (relabelled_update keyed.distinct made).finished
        exact slug_finish finished
      references := fun r hr v => references_update keyed made hr (ih.references r hr) }

end Catalog.Record
