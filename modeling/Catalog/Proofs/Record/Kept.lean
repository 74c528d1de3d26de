import Catalog.Proofs.Record.Steps

/-!
# What writing keeps

The operations on a record write the managed fields, and besides them only what the payload has. So
a field that is neither (`writtenFields`) keeps its value when a record is updated (`get?_update`).
The id is such a field, since no payload may write it: a new record has the id that was drawn for it
(`get?_id_create`), and an updated one the id that it had.
-/

namespace Catalog

/-- The fields that the catalogue writes when it updates a record, whatever the payload. -/
def writtenFields : List String :=
  ["_version", "_createdDateTime", "_lastUpdatedDateTime", "_slug"] ++ countedArrays.map countField

/-- The fields that the catalogue writes or fills in when it makes a record, besides its id and
    kind. -/
def filledFields : List String :=
  ["_version", "_createdDateTime", "_lastUpdatedDateTime", "_validFromDateTime",
    "_validUntilDateTime", "_visibility", "_slug"] ++ countedArrays ++ countedArrays.map countField

theorem Document.field_of_get? {doc : Document} {key : String} {v : Value}
    (h : doc.get? key = some v) : doc.field key = v := by
  rw [field, h]
  rfl

/-- A text at a field is not a missing value. -/
theorem Document.get?_of_field {doc : Document} {field t : String}
    (h : doc.field field = .text t) : doc.get? field = some (.text t) := by
  rw [Document.field] at h
  cases hv : doc.get? field with
  | none =>
    rw [hv] at h
    cases h
  | some v =>
    rw [hv] at h
    exact congrArg some h

/-- No payload writes a field that only the catalogue writes. -/
theorem Document.not_mem_keys_withoutServerFields {key : String} (h : key ∈ serverFields)
    (doc : Document) : key ∉ doc.withoutServerFields.keys := by
  rw [← get?_eq_none_iff, withoutServerFields, get?_eraseAll, if_pos h]

/-! ## Fields that are written one after the other -/

/-- What no step changes is not changed by all of them. -/
theorem Document.get?_foldl {α : Type} {key : String} {step : Document → α → Document}
    {xs : List α} (h : ∀ x ∈ xs, ∀ d, (step d x).get? key = d.get? key) (doc : Document) :
    (xs.foldl step doc).get? key = doc.get? key := by
  induction xs generalizing doc with
  | nil => rfl
  | cons x xs ih =>
    rw [List.forall_mem_cons] at h
    rw [List.foldl_cons, ih h.2, h.1]

/-- What no step that gives a document changes is not changed by all of them. -/
theorem Document.get?_foldlM {α ε : Type} {key : String} {step : Document → α → Except ε Document}
    {xs : List α} (h : ∀ x ∈ xs, ∀ d d', step d x = .ok d' → d'.get? key = d.get? key)
    {doc doc' : Document} (hd : xs.foldlM step doc = .ok doc') : doc'.get? key = doc.get? key :=
  foldlM_keeps (P := fun d => d.get? key = doc.get? key)
    (fun x hx d d' hk hs => (h x hx d d' hs).trans hk) rfl hd

/-- A field that is filled in where it is missing changes no other. -/
theorem Document.get?_fill {key field : String} (h : key ≠ field) (v : Value) (doc : Document) :
    (if doc.lacks field then doc.put field v else doc).get? key = doc.get? key := by
  split
  · rw [get?_put, if_neg h]
  · rfl

namespace Record

theorem get?_putCounts {key : String} (hk : key ∉ countedArrays.map countField)
    {doc doc' : Document} (h : putCounts doc = .ok doc') : doc'.get? key = doc.get? key := by
  refine Document.get?_foldlM (fun field hf d d' hd => ?_) h
  obtain ⟨n, -, hd⟩ := bind_eq_ok.1 hd
  cases hd
  have hne : key ≠ countField field := by
    rintro rfl
    exact hk (List.mem_map_of_mem hf)
  rw [Document.get?_put, if_neg hne]

theorem get?_putSlug {key : String} (hk : key ≠ "_slug") (doc : Document) :
    (putSlug doc).get? key = doc.get? key := by
  rw [putSlug]
  split
  · rw [Document.get?_put, if_neg hk]
  · rfl

/-- Of the derived fields the slug is made first, and not changed any more. -/
theorem get?_slug_finish {p : Policy} {doc doc' : Document} (h : finish p doc = .ok doc') :
    doc'.get? "_slug" = (putSlug doc).get? "_slug" := by
  obtain ⟨-, ⟨-, counted⟩ | ⟨-, rfl⟩⟩ := finish_eq_ok h
  · exact get?_putCounts (by decide) counted
  · rfl

theorem get?_finish {key : String} (hs : key ≠ "_slug") (hk : key ∉ countedArrays.map countField)
    {p : Policy} {doc doc' : Document} (h : finish p doc = .ok doc') :
    doc'.get? key = doc.get? key := by
  rw [← get?_putSlug hs doc]
  obtain ⟨-, ⟨-, counted⟩ | ⟨-, rfl⟩⟩ := finish_eq_ok h
  · exact get?_putCounts hk counted
  · rfl

theorem get?_putWriting {key : String} (hv : key ≠ "_version") (hu : key ≠ "_lastUpdatedDateTime")
    {p : Policy} {stored body doc doc' : Document} {now : Instant}
    (h : putWriting p stored body now doc = .ok doc') : doc'.get? key = doc.get? key := by
  obtain ⟨n, t, -, -, rfl⟩ := putWriting_eq_ok h
  rw [Document.get?_put, if_neg hu, Document.get?_put, if_neg hv]

theorem get?_putAccess {key : String} (hv : key ≠ "_visibility") (hk : key ∉ countedArrays)
    {p : Policy} {kind : String} {requester : Requester} {body doc doc' : Document}
    (h : putAccess p kind requester body doc = .ok doc') : doc'.get? key = doc.get? key := by
  have hu : key ≠ "_ownerUsers" := fun e => hk (e ▸ by decide)
  have hk : key ∉ ["_ownerGroups", "_viewerUsers", "_viewerGroups", "_parents"] :=
    fun hm => hk (List.mem_cons_of_mem _ hm)
  obtain ⟨given, v, -, rfl⟩ := putAccess_eq_ok h
  rw [Document.get?_foldl fun field hf d => Document.get?_fill (by rintro rfl; exact hk hf) _ d]
  split
  · rw [Document.get?_put, if_neg hu, Document.get?_put, if_neg hv]
  · rw [Document.get?_put, if_neg hv]

/-- What a step keeps is kept where it is only taken for a family that says who may read. -/
theorem get?_ifAccess {key : String} {p : Policy} {step : Document → Outcome Document}
    {doc doc' : Document} (hstep : step doc = .ok doc' → doc'.get? key = doc.get? key)
    (h : ifAccess p step doc = .ok doc') : doc'.get? key = doc.get? key := by
  rcases ifAccess_eq_ok h with ⟨-, h⟩ | ⟨-, same⟩
  · exact hstep h
  · rw [same]

/-- In the other fields a new record is the payload, without the fields that it may not write, on
    top of the id and the kind. -/
theorem get?_create_eq {key : String} (hk : key ∉ filledFields) {p : Policy}
    {payload doc : Document} {requester : Requester} {now : Instant} {id : String}
    (h : create p payload requester now id = .ok doc) :
    ∃ kind, doc.get? key = (Document.putAll [("_id", .text id), ("_kind", .text kind)]
      (payload.withoutServerFields.erase "_kind")).get? key := by
  have other {field : String} (hf : field ∈ filledFields) : key ≠ field := fun e => hk (e ▸ hf)
  have counts : key ∉ countedArrays.map countField :=
    fun hm => hk (List.mem_append_right _ hm)
  have counted : key ∉ countedArrays :=
    fun hm => hk (List.mem_append_left _ (List.mem_append_right _ hm))
  have stamps : key ≠ "_version" ∧ key ≠ "_createdDateTime" ∧ key ≠ "_lastUpdatedDateTime" ∧
      key ≠ "_validFromDateTime" ∧ key ≠ "_validUntilDateTime" :=
    ⟨other (by decide), other (by decide), other (by decide), other (by decide),
      other (by decide)⟩
  obtain ⟨kind, created, updated, given, approved, validUntil, readable, -, -, -, -, -, -, ha, hf⟩
    := create_eq_ok h
  refine ⟨kind, ?_⟩
  rw [get?_finish (other (by decide)) counts hf,
    get?_ifAccess (get?_putAccess (other (by decide)) counted) ha]
  simp only [stamped, newBody, Document.get?_put, stamps, if_false]

/-- A new record has the id that was drawn for it. -/
theorem get?_id_create {p : Policy} {payload doc : Document} {requester : Requester}
    {now : Instant} {id : String} (h : create p payload requester now id = .ok doc) :
    doc.get? "_id" = some (.text id) := by
  -- The id stands in the document before the payload is written over it.
  have hbody : "_id" ∉ (payload.withoutServerFields.erase "_kind").keys := by
    rw [← Document.get?_eq_none_iff, Document.get?_erase, if_neg (by decide)]
    exact Document.get?_eq_none_iff.2 (Document.not_mem_keys_withoutServerFields (by decide) _)
  obtain ⟨kind, hkind⟩ := get?_create_eq (by decide : "_id" ∉ filledFields) h
  rw [hkind, Document.get?_putAll_of_not_mem hbody]
  rfl

/-- A new record is of a kind. -/
theorem get?_kind_create {p : Policy} {payload doc : Document} {requester : Requester}
    {now : Instant} {id : String} (h : create p payload requester now id = .ok doc) :
    ∃ kind, doc.get? "_kind" = some (.text kind) := by
  have hbody : "_kind" ∉ (payload.withoutServerFields.erase "_kind").keys := by
    rw [← Document.get?_eq_none_iff, Document.get?_erase, if_pos rfl]
  obtain ⟨kind, hkind⟩ := get?_create_eq (by decide : "_kind" ∉ filledFields) h
  refine ⟨kind, ?_⟩
  rw [hkind, Document.get?_putAll_of_not_mem hbody]
  rfl

/-! ## Changes -/

/-- The fields that say from when to when a record is valid. -/
def validityFields : List String := ["_validFromDateTime", "_validUntilDateTime"]

/-- The fields that an update always writes, or reads as times if the payload has them. -/
def stampedFields : List String :=
  ["_version", "_createdDateTime", "_lastUpdatedDateTime"] ++ validityFields

/-- The step that writes a time changes no other field. -/
theorem get?_writeTime {key field : String} {p : Policy} {body d otherwise d' : Document}
    (h : writeTime p body field d otherwise = .ok d') (hne : key ≠ field)
    (ho : otherwise.get? key = d.get? key) : d'.get? key = d.get? key := by
  rcases writeTime_eq_ok h with ⟨-, t, -, rfl⟩ | ⟨-, rfl⟩
  · rw [Document.get?_put, if_neg hne]
  · exact ho

/-- The steps that write times change no other field, if what they leave instead has not changed it
    either. -/
theorem get?_writeTimes {key : String} {fields : List String} (hk : key ∉ fields) {p : Policy}
    {body d d' : Document} {otherwise : Document → String → Document}
    (ho : ∀ field, key ≠ field → ∀ d, (otherwise d field).get? key = d.get? key)
    (h : fields.foldlM (fun d field => writeTime p body field d (otherwise d field)) d = .ok d') :
    d'.get? key = d.get? key := by
  refine Document.get?_foldlM (fun field hf e e' he => ?_) h
  have hne : key ≠ field := fun same => hk (same ▸ hf)
  exact get?_writeTime he hne (ho field hne e)

/-- A timestamp is only written if the payload has it. -/
theorem get?_putStamp {key field : String} {p : Policy} {body d d' : Document}
    (hp : key ∉ body.keys) (h : writeTime p body field d d = .ok d') :
    d'.get? key = d.get? key := by
  rcases writeTime_eq_ok h with ⟨hf, t, -, rfl⟩ | ⟨-, rfl⟩
  · have hne : key ≠ field := by
      rintro rfl
      rw [Document.has, Document.get?_eq_none_iff.2 hp] at hf
      exact nomatch hf
    rw [Document.get?_put, if_neg hne]
  · rfl

/-- An update writes the members that the payload may write, and the managed fields. -/
theorem get?_update {key : String} (hk : key ∉ writtenFields) {p : Policy}
    {stored payload doc : Document} {now : Instant} (hp : key ∉ payload.withoutServerFields.keys)
    (h : update p stored payload now = .ok doc) : doc.get? key = stored.get? key := by
  simp only [writtenFields, List.cons_append, List.nil_append, List.mem_cons, not_or] at hk
  obtain ⟨hv, hc, hu, hs, hk⟩ := hk
  obtain ⟨timed, written, -, ht, -, hw, hf⟩ := update_eq_ok h
  rw [get?_finish hs hk hf, get?_putWriting hv hu hw, Document.get?_put, if_neg hc,
    Document.get?_foldlM (fun field _ d d' hd => get?_putStamp hp hd) ht,
    Document.get?_putAll_of_not_mem hp]

/-- An updated record keeps its id. -/
theorem get?_id_update {p : Policy} {stored payload doc : Document} {now : Instant}
    (h : update p stored payload now = .ok doc) : doc.get? "_id" = stored.get? "_id" :=
  get?_update (by decide) (Document.not_mem_keys_withoutServerFields (by decide) _) h

/-- Before the derived fields are written, an updated record has the members of the payload written
    over its own, but for the version and the times. -/
theorem exists_merged_update {p : Policy} {stored payload doc : Document} {now : Instant}
    (h : update p stored payload now = .ok doc) :
    ∃ written, finish p written = .ok doc ∧ ∀ key, key ∉ stampedFields →
      written.get? key = (stored.putAll payload.withoutServerFields).get? key := by
  obtain ⟨timed, written, -, ht, -, hw, hf⟩ := update_eq_ok h
  refine ⟨written, hf, fun key hk => ?_⟩
  simp only [stampedFields, List.cons_append, List.nil_append, List.mem_cons, not_or] at hk
  obtain ⟨hv, hc, hu, hk⟩ := hk
  rw [get?_putWriting hv hu hw, Document.get?_put, if_neg hc,
    get?_writeTimes hk (fun _ _ _ => rfl) ht]

theorem get?_keepAccess {key : String} (hk : key ∉ "_visibility" :: countedArrays) {p : Policy}
    {stored doc doc' : Document} (h : keepAccess p stored doc = .ok doc') :
    doc'.get? key = doc.get? key := by
  rw [(keepAccess_eq_ok h).2]
  exact Document.get?_foldl
    (fun field hf d => Document.get?_fill (by rintro rfl; exact hk hf) _ d) doc

/-- A document that takes the place of a stored one starts with the payload, but for the references
    that the stored one has. -/
theorem get?_replaced {key : String} {p : Policy} {stored : Document}
    (hr : ∀ r ∈ p.family.references, key = r.1 → stored.get? key = none)
    (hc : key ≠ "_createdDateTime") (hk : key ≠ "_kind") (payload : Document) (id : Value) :
    (replaced p stored payload id).get? key =
      (Document.putAll [("_id", id), ("_kind", stored.field "_kind")]
        payload.withoutServerFields).get? key := by
  rw [replaced, Document.get?_foldl fun r hm d => ?_, Document.get?_put, if_neg hc,
    Document.get?_put, if_neg hk]
  dsimp only
  split
  · next v hv =>
    have hne : key ≠ r.1 := fun e => by
      rw [← e, hr r hm e] at hv
      cases hv
    rw [Document.get?_put, if_neg hne]
  · rfl

/-- It starts with the kind and the time of its creation of the stored one. -/
theorem get?_replaced_label {key : String} (hk : key ∈ ["_kind", "_createdDateTime"]) {p : Policy}
    {stored : Document} (payload : Document) (id : Value) :
    (replaced p stored payload id).get? key = some (stored.field key) := by
  have apart (f : Family) : ∀ key ∈ ["_kind", "_createdDateTime"], ∀ r ∈ f.references,
      key ≠ r.1 := by cases f <;> decide
  have labels : ((((Document.putAll [("_id", id), ("_kind", stored.field "_kind")]
      payload.withoutServerFields).put "_kind" (stored.field "_kind")).put "_createdDateTime"
      (stored.field "_createdDateTime")).get? key) = some (stored.field key) := by
    rcases List.mem_cons.1 hk with rfl | hk
    · rw [Document.get?_put, if_neg (by decide), Document.get?_put, if_pos rfl]
    · obtain rfl := List.mem_singleton.1 hk
      rw [Document.get?_put, if_pos rfl]
  rw [replaced, Document.get?_foldl fun r hr d => ?_, labels]
  dsimp only
  split
  · rw [Document.get?_put, if_neg (apart p.family key hk r hr)]
  · rfl

/-- Before the derived fields are written, a document that takes the place of a stored one is as it
    started, but for the version, the times, and what says who may read it. -/
theorem exists_started_replace {p : Policy} {stored payload doc : Document} {now : Instant}
    (h : replace p stored payload now = .ok doc) :
    ∃ id written, stored.get? "_id" = some id ∧ finish p written = .ok doc ∧
      ∀ key, key ∉ ["_version", "_lastUpdatedDateTime"] ++ validityFields →
        key ∉ "_visibility" :: countedArrays →
          written.get? key = (replaced p stored payload id).get? key := by
  obtain ⟨id, timed, readable, written, -, hid, ht, ha, hw, hf⟩ := replace_eq_ok h
  refine ⟨id, written, hid, hf, fun key hk access => ?_⟩
  simp only [List.cons_append, List.nil_append, List.mem_cons, not_or] at hk
  obtain ⟨hv, hu, hk⟩ := hk
  rw [get?_putWriting hv hu hw, get?_ifAccess (get?_keepAccess access) ha,
    get?_writeTimes hk (fun field hne d => ?_) ht]
  rw [Document.get?_put, if_neg hne]

/-- The document that takes the place of a stored one has its id. -/
theorem get?_id_replace {p : Policy} {stored payload doc : Document} {now : Instant}
    (h : replace p stored payload now = .ok doc) : doc.get? "_id" = stored.get? "_id" := by
  have references (f : Family) : ∀ r ∈ f.references, "_id" ≠ r.1 := by cases f <;> decide
  obtain ⟨id, written, hid, finished, started⟩ := exists_started_replace h
  rw [get?_finish (by decide) (by decide) finished, started "_id" (by decide) (by decide),
    get?_replaced (fun r hr e => absurd e (references p.family r hr)) (by decide) (by decide),
    Document.get?_putAll_of_not_mem (Document.not_mem_keys_withoutServerFields (by decide) _), hid]
  rfl

end Record

end Catalog
