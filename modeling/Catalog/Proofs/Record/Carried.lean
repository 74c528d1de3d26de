import Mathlib.Data.List.Basic
import Mathlib.Data.List.Find
import Catalog.Policy.Reading
import Catalog.Proofs.Record.Produced

/-!
# What is carried over

What a changed record has of the one before it, and what of the payload. An update merges: a field
that the payload does not have stays as it was, but for the version, the time of the last change,
the slug, and the number beside a list that the payload has (`get?_update_of_unsaid`); what the
payload says is there afterwards, but for what the catalogue writes itself (`get?_update_of_said`).
A replacement clears: of the record before it only the carried fields (`carriedFields`) are read at
all, so two records that agree on these are replaced alike, or refused alike (`replace_congr`). Any
other field is that of the payload, or missing (`get?_replace`).
-/

namespace Catalog.Record

variable {p : Policy} {payload stored stored' body doc : Document} {now : Instant} {key : String}

/-- The fields that say when a record was made and changed, and when it is valid. -/
def instantFields : List String :=
  ["_createdDateTime", "_lastUpdatedDateTime"] ++ validityFields

/-- The fields of a stored record that are carried over into one that takes its place. -/
def carriedFields (f : Family) : List String :=
  ["_id", "_kind", "_version", "_createdDateTime"] ++ validityFields ++ "_visibility" ::
    countedArrays ++ f.references.map Prod.fst

/-! ## Updates -/

/-- What the payload says is there afterwards, but for what the catalogue writes itself. -/
theorem get?_update_of_said (hp : payload.Distinct) (h : update p stored payload now = .ok doc)
    {v : Value} (hv : payload.get? key = some v) (hserver : key ∉ serverFields)
    (hslug : key ≠ "_slug") (htime : key ∉ instantFields) : doc.get? key = some v := by
  have hstamped : key ∉ stampedFields := by
    rw [stampedFields, List.cons_append, List.mem_cons, not_or]
    exact ⟨fun e => hserver (e ▸ by decide), htime⟩
  have hcount : key ∉ countedArrays.map countField :=
    fun hm => hserver (List.mem_append_right _ hm)
  rw [get?_update_over hstamped hslug hcount hp h, Document.get?_withoutServerFields hserver, hv,
    Option.some_or]

/-- The number beside a list that the payload does not have stays as it was. -/
theorem get?_count_update (hm : Managed p stored) (hp : payload.Distinct)
    (h : update p stored payload now = .ok doc) {field : String} (hf : field ∈ countedArrays)
    (hunsaid : payload.get? field = none) :
    doc.get? (countField field) = stored.get? (countField field) := by
  have plain : ∀ field ∈ countedArrays, field ∉ stampedFields ∧ field ≠ "_slug" ∧
      field ∉ countedArrays.map countField ∧ field ∉ serverFields := by decide
  have derived : ∀ field ∈ countedArrays, countField field ∈ serverFields ∧
      countField field ∉ stampedFields ∧ countField field ≠ "_slug" := by decide
  cases ha : p.family.hasAccessFields with
  | true =>
    obtain ⟨hstamped, hslug, hcount, hserver⟩ := plain field hf
    refine (managed_update hp hm h).count_congr hm ha hf (congrArg Value.orNull ?_)
    rw [get?_update_over hstamped hslug hcount hp h, Document.get?_withoutServerFields hserver,
      hunsaid, Option.none_or]
  | false =>
    obtain ⟨hserver, hstamped, hslug⟩ := derived field hf
    obtain ⟨written, finished, merged⟩ := exists_written_update hp h
    rw [finish_of_not_access ha finished, get?_putSlug hslug, merged _ hstamped,
      Document.get?_eq_none_iff.2 (Document.not_mem_keys_withoutServerFields hserver payload),
      Option.none_or]

/-- What the payload does not have stays as it was, but for the version, the time of the change, the
    slug, and the number beside a list that the payload has. -/
theorem get?_update_of_unsaid (hm : Managed p stored) (hp : payload.Distinct)
    (h : update p stored payload now = .ok doc) (hunsaid : payload.get? key = none)
    (hk : key ∉ ["_version", "_lastUpdatedDateTime", "_slug"])
    (hcount : ∀ field ∈ countedArrays, payload.has field = true → key ≠ countField field) :
    doc.get? key = stored.get? key := by
  by_cases counts : key ∈ countedArrays.map countField
  · obtain ⟨field, hf, rfl⟩ := List.mem_map.1 counts
    refine get?_count_update hm hp h hf (Option.eq_none_iff_forall_ne_some.2 fun v hv => ?_)
    exact hcount field hf (by rw [Document.has, hv]; rfl) rfl
  · by_cases created : key = "_createdDateTime"
    · subst created
      obtain ⟨t, ht⟩ := hm.created
      rw [(relabelled_update hp h).created, Document.field_of_get? ht, ht]
    · simp only [List.mem_cons, List.not_mem_nil, or_false, not_or] at hk
      have unwritten : key ∉ writtenFields := by
        simp only [writtenFields, List.cons_append, List.nil_append, List.mem_cons, not_or]
        exact ⟨hk.1, created, hk.2.1, hk.2.2, counts⟩
      refine get?_update unwritten ?_ h
      rw [← Document.get?_eq_none_iff, Document.withoutServerFields, Document.get?_eraseAll]
      split
      · rfl
      · exact hunsaid

/-! ## Replacements -/

/-- Two stored documents have the same in the fields that are carried over. -/
def AgreeOnCarried (f : Family) (stored stored' : Document) : Prop :=
  ∀ key ∈ carriedFields f, stored.get? key = stored'.get? key

namespace AgreeOnCarried

variable {f : Family}

theorem field (h : AgreeOnCarried f stored stored') (hk : key ∈ carriedFields f) :
    stored.field key = stored'.field key :=
  congrArg Value.orNull (h key hk)

theorem get?_reference (h : AgreeOnCarried f stored stored') {r : String × Family}
    (hr : r ∈ f.references) : stored.get? r.1 = stored'.get? r.1 :=
  h r.1 (List.mem_append_right _ (List.mem_map_of_mem hr))

theorem access (h : AgreeOnCarried f stored stored') (hk : key ∈ "_visibility" :: countedArrays) :
    stored.field key = stored'.field key :=
  h.field (List.mem_append_left _ (List.mem_append_right _ hk))

/-- Only the kind and the references are looked at to tell whether a payload changes them. -/
theorem checkUnchanged_eq (h : AgreeOnCarried p.family stored stored') (payload : Document) :
    checkUnchanged p stored payload = checkUnchanged p stored' payload := by
  have kind := h.field (by simp [carriedFields] : "_kind" ∈ carriedFields p.family)
  have changed : changes stored payload "_kind" = changes stored' payload "_kind" := by
    rw [changes, changes, kind]
  have found : (p.family.references.find? fun r => changes stored payload r.1) =
      p.family.references.find? fun r => changes stored' payload r.1 :=
    List.find?_congr fun r hr => by
      rw [changes, changes, Document.field, Document.field, h.get?_reference hr]
  rw [Record.checkUnchanged_eq, Record.checkUnchanged_eq, changed, kind, found]

/-- Only the kind, the time of its creation and the references are taken over at first. -/
theorem replaced_eq (h : AgreeOnCarried p.family stored stored') (payload : Document) (id : Value) :
    replaced p stored payload id = replaced p stored' payload id := by
  have kind := h.field (by simp [carriedFields] : "_kind" ∈ carriedFields p.family)
  have created := h.field (by simp [carriedFields] : "_createdDateTime" ∈ carriedFields p.family)
  rw [replaced, replaced, kind, created]
  refine List.foldl_ext _ _ _ fun d r hr => ?_
  dsimp only
  rw [h.get?_reference hr]

/-- Only who may read the record, and its parents, are filled in. -/
theorem keepAccess_eq (h : AgreeOnCarried p.family stored stored') (doc : Document) :
    keepAccess p stored doc = keepAccess p stored' doc := by
  have filled : ("_visibility" :: countedArrays).foldl
      (fun d field => if d.lacks field then d.put field (stored.field field) else d) doc =
      ("_visibility" :: countedArrays).foldl
        (fun d field => if d.lacks field then d.put field (stored'.field field) else d) doc :=
    List.foldl_ext _ _ _ fun d field hf => by rw [h.access hf]
  rw [keepAccess, keepAccess, filled]

/-- Only the version is counted up. -/
theorem putWriting_eq (h : AgreeOnCarried f stored stored') (p : Policy) (body doc : Document)
    (now : Instant) : putWriting p stored body now doc = putWriting p stored' body now doc := by
  have version := h.field (by simp [carriedFields] : "_version" ∈ carriedFields f)
  rw [putWriting, putWriting, nextVersion, nextVersion, version]

end AgreeOnCarried

/-- Records that agree on what is carried over are replaced alike, or refused alike. -/
theorem replace_congr (h : AgreeOnCarried p.family stored stored') (payload : Document)
    (now : Instant) : replace p stored payload now = replace p stored' payload now := by
  have id := h "_id" (by simp [carriedFields])
  have timed (d : Document) : (["_validFromDateTime", "_validUntilDateTime"].foldlM (fun d field =>
      writeTime p payload.withoutServerFields field d (d.put field (stored.field field))) d) =
      ["_validFromDateTime", "_validUntilDateTime"].foldlM (fun d field =>
        writeTime p payload.withoutServerFields field d (d.put field (stored'.field field))) d :=
    foldlM_congr (fun field hf d => by
      rw [h.field (List.mem_append_left _ (List.mem_append_left _ (List.mem_append_right _ hf)))]) d
  have access : keepAccess p stored = keepAccess p stored' := funext h.keepAccess_eq
  rw [replace_eq, replace_eq, h.checkUnchanged_eq, id]
  simp only [h.replaced_eq, timed, access, h.putWriting_eq]

/-- What no operation writes by itself is that of the payload when a record is replaced, unless it
    is a reference that the record has. -/
theorem get?_replace (hk : key ∉ managedFields)
    (hr : ∀ r ∈ p.family.references, key = r.1 → stored.get? key = none)
    (hp : payload.Distinct) (h : replace p stored payload now = .ok doc) :
    doc.get? key = payload.get? key := by
  have id : key ≠ "_id" := ne_of_managed hk (by decide)
  have kind : key ≠ "_kind" := ne_of_managed hk (by decide)
  have server : key ∉ serverFields := not_mem_of_managed hk (by decide)
  obtain ⟨first, written, -, finished, started⟩ := exists_started_replace h
  rw [get?_finish (ne_of_managed hk (by decide)) (not_mem_of_managed hk (by decide)) finished,
    started key (not_mem_of_managed hk (by decide)) (not_mem_of_managed hk (by decide)),
    get?_replaced hr (ne_of_managed hk (by decide)) kind,
    Document.get?_putAll hp.withoutServerFields, Document.get?_withoutServerFields server,
    Document.get?, if_neg id.symm, Document.get?, if_neg kind.symm, Document.get?, Option.or_none]

/-! ## Both -/

/-- An update merges the payload into the record and moves nothing else; a replacement takes from
    the record what is carried over, and nothing else. -/
theorem update_merges_replace_clears (p : Policy) (now : Instant) {payload : Document}
    (hkeyed : (Value.object payload).WellKeyed) :
    (∀ stored doc, Produced p.family stored → update p stored payload now = .ok doc →
      (∀ key, payload.get? key = none → key ∉ ["_version", "_lastUpdatedDateTime", "_slug"] →
        (∀ field ∈ countedArrays, payload.has field = true → key ≠ countField field) →
        doc.get? key = stored.get? key) ∧
      ∀ key v, payload.get? key = some v → key ∉ serverFields → key ≠ "_slug" →
        key ∉ instantFields → doc.get? key = some v) ∧
    (∀ stored stored', AgreeOnCarried p.family stored stored' →
      replace p stored payload now = replace p stored' payload now) ∧
    ∀ stored doc, replace p stored payload now = .ok doc → ∀ key, key ∉ managedFields →
      (∀ r ∈ p.family.references, key ≠ r.1) → doc.get? key = payload.get? key := by
  refine ⟨fun stored doc hs h => ⟨fun key hunsaid hk hcount => ?_, fun key v => ?_⟩,
    fun stored stored' agree => replace_congr agree payload now,
    fun stored doc h key hk hr =>
      get?_replace hk (fun r hm e => absurd e (hr r hm)) hkeyed.distinct h⟩
  · rw [update_of_family (p := p) (q := anyKind p) rfl] at h
    exact get?_update_of_unsaid hs.managed_anyKind hkeyed.distinct h hunsaid hk hcount
  · exact get?_update_of_said hkeyed.distinct h

/-- An entity with a new name still has its shape after an update, and no shape when it is replaced;
    what else it had then makes no difference. -/
theorem update_merges_replace_clears_renamedEntity :
    ∃ stored updated replaced,
      create (Policy.standard .entities) [("_name", .text "A"), ("shape", .text "round")] {} .first
        "e" = .ok stored ∧
      update (Policy.standard .entities) stored [("_name", .text "B")] .first = .ok updated ∧
      updated.get? "shape" = stored.get? "shape" ∧ updated.get? "_name" = some (.text "B") ∧
      replace (Policy.standard .entities) stored [("_name", .text "B")] .first = .ok replaced ∧
      replaced.get? "shape" = none ∧
      replace (Policy.standard .entities) (stored.put "color" (.text "red"))
        [("_name", .text "B")] .first = .ok replaced := by
  have done : (do
      let stored ← create (Policy.standard .entities)
        [("_name", .text "A"), ("shape", .text "round")] {} .first "e"
      let updated ← update (Policy.standard .entities) stored [("_name", .text "B")] .first
      let replaced ← replace (Policy.standard .entities) stored [("_name", .text "B")] .first
      return (updated, replaced) : Outcome _).toOption.isSome = true := by decide
  obtain ⟨⟨updated, replaced⟩, done⟩ := Option.isSome_iff_exists.1 done
  obtain ⟨stored, hs, done⟩ := bind_eq_ok.1 (toOption_eq_some.1 done)
  obtain ⟨_, hu, done⟩ := bind_eq_ok.1 done
  obtain ⟨_, hr, done⟩ := bind_eq_ok.1 done
  cases done
  have keyed : (Value.object [("_name", .text "B")]).WellKeyed :=
    .object (by decide) (List.forall_mem_singleton.2 (.text "B"))
  have keyed' : (Value.object [("_name", .text "A"), ("shape", .text "round")]).WellKeyed :=
    .object (by decide) (List.forall_mem_cons.2 ⟨.text "A", List.forall_mem_singleton.2 (.text _)⟩)
  obtain ⟨merges, agrees, clears⟩ :=
    update_merges_replace_clears (Policy.standard .entities) .first keyed
  obtain ⟨unsaid, said⟩ := merges stored updated (.create rfl keyed' hs) hu
  have other : "color" ∉ carriedFields .entities := by decide
  refine ⟨stored, updated, replaced, hs, hu, unsaid "shape" rfl (by decide) (by decide),
    said "_name" _ rfl (by decide) (by decide) (by decide), hr,
    clears stored replaced hr "shape" (by decide) (by decide), ?_⟩
  rw [← hr]
  refine agrees _ _ fun key hk => ?_
  have hne : key ≠ "color" := by
    rintro rfl
    exact other hk
  rw [Document.get?_put, if_neg hne]

end Catalog.Record
