import Catalog.Proofs.Record.References
import Catalog.Proofs.Record.Shape

/-!
# Managed fields

Access control, time windows and the counting of parents read fields of stored records and trust
them. What they may rely on is said here (`Record.Managed`): the record has an id, a kind that its
policy allows, a version from one on, timestamps in the form in which the catalogue writes them, and
if its family has readers of its own, a visibility that there is and right numbers of owners,
viewers and parents.

Whatever the payload says, a new record is managed (`Record.managed_create`), and a managed record
stays so when it is replaced or updated (`Record.managed_replace`, `Record.managed_update`). The
three merge the payload with other fields in different orders, but all of them end in the same way:
they write the version and the times, then the derived fields, and then check the shape
(`Record.managed_finish`).
-/

namespace Catalog

/-- What the step for one element gives to a key, and no step for another element changes, is there
    after all steps. -/
theorem Document.get?_foldlM_own {α ε : Type} {key : String} {P : Document → Prop}
    {Q : Option Value → Prop} {step : Document → α → Except ε Document} {x : α} {xs : List α}
    (own : ∀ d d', P d → step d x = .ok d' → Q (d'.get? key))
    (others : ∀ y ∈ xs, y ≠ x → ∀ d d', step d y = .ok d' → d'.get? key = d.get? key)
    (keeps : ∀ y ∈ xs, ∀ d d', P d → step d y = .ok d' → P d') {doc doc' : Document} (hp : P doc)
    (hx : x ∈ xs ∨ Q (doc.get? key)) (h : xs.foldlM step doc = .ok doc') :
    Q (doc'.get? key) := by
  induction xs generalizing doc with
  | nil =>
    cases h
    exact hx.resolve_left List.not_mem_nil
  | cons y ys ih =>
    rw [List.foldlM_cons, bind_eq_ok] at h
    obtain ⟨d, hd, h⟩ := h
    rw [List.forall_mem_cons] at others keeps
    refine ih others.2 keeps.2 (keeps.1 doc d hp hd) ?_ h
    by_cases hy : y = x
    · subst hy
      exact .inr (own doc d hp hd)
    · refine hx.imp (fun hx => (List.mem_cons.1 hx).resolve_left (Ne.symm hy)) fun hq => ?_
      rwa [others.1 hy doc d hd]

namespace Record

/-- A time that a record may have: null, or a timestamp in the form in which they are stored. -/
def IsTime (v : Value) : Prop := v = .null ∨ ∃ t : Instant, v = .text t.timestamp

/-- A field has a time. -/
def HasTime (field : String) (doc : Document) : Prop := ∃ v, doc.get? field = some v ∧ IsTime v

/-- A record says who may read it by one of the visibilities that there are. -/
def HasVisibility (doc : Document) : Prop :=
  ∃ v ∈ visibilities, doc.get? "_visibility" = some (.text v)

/-- What the catalogue writes on every record, whatever the payload. -/
structure Labelled (p : Policy) (doc : Document) : Prop where
  /-- The id is a text. -/
  id : ∃ id, doc.get? "_id" = some (.text id)
  /-- The kind is its own slug, and records of the family may be of it. -/
  kind : ∃ kind, doc.get? "_kind" = some (.text kind) ∧ slugify kind = kind ∧
    p.allowsKind kind = true
  /-- The version is a number from one on. -/
  version : ∃ n : Int, doc.get? "_version" = some (.int n) ∧ 1 ≤ n
  /-- The time of its creation. -/
  created : ∃ t : Instant, doc.get? "_createdDateTime" = some (.text t.timestamp)
  /-- The time of its last change. -/
  updated : ∃ t : Instant, doc.get? "_lastUpdatedDateTime" = some (.text t.timestamp)
  /-- The times from and to which it is valid. -/
  validity : ∀ field ∈ validityFields, HasTime field doc

/-- What may be relied on in a stored record. -/
structure Managed (p : Policy) (doc : Document) : Prop extends Labelled p doc where
  /-- It has a name with more than blanks in it, if it needs one. -/
  name : p.family.requiresName = true →
    ∃ name, doc.get? "_name" = some (.text name) ∧ Text.trim name ≠ ""
  /-- Its list fields are arrays of texts, or null. -/
  lists : ∀ field ∈ countedArrays, ∀ v, doc.get? field = some v →
    v = .null ∨ ∃ texts : List String, v = .array (texts.map .text)
  /-- If it says who may read it, this is one of the visibilities that there are. -/
  visibility : p.family.hasAccessFields = true → HasVisibility doc
  /-- If it says who may read it, the numbers of their items are right. -/
  counts : p.family.hasAccessFields = true → ∀ field ∈ countedArrays, ∃ texts : List String,
    (doc.field field = .array (texts.map .text) ∨ doc.field field = .null ∧ texts = []) ∧
      doc.get? (countField field) = some (.int texts.length)

variable {p : Policy} {payload stored body doc doc' : Document} {now : Instant}

/-! ## The end of every writing -/

/-- The fields that `Labelled` is about. -/
def labelFields : List String :=
  ["_id", "_kind", "_version", "_createdDateTime", "_lastUpdatedDateTime"] ++ validityFields

theorem Labelled.congr (h : Labelled p doc)
    (hf : ∀ field ∈ labelFields, doc'.get? field = doc.get? field) : Labelled p doc' where
  id := hf "_id" (by decide) ▸ h.id
  kind := hf "_kind" (by decide) ▸ h.kind
  version := hf "_version" (by decide) ▸ h.version
  created := hf "_createdDateTime" (by decide) ▸ h.created
  updated := hf "_lastUpdatedDateTime" (by decide) ▸ h.updated
  validity field hm := by
    rw [HasTime, hf field (List.mem_append_right _ hm)]
    exact h.validity field hm

/-- The number that is written beside a counted field is that of its items. -/
theorem get?_countField_putCounts (h : putCounts doc = .ok doc') {field : String}
    (hf : field ∈ countedArrays) :
    ∃ n, itemCount (doc.field field) = .ok n ∧ doc'.get? (countField field) = some (.int n) := by
  have apart : ∀ x ∈ countedArrays, ∀ y ∈ countedArrays, x ≠ countField y := by decide
  have injective : ∀ x ∈ countedArrays, ∀ y ∈ countedArrays, y ≠ x →
      countField x ≠ countField y := by decide
  refine Document.get?_foldlM_own (x := field) (P := fun d => d.field field = doc.field field)
    (Q := fun o => ∃ n, itemCount (doc.field field) = .ok n ∧ o = some (.int n))
    (fun d d' hd hs => ?_) (fun y hy hne d d' hs => ?_) (fun y hy d d' hd hs => ?_) rfl (.inl hf) h
  · obtain ⟨n, hn, hs⟩ := bind_eq_ok.1 hs
    cases hs
    exact ⟨n, hd ▸ hn, by rw [Document.get?_put, if_pos rfl]⟩
  · obtain ⟨n, -, hs⟩ := bind_eq_ok.1 hs
    cases hs
    rw [Document.get?_put, if_neg (injective field hf y hy hne)]
  · obtain ⟨n, -, hs⟩ := bind_eq_ok.1 hs
    cases hs
    rw [Document.field, Document.get?_put, if_neg (apart field hf y hy)]
    exact hd

/-- What can be counted is counted. -/
theorem exists_putCounts (h : ∀ field ∈ countedArrays, ∃ n, itemCount (doc.field field) = .ok n) :
    ∃ doc', putCounts doc = .ok doc' := by
  have apart : ∀ x ∈ countedArrays, ∀ y ∈ countedArrays, x ≠ countField y := by decide
  have step : ∀ field ∈ countedArrays, ∀ e : Document,
      (∀ other ∈ countedArrays, e.field other = doc.field other) →
      ∃ e', (do return e.put (countField field) (.int (← itemCount (e.field field))) :
        Except Fault Document) = .ok e' ∧
        ∀ other ∈ countedArrays, e'.field other = doc.field other := fun field hf e same => by
    obtain ⟨n, hn⟩ := h field hf
    refine ⟨e.put (countField field) (.int n), ?_, fun other ho => ?_⟩
    · rw [same field hf, hn]
      rfl
    · rw [Document.field, Document.get?_put, if_neg (apart other ho field hf)]
      exact same other ho
  obtain ⟨doc', hdoc', -⟩ := exists_foldlM step fun _ _ => rfl
  exact ⟨doc', hdoc'⟩

/-- An array of texts has as many items as there are texts. -/
theorem itemCount_texts (texts : List String) :
    itemCount (.array (texts.map .text)) = .ok texts.length := by
  cases texts with
  | nil => rfl
  | cons t texts =>
    change Except.ok ((t :: texts).map Value.text).length = _
    rw [List.length_map]

/-- The numbers of items are right when a writing ends. -/
theorem counts_finish (ha : p.family.hasAccessFields = true) (h : finish p doc = .ok doc')
    {field : String} (hf : field ∈ countedArrays) : ∃ texts : List String,
      (doc'.field field = .array (texts.map .text) ∨ doc'.field field = .null ∧ texts = []) ∧
        doc'.get? (countField field) = some (.int texts.length) := by
  have shape := isTexts_iff.1 (isTexts_of_checkShape (checkShape_finish h) hf)
  have hd : putCounts (putSlug doc) = .ok doc' := by
    obtain ⟨-, ⟨-, hd⟩ | ⟨ha', -⟩⟩ := finish_eq_ok h
    · exact hd
    · exact Bool.noConfusion (ha.symm.trans ha')
  obtain ⟨n, hn, counted⟩ := get?_countField_putCounts hd hf
  have plain : ∀ x ∈ countedArrays, x ∉ countedArrays.map countField := by decide
  have same : doc'.field field = (putSlug doc).field field := by
    rw [Document.field, Document.field, get?_putCounts (plain field hf) hd]
  rw [← same] at hn
  rcases shape with null | ⟨texts, array⟩
  · rw [null] at hn
    cases hn
    exact ⟨[], .inr ⟨null, rfl⟩, counted⟩
  · rw [array, itemCount_texts] at hn
    cases hn
    exact ⟨texts, .inl array, counted⟩

/-- A document of the right shape has a name if it needs one. -/
theorem name_of_checkShape (h : checkShape p doc = .ok ()) (hn : p.family.requiresName = true) :
    ∃ name, doc.get? "_name" = some (.text name) ∧ Text.trim name ≠ "" := by
  rw [checkShape] at h
  dsimp only at h
  split at h
  · cases h
  · next named =>
    rw [hn, Bool.true_and, Bool.not_eq_true, Bool.not_eq_false'] at named
    cases hv : doc.get? "_name" with
    | none =>
      rw [Document.field, hv] at named
      exact Bool.noConfusion named
    | some v =>
      rw [Document.field, hv] at named
      cases v with
      | text name => exact ⟨name, rfl, by simpa [isName, Value.orNull] using named⟩
      | _ => exact Bool.noConfusion named

/-- What is labelled at the end of a writing is managed. -/
theorem managed_finish (h : finish p doc = .ok doc') (hl : Labelled p doc')
    (hv : p.family.hasAccessFields = true → HasVisibility doc') : Managed p doc' where
  toLabelled := hl
  name := name_of_checkShape (checkShape_finish h)
  lists field hf v hv := by
    have texts := isTexts_of_checkShape (checkShape_finish h) hf
    rw [Document.field, hv] at texts
    exact isTexts_iff.1 texts
  visibility := hv
  counts ha field hf := counts_finish ha h hf

/-- The list fields of a managed record have arrays of texts, or null. -/
theorem Managed.isTexts (hm : Managed p doc) :
    ∀ field ∈ countedArrays, Record.isTexts (doc.field field) = true := by
  intro field hf
  cases hv : doc.get? field with
  | none =>
    rw [Document.field, hv]
    rfl
  | some v =>
    rw [Document.field_of_get? hv]
    exact isTexts_iff.2 (hm.lists field hf v hv)

/-! ## Times -/

theorem timestampAt_eq_ok {field : String} {t : Option String}
    (h : timestampAt p field doc = .ok t) :
    t = none ∨ ∃ instant : Instant, t = some instant.timestamp := by
  rw [timestampAt] at h
  split at h
  · cases h
    exact .inl rfl
  · split at h
    · cases h
      exact .inr ⟨_, rfl⟩
    · cases h
    · cases h
  · cases h

theorem isTime_timestampValue {field : String} {t : Option String}
    (h : timestampAt p field doc = .ok t) : IsTime (timestampValue t) := by
  rcases timestampAt_eq_ok h with rfl | ⟨instant, rfl⟩
  · exact .inl rfl
  · exact .inr ⟨instant, rfl⟩

/-- A time that a payload gives, or else the present. -/
theorem exists_timestamp_getD {field : String} {t : Option String}
    (h : timestampAt p field doc = .ok t) (now : Instant) :
    ∃ instant : Instant, t.getD now.timestamp = instant.timestamp := by
  rcases timestampAt_eq_ok h with rfl | ⟨instant, rfl⟩
  · exact ⟨now, rfl⟩
  · exact ⟨instant, rfl⟩

/-- The version after one that is a number from one on. -/
theorem nextVersion_eq {n : Int} (hv : stored.get? "_version" = some (.int n)) (hn : 1 ≤ n) :
    nextVersion stored = .ok (n + 1) := by
  have some : stored.field "_version" = .int n := Document.field_of_get? hv
  have truthy : (Value.int n).truthy = true := by
    simp only [Value.int, Value.truthy, Number.isZero]
    simpa using (by omega : n ≠ 0)
  rw [nextVersion, some, if_pos truthy]
  rfl

/-- A writing raises the version, and says when it was made. -/
theorem labels_putWriting (h : putWriting p stored body now doc = .ok doc') :
    (∃ n, nextVersion stored = .ok n ∧ doc'.get? "_version" = some (.int n)) ∧
      ∃ t : Instant, doc'.get? "_lastUpdatedDateTime" = some (.text t.timestamp) := by
  obtain ⟨n, given, hn, hgiven, rfl⟩ := putWriting_eq_ok h
  obtain ⟨t, ht⟩ := exists_timestamp_getD hgiven now
  refine ⟨⟨n, hn, ?_⟩, t, ?_⟩
  · rw [Document.get?_put, if_neg (by decide), Document.get?_put, if_pos rfl]
  · rw [Document.get?_put, if_pos rfl, ht]

theorem checkVisibility_eq_ok {v v' : Value} (h : checkVisibility p v = .ok v') :
    v' = v ∧ ∃ s ∈ visibilities, v = .text s := by
  cases v with
  | text s =>
    rw [checkVisibility] at h
    split at h
    · next hs =>
      cases h
      exact ⟨rfl, s, by simpa using hs, rfl⟩
    · cases h
  | _ => cases h

/-! ## New records -/

theorem checkKind_eq_ok {v : Value} {kind : String} (h : checkKind p v = .ok kind) :
    slugify kind = kind ∧ p.allowsKind kind = true := by
  cases v with
  | text s =>
    dsimp only [checkKind] at h
    split at h
    · cases h
    · split at h
      · cases h
      · next slug =>
        split at h
        · next allowed =>
          cases h
          exact ⟨Decidable.not_not.1 slug, allowed⟩
        · cases h
  | _ => cases h

/-- A new record says who may read it by one of the visibilities that there are. -/
theorem visibility_putAccess {kind : String} {requester : Requester}
    (h : putAccess p kind requester body doc = .ok doc') : HasVisibility doc' := by
  have others : ∀ field ∈ ["_ownerGroups", "_viewerUsers", "_viewerGroups", "_parents"],
      "_visibility" ≠ field := by decide
  obtain ⟨given, v, hv, rfl⟩ := putAccess_eq_ok h
  obtain ⟨rfl, s, hs, rfl⟩ := checkVisibility_eq_ok hv
  refine ⟨s, hs, ?_⟩
  rw [Document.get?_foldl fun field hf d => Document.get?_fill (others field hf) _ d]
  split
  · rw [Document.get?_put, if_neg (by decide), Document.get?_put, if_pos rfl]
  · rw [Document.get?_put, if_pos rfl]

/-- What is written on a document with an id and a kind makes it a labelled one. -/
theorem labelled_puts {id kind created updated : String} {validFrom validUntil : Value}
    (hid : doc.get? "_id" = some (.text id)) (hkind : doc.get? "_kind" = some (.text kind))
    (slug : slugify kind = kind) (allowed : p.allowsKind kind = true)
    (hcreated : ∃ t : Instant, created = t.timestamp)
    (hupdated : ∃ t : Instant, updated = t.timestamp) (hfrom : IsTime validFrom)
    (huntil : IsTime validUntil) :
    Labelled p (((((doc.put "_version" (.int 1)).put "_createdDateTime" (.text created)).put
      "_lastUpdatedDateTime" (.text updated)).put "_validFromDateTime" validFrom).put
      "_validUntilDateTime" validUntil) where
  id := ⟨id, by simp only [Document.get?_put, String.reduceEq, reduceIte, hid]⟩
  kind := ⟨kind, by simp only [Document.get?_put, String.reduceEq, reduceIte, hkind], slug, allowed⟩
  version := ⟨1, by simp only [Document.get?_put, String.reduceEq, reduceIte], by decide⟩
  created := hcreated.imp fun t ht => by
    simp only [Document.get?_put, String.reduceEq, reduceIte, ht]
  updated := hupdated.imp fun t ht => by
    simp only [Document.get?_put, String.reduceEq, reduceIte, ht]
  validity field hf := by
    rcases List.mem_cons.1 hf with rfl | hf
    · exact ⟨validFrom, by simp only [Document.get?_put, String.reduceEq, reduceIte], hfrom⟩
    · obtain rfl := List.mem_singleton.1 hf
      exact ⟨validUntil, by simp only [Document.get?_put, reduceIte], huntil⟩

/-- A new record is managed, whatever the payload says. -/
theorem managed_create {requester : Requester} {id : String}
    (h : create p payload requester now id = .ok doc) : Managed p doc := by
  obtain ⟨kind, created, updated, given, approved, validUntil, readable, hkind, hcreated, hupdated,
    hgiven, -, huntil, hr, hf⟩ := create_eq_ok h
  obtain ⟨slug, allowed⟩ := checkKind_eq_ok hkind
  have hfrom : IsTime (timestampValue
      (given.or (if approved then some now.timestamp else none))) := by
    rcases timestampAt_eq_ok hgiven with rfl | ⟨t, rfl⟩
    · rw [Option.none_or]
      split
      · exact .inr ⟨now, rfl⟩
      · exact .inl rfl
    · exact .inr ⟨t, rfl⟩
  -- The payload is written over the id and the kind, but says nothing of them.
  have unsaid : "_id" ∉ (newBody payload).keys ∧ "_kind" ∉ (newBody payload).keys := by
    rw [newBody, ← Document.get?_eq_none_iff, ← Document.get?_eq_none_iff, Document.get?_erase,
      Document.get?_erase, if_neg (by decide), if_pos rfl, Document.get?_eq_none_iff]
    exact ⟨Document.not_mem_keys_withoutServerFields (by decide) _, rfl⟩
  have labelled := labelled_puts (p := p)
    (Document.get?_putAll_of_not_mem unsaid.1 [("_id", .text id), ("_kind", .text kind)])
    (Document.get?_putAll_of_not_mem unsaid.2 [("_id", .text id), ("_kind", .text kind)])
    slug allowed (exists_timestamp_getD hcreated now) (exists_timestamp_getD hupdated now) hfrom
    (isTime_timestampValue huntil)
  have plain : ∀ field ∈ labelFields, (field ≠ "_slug" ∧ field ∉ countedArrays.map countField) ∧
      field ≠ "_visibility" ∧ field ∉ countedArrays := by decide
  refine managed_finish hf (labelled.congr fun field hm => ?_) fun ha => ?_
  · obtain ⟨⟨slug, counts⟩, visible, counted⟩ := plain field hm
    rw [get?_finish slug counts hf, get?_ifAccess (get?_putAccess visible counted) hr]
    rfl
  · rw [HasVisibility, get?_finish (by decide) (by decide) hf]
    rcases ifAccess_eq_ok hr with ⟨-, hr⟩ | ⟨closed, -⟩
    · exact visibility_putAccess hr
    · exact Bool.noConfusion (closed.symm.trans ha)

/-- A new record is at its first version. -/
theorem get?_version_create {requester : Requester} {id : String}
    (h : create p payload requester now id = .ok doc) : doc.get? "_version" = some (.int 1) := by
  obtain ⟨kind, created, updated, given, approved, validUntil, readable, -, -, -, -, -, -, hr, hf⟩
    := create_eq_ok h
  rw [get?_finish (by decide) (by decide) hf,
    get?_ifAccess (get?_putAccess (by decide) (by decide)) hr]
  simp only [stamped, Document.get?_put, String.reduceEq, reduceIte]

/-! ## Changes -/

/-- What becomes of the labels of a stored document when it is replaced or updated. -/
structure Relabelled (p : Policy) (stored doc : Document) : Prop where
  /-- The kind stays. -/
  kind : ∀ kind, stored.get? "_kind" = some (.text kind) → doc.get? "_kind" = some (.text kind)
  /-- The time of its creation stays. -/
  created : doc.get? "_createdDateTime" = some (stored.field "_createdDateTime")
  /-- The version is the next one. -/
  version : ∃ n, nextVersion stored = .ok n ∧ doc.get? "_version" = some (.int n)
  /-- The time of its last change is a timestamp. -/
  updated : ∃ t : Instant, doc.get? "_lastUpdatedDateTime" = some (.text t.timestamp)
  /-- Where it had a time from or to which it is valid, it has one. -/
  validity : ∀ field ∈ validityFields, HasTime field stored → HasTime field doc
  /-- If it said who may read it, it says so. -/
  visibility : p.family.hasAccessFields = true → HasVisibility stored → HasVisibility doc
  /-- The derived fields are written at last. -/
  finished : ∃ d, finish p d = .ok doc

/-- The new version of a managed record is managed. -/
theorem Relabelled.managed (hr : Relabelled p stored doc) (hid : doc.get? "_id" = stored.get? "_id")
    (h : Managed p stored) : Managed p doc := by
  obtain ⟨d, hd⟩ := hr.finished
  refine managed_finish hd ?_ fun ha => hr.visibility ha (h.visibility ha)
  obtain ⟨kind, hkind, named⟩ := h.kind
  obtain ⟨n, hversion, hn⟩ := h.version
  obtain ⟨next, hnext, version⟩ := hr.version
  obtain ⟨t, ht⟩ := h.created
  rw [nextVersion_eq hversion hn] at hnext
  cases hnext
  exact {
    id := hid ▸ h.id
    kind := ⟨kind, hr.kind kind hkind, named⟩
    version := ⟨n + 1, version, by omega⟩
    created := ⟨t, by rw [hr.created, Document.field, ht]; rfl⟩
    updated := hr.updated
    validity := fun field hf => hr.validity field hf (h.validity field hf) }

/-- The version is the next one when a document is finished, and it says when that was. -/
theorem labels_finish {readable written : Document}
    (hw : putWriting p stored body now readable = .ok written) (hf : finish p written = .ok doc) :
    (∃ n, nextVersion stored = .ok n ∧ doc.get? "_version" = some (.int n)) ∧
      ∃ t : Instant, doc.get? "_lastUpdatedDateTime" = some (.text t.timestamp) := by
  obtain ⟨⟨n, hn, version⟩, t, updated⟩ := labels_putWriting hw
  refine ⟨⟨n, hn, ?_⟩, t, ?_⟩
  · rw [get?_finish (by decide) (by decide) hf, version]
  · rw [get?_finish (by decide) (by decide) hf, updated]

/-- What has passed the check of its visibility has one. -/
theorem hasVisibility_of_check {v : Value}
    (h : checkVisibility p (doc.field "_visibility") = .ok v) : HasVisibility doc := by
  obtain ⟨-, s, hs, hv⟩ := checkVisibility_eq_ok h
  refine ⟨s, hs, ?_⟩
  cases ho : doc.get? "_visibility" with
  | none =>
    rw [Document.field, ho] at hv
    cases hv
  | some w =>
    rw [Document.field, ho] at hv
    exact congrArg some hv

theorem visibility_keepAccess (h : keepAccess p stored doc = .ok doc') : HasVisibility doc' := by
  obtain ⟨⟨v, hv⟩, -⟩ := keepAccess_eq_ok h
  exact hasVisibility_of_check hv

/-- The step that writes a time writes that of the payload, or else leaves one. -/
theorem hasTime_writeTime {field : String} {d otherwise : Document}
    (h : writeTime p body field d otherwise = .ok doc)
    (ho : body.has field = false → HasTime field otherwise) : HasTime field doc := by
  rcases writeTime_eq_ok h with ⟨-, t, ht, rfl⟩ | ⟨hf, rfl⟩
  · exact ⟨_, by rw [Document.get?_put, if_pos rfl], isTime_timestampValue ht⟩
  · exact ho hf

/-- The kind and the time of its creation are written over the payload when a record is replaced. -/
theorem get?_label_replace {key : String} (hk : key ∈ ["_kind", "_createdDateTime"])
    (h : replace p stored payload now = .ok doc) : doc.get? key = some (stored.field key) := by
  have plain : ∀ key ∈ ["_kind", "_createdDateTime"],
      (key ≠ "_slug" ∧ key ∉ countedArrays.map countField) ∧
        key ∉ ["_version", "_lastUpdatedDateTime"] ++ validityFields ∧
          key ∉ "_visibility" :: countedArrays := by decide
  obtain ⟨⟨slug, counts⟩, stamps, access⟩ := plain key hk
  obtain ⟨id, written, -, finished, started⟩ := exists_started_replace h
  rw [get?_finish slug counts finished, started key stamps access, get?_replaced_label hk]

/-- The times from and to which a replaced record is valid are those of the payload or its own. -/
theorem hasTime_replace (h : replace p stored payload now = .ok doc) {field : String}
    (hm : field ∈ validityFields) (hs : HasTime field stored) : HasTime field doc := by
  have plain : ∀ field ∈ validityFields, (field ≠ "_version" ∧ field ≠ "_lastUpdatedDateTime") ∧
      (field ≠ "_slug" ∧ field ∉ countedArrays.map countField) ∧
        field ∉ "_visibility" :: countedArrays := by decide
  obtain ⟨⟨version, updated⟩, ⟨slug, counts⟩, access⟩ := plain field hm
  obtain ⟨id, timed, readable, written, -, -, ht, ha, hw, hf⟩ := replace_eq_ok h
  have valid : HasTime field timed := by
    obtain ⟨v, hv, time⟩ := hs
    refine Document.get?_foldlM_own (x := field) (P := fun _ => True)
      (Q := fun o => ∃ v, o = some v ∧ IsTime v) (fun d d' _ hd => ?_)
      (fun y _ hne d d' hd => get?_writeTime hd hne.symm ?_)
      (fun _ _ _ _ _ _ => trivial) trivial (.inl hm) ht
    · refine hasTime_writeTime hd fun _ => ⟨v, ?_, time⟩
      rw [Document.get?_put, if_pos rfl, Document.field, hv]
      rfl
    · rw [Document.get?_put, if_neg hne.symm]
  rwa [HasTime, get?_finish slug counts hf, get?_putWriting version updated hw,
    get?_ifAccess (get?_keepAccess access) ha]

/-- A replaced record says who may read it, if its family is to say so. -/
theorem hasVisibility_replace (h : replace p stored payload now = .ok doc)
    (ha : p.family.hasAccessFields = true) : HasVisibility doc := by
  obtain ⟨id, timed, readable, written, -, -, -, hr, hw, hf⟩ := replace_eq_ok h
  rw [HasVisibility, get?_finish (by decide) (by decide) hf,
    get?_putWriting (by decide) (by decide) hw]
  rcases ifAccess_eq_ok hr with ⟨-, kept⟩ | ⟨closed, -⟩
  · exact visibility_keepAccess kept
  · exact Bool.noConfusion (closed.symm.trans ha)

theorem relabelled_replace (h : replace p stored payload now = .ok doc) :
    Relabelled p stored doc := by
  obtain ⟨id, timed, readable, written, -, -, -, -, hw, hf⟩ := replace_eq_ok h
  obtain ⟨version, updated⟩ := labels_finish hw hf
  exact {
    kind := fun kind hk => by rw [get?_label_replace (by decide) h, Document.field_of_get? hk]
    created := get?_label_replace (by decide) h
    version := version
    updated := updated
    validity := fun _ hm hs => hasTime_replace h hm hs
    visibility := fun ha _ => hasVisibility_replace h ha
    finished := ⟨written, hf⟩ }

/-- A payload for a stored record says of the kind what the record has, or nothing. -/
theorem get?_kind_of_checkUnchanged (h : checkUnchanged p stored payload = .ok ()) {v : Value}
    (hv : payload.get? "_kind" = some v) : v.same (stored.field "_kind") = true := by
  rw [checkUnchanged] at h
  split at h
  · cases h
  · next same =>
    dsimp only at same
    rw [hv] at same
    simpa using same

/-- What an updated record has is what the payload says, or else what it had, but for the version,
    the times and what is derived. -/
theorem get?_update_over {key : String} (hk : key ∉ stampedFields) (hs : key ≠ "_slug")
    (hc : key ∉ countedArrays.map countField) (hp : payload.Distinct)
    (h : update p stored payload now = .ok doc) :
    doc.get? key = (payload.withoutServerFields.get? key).or (stored.get? key) := by
  obtain ⟨written, finished, merged⟩ := exists_merged_update h
  rw [get?_finish hs hc finished, merged key hk, Document.get?_putAll hp.withoutServerFields]

/-- An update writes no other kind. -/
theorem get?_kind_update (hd : payload.Distinct) (h : update p stored payload now = .ok doc)
    {kind : String} (hk : stored.get? "_kind" = some (.text kind)) :
    doc.get? "_kind" = some (.text kind) := by
  rw [get?_update_over (by decide) (by decide) (by decide) hd h,
    Document.get?_withoutServerFields (by decide), hk]
  cases hv : payload.get? "_kind" with
  | none => rfl
  | some v =>
    obtain ⟨_, _, unchanged, -⟩ := update_eq_ok h
    have same := get?_kind_of_checkUnchanged unchanged hv
    rw [Document.field, hk] at same
    rw [Option.some_or, Value.same_text.1 same]

/-- An update writes no other time of creation. -/
theorem get?_created_update (h : update p stored payload now = .ok doc) :
    doc.get? "_createdDateTime" = some (stored.field "_createdDateTime") := by
  obtain ⟨timed, written, -, -, -, hw, hf⟩ := update_eq_ok h
  rw [get?_finish (by decide) (by decide) hf, get?_putWriting (by decide) (by decide) hw,
    Document.get?_put, if_pos rfl]

/-- The times from and to which an updated record is valid are those of the payload or its own. -/
theorem hasTime_update (hd : payload.Distinct) (h : update p stored payload now = .ok doc)
    {field : String} (hm : field ∈ validityFields) (hs : HasTime field stored) :
    HasTime field doc := by
  have plain : ∀ field ∈ validityFields,
      (field ≠ "_version" ∧ field ≠ "_lastUpdatedDateTime" ∧ field ≠ "_createdDateTime") ∧
        field ≠ "_slug" ∧ field ∉ countedArrays.map countField := by decide
  obtain ⟨⟨version, updated, created⟩, slug, counts⟩ := plain field hm
  obtain ⟨timed, written, -, ht, -, hw, hf⟩ := update_eq_ok h
  rw [HasTime, get?_finish slug counts hf, get?_putWriting version updated hw, Document.get?_put,
    if_neg created]
  -- Until its turn comes, a time that the payload does not have is that of the record.
  refine Document.get?_foldlM_own (x := field)
    (P := fun d => payload.withoutServerFields.has field = false → HasTime field d)
    (Q := fun o => ∃ v, o = some v ∧ IsTime v)
    (fun d d' hp hd => hasTime_writeTime hd hp)
    (fun y _ hne d d' hd => get?_writeTime hd hne.symm rfl) (fun y _ d d' hp hd hno => ?_)
    (fun hno => ?_) (.inl hm) ht
  · by_cases hy : field = y
    · subst hy
      exact hasTime_writeTime hd hp
    · rw [HasTime, get?_writeTime hd hy rfl]
      exact hp hno
  · rw [Document.has, Option.isSome_eq_false_iff, Option.isNone_iff_eq_none] at hno
    rw [HasTime, Document.get?_putAll hd.withoutServerFields, hno, Option.none_or]
    exact hs

/-- An updated record says who may read it, if it did: what the payload says is checked. -/
theorem hasVisibility_update (hd : payload.Distinct) (h : update p stored payload now = .ok doc)
    (ha : p.family.hasAccessFields = true) (hs : HasVisibility stored) : HasVisibility doc := by
  cases said : payload.withoutServerFields.has "_visibility" with
  | true =>
    obtain ⟨timed, written, -, -, hv, hw, hf⟩ := update_eq_ok h
    obtain ⟨v, checked⟩ := hv ha said
    rw [HasVisibility, get?_finish (by decide) (by decide) hf,
      get?_putWriting (by decide) (by decide) hw]
    exact hasVisibility_of_check checked
  | false =>
    rw [Document.has, Option.isSome_eq_false_iff, Option.isNone_iff_eq_none] at said
    rw [HasVisibility, get?_update_over (by decide) (by decide) (by decide) hd h, said,
      Option.none_or]
    exact hs

theorem relabelled_update (hdistinct : payload.Distinct)
    (h : update p stored payload now = .ok doc) : Relabelled p stored doc := by
  obtain ⟨timed, written, -, -, -, hw, hf⟩ := update_eq_ok h
  obtain ⟨version, updated⟩ := labels_finish hw hf
  exact {
    kind := fun _ hk => get?_kind_update hdistinct h hk
    created := get?_created_update h
    version := version
    updated := updated
    validity := fun _ hm hs => hasTime_update hdistinct h hm hs
    visibility := hasVisibility_update hdistinct h
    finished := ⟨written, hf⟩ }

/-- The document that takes the place of a managed record is managed. -/
theorem managed_replace (hm : Managed p stored) (h : replace p stored payload now = .ok doc) :
    Managed p doc :=
  (relabelled_replace h).managed (get?_id_replace h) hm

/-- A managed record that is updated is managed. -/
theorem managed_update (hd : payload.Distinct) (hm : Managed p stored)
    (h : update p stored payload now = .ok doc) : Managed p doc :=
  (relabelled_update hd h).managed (get?_id_update h) hm

end Record

end Catalog
