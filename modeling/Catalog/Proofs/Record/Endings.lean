import Catalog.Policy.Reading
import Catalog.Proofs.Record.Settled

/-!
# How writing a record ends

Whatever an object says as a payload, writing it as a record gives a document or a refusal with the
status 422, but for one fault: the items of the lists are counted before it is checked that they are
lists, and a number or a truth value has none. So a payload with such a value in place of a list
ends in a fault where nothing else was refused before (`Record.prepare_ends`).

Times outside the calendar are left out here: reading them is a fault of its own.
-/

namespace Catalog

/-- Whether a refusal is about the shape of a document, which is checked at last. -/
def Refusal.ofShape : Refusal → Bool
  | .nameMissing _ | .notTexts _ _ => true
  | _ => false

namespace Record

variable {p : Policy} {payload stored body doc d : Document} {now : Instant} {field : String}
  {α : Type}

/-- The ways to write a record. -/
inductive Writing where
  /-- As a new one. -/
  | create (requester : Requester) (id : String)
  /-- In the place of a stored one. -/
  | replace (stored : Document)
  /-- Over a stored one. -/
  | update (stored : Document)

namespace Writing

/-- What is to be stored when a payload is written. -/
def prepare (p : Policy) (payload : Document) (now : Instant) : Writing → Outcome Document
  | .create requester id => Record.create p payload requester now id
  | .replace stored => Record.replace p stored payload now
  | .update stored => Record.update p stored payload now

/-- The stored record, if there is one, was written by the catalogue. -/
def Stands (f : Family) : Writing → Prop
  | .create _ _ => True
  | .replace stored => Produced f stored
  | .update stored => Produced f stored

end Writing

/-- The times of a payload, as far as they are timestamps, lie in the calendar. -/
def InCalendar (payload : Document) : Prop := ∀ field ∈ instantFields, ∀ s,
  payload.get? field = some (.text s) → Timestamp.read s false ≠ .outOfRange

/-- The items of a value can be counted: it is nothing, or a collection. -/
def Countable (v : Value) : Prop := v.truthy = true → v.elements?.isSome = true

theorem countable_null : Countable .null := fun h => by cases h

/-- What a payload says in place of lists can be counted, if that is done. -/
def CountableLists (f : Family) (payload : Document) : Prop :=
  f.hasAccessFields = true → ∀ field ∈ countedArrays, Countable (payload.field field)

/-! ## Checks -/

/-- A step gives a value, or refuses with the status 422 for another reason than the shape. -/
def Passes (P : α → Prop) (x : Outcome α) : Prop :=
  Ends P (fun r => r.status = 422 ∧ r.ofShape = false) (fun _ => False) x

theorem passes_ok {P : α → Prop} {a : α} (h : P a) : Passes P (.ok a) := h

theorem passes_refuse {P : α → Prop} {r : Refusal} (hs : r.status = 422)
    (ho : r.ofShape = false) : Passes P (refuse r) := ⟨hs, ho⟩

theorem passes_checkKind (v : Value) : Passes (fun _ => True) (checkKind p v) := by
  cases v with
  | text kind =>
    dsimp only [checkKind]
    generalize slugify kind = slug
    split
    · exact passes_refuse rfl rfl
    · split
      · exact passes_refuse rfl rfl
      · split
        · exact passes_ok trivial
        · exact passes_refuse rfl rfl
  | _ => exact passes_refuse rfl rfl

theorem passes_checkVisibility (v : Value) : Passes (fun _ => True) (checkVisibility p v) := by
  cases v with
  | text s =>
    rw [checkVisibility]
    split
    · exact passes_ok trivial
    · exact passes_refuse rfl rfl
  | _ => exact passes_refuse rfl rfl

theorem passes_checkUnchanged (stored payload : Document) :
    Passes (fun _ => True) (checkUnchanged p stored payload) := by
  rw [checkUnchanged_eq]
  split
  · exact passes_refuse rfl rfl
  · split
    · exact passes_refuse rfl rfl
    · exact passes_ok trivial

theorem passes_timestampAt
    (h : ∀ s, body.get? field = some (.text s) → Timestamp.read s false ≠ .outOfRange) :
    Passes (fun _ => True) (timestampAt p field body) := by
  rw [timestampAt]
  split
  · exact passes_ok trivial
  · next s hs =>
    split
    · exact passes_ok trivial
    · next outside => exact absurd outside (h s (Document.get?_of_field hs))
    · exact passes_refuse rfl rfl
  · exact passes_refuse rfl rfl

theorem passes_writeTime
    (h : ∀ s, body.get? field = some (.text s) → Timestamp.read s false ≠ .outOfRange)
    (doc otherwise : Document) : Passes (fun _ => True) (writeTime p body field doc otherwise) := by
  rw [writeTime]
  split
  · exact (passes_timestampAt h).bind fun _ _ _ => trivial
  · exact trivial

theorem passes_putAccess (kind : String) (requester : Requester) (body doc : Document) :
    Passes (fun _ => True) (putAccess p kind requester body doc) := by
  have checked (v : Value) : Passes (fun _ => True) (checkVisibility p v >>= fun v =>
      pure (["_ownerGroups", "_viewerUsers", "_viewerGroups", "_parents"].foldl
        (fun d field => if d.lacks field then d.put field (.array []) else d)
        (if body.lacks "_ownerUsers" then
          (doc.put "_visibility" v).put "_ownerUsers" (.array (requester.user.toList.map .text))
        else doc.put "_visibility" v))) :=
    (passes_checkVisibility v).bind fun _ _ _ => trivial
  dsimp only [putAccess]
  split
  · exact checked _
  · exact checked _

theorem passes_keepAccess (stored doc : Document) :
    Passes (fun _ => True) (keepAccess p stored doc) := by
  dsimp only [keepAccess]
  exact (passes_checkVisibility _).bind fun _ _ _ => trivial

theorem passes_ifAccess {step : Document → Outcome Document}
    (h : Passes (fun _ => True) (step doc)) : Passes (fun _ => True) (ifAccess p step doc) := by
  rw [ifAccess]
  split
  · exact h
  · exact trivial

theorem passes_putWriting (hm : Managed p stored)
    (h : ∀ s, body.get? "_lastUpdatedDateTime" = some (.text s) →
      Timestamp.read s false ≠ .outOfRange) (now : Instant) (doc : Document) :
    Passes (fun _ => True) (putWriting p stored body now doc) := by
  obtain ⟨n, version, one⟩ := hm.version
  rw [putWriting, nextVersion_eq version one]
  exact (passes_timestampAt h).bind fun _ _ _ => trivial

/-! ## Counting and the shape -/

/-- The lists of a document are those of a payload, or lists where this has none. -/
def ListsFrom (payload d : Document) : Prop := ∀ field ∈ countedArrays,
  d.field field = payload.field field ∨
    payload.field field = .null ∧ isTexts (d.field field) = true

/-- The items of a list can be counted. -/
theorem countable_of_isTexts {v : Value} (h : isTexts v = true) : Countable v := by
  rcases isTexts_iff.1 h with rfl | ⟨texts, rfl⟩
  · exact fun h => Bool.noConfusion h
  · exact fun _ => rfl

theorem ListsFrom.countable (h : ListsFrom payload d) (hf : field ∈ countedArrays) :
    Countable (d.field field) ↔ Countable (payload.field field) := by
  rcases h field hf with same | ⟨null, texts⟩
  · rw [same]
  · rw [null]
    exact iff_of_true (countable_of_isTexts texts) fun h => Bool.noConfusion h

theorem itemCount_of_countable {v : Value} (h : Countable v) : ∃ n, itemCount v = .ok n := by
  rw [itemCount]
  split
  · next truthy =>
    obtain ⟨items, hitems⟩ := Option.isSome_iff_exists.1 (h truthy)
    exact ⟨items.length, by rw [hitems]; rfl⟩
  · exact ⟨0, rfl⟩

theorem countable_of_itemCount {v : Value} {n : Nat} (h : itemCount v = .ok n) : Countable v := by
  intro truthy
  rw [itemCount, if_pos truthy] at h
  obtain ⟨items, hitems, -⟩ := bind_eq_ok.1 h
  rw [orFault_eq_ok.1 hitems]
  rfl

/-- Counting meets the fault that something has no items, if anything. -/
theorem putCounts_eq_error {f : Fault} (h : putCounts d = .error f) : f = .shape := by
  obtain ⟨field, -, e, he⟩ := foldlM_eq_error h
  rw [itemCount] at he
  split at he
  · cases hv : (e.field field).elements? with
    | none =>
      rw [hv] at he
      cases he
      rfl
    | some items =>
      rw [hv] at he
      cases he
  · cases he

/-- Lists are counted, if all of them can be. -/
theorem ends_counts (hl : ListsFrom payload d) :
    Ends (fun _ => CountableLists p.family payload) (fun _ => False)
      (fun f => f = .shape ∧ ¬CountableLists p.family payload)
      (ifAccess p (fun d => putCounts d) d) := by
  rw [ifAccess]
  split
  · next ha =>
    cases h : putCounts d with
    | ok d' =>
      intro _ field hf
      obtain ⟨n, hn, -⟩ := get?_countField_putCounts h hf
      exact (hl.countable hf).1 (countable_of_itemCount hn)
    | error f =>
      refine ⟨putCounts_eq_error h, fun countable => ?_⟩
      obtain ⟨d', hd'⟩ := exists_putCounts fun field hf =>
        itemCount_of_countable ((hl.countable hf).2 (countable ha field hf))
      cases h.symm.trans hd'
  · next ha => exact fun ha' => absurd ha' ha

theorem ends_checkShape (doc : Document) :
    Ends (fun _ => True) (fun r => r.status = 422) (fun _ => False) (checkShape p doc) := by
  rw [checkShape]
  split
  · exact (rfl : (422 : Nat) = 422)
  · split
    · exact (rfl : (422 : Nat) = 422)
    · trivial

/-- Whether the lists can be counted decides whether the shape is looked at. -/
theorem ends_finish (hl : ListsFrom payload d) :
    Ends (fun _ => CountableLists p.family payload)
      (fun r => r.status = 422 ∧ (r.ofShape = true → CountableLists p.family payload))
      (fun f => f = .shape ∧ ¬CountableLists p.family payload) (finish p d) := by
  have slugged : ListsFrom payload (putSlug d) := by
    have plain : ∀ field ∈ countedArrays, field ≠ "_slug" := by decide
    intro field hf
    rw [Document.field, get?_putSlug (plain field hf)]
    exact hl field hf
  rw [finish_eq]
  refine Ends.bind ((ends_counts slugged).mono (fun _ h => h) (fun _ h => h.elim) fun _ h => h)
    fun counted _ countable => ?_
  exact Ends.bind
    ((ends_checkShape counted).mono (fun _ h => h) (fun _ h => ⟨h, fun _ => countable⟩)
      fun _ h => h.elim)
    fun _ _ _ => countable

/-! ## Where the lists come from -/

theorem field_eq_null_of_lacks {key : String} (h : doc.lacks key = true) :
    doc.field key = .null := by
  rw [Document.lacks] at h
  split at h
  · assumption
  · cases h

/-- Fields that are filled in one after the other have what they had, or what they are filled in
    with if that was nothing. -/
theorem field_fillAll (fields : List String) (v : String → Value) (key : String) (doc : Document) :
    let filled := fields.foldl
      (fun d field => if d.lacks field then d.put field (v field) else d) doc
    filled.field key = doc.field key ∨ doc.field key = .null ∧ filled.field key = v key := by
  induction fields generalizing doc with
  | nil => exact .inl rfl
  | cons field fields ih =>
    rw [List.foldl_cons]
    by_cases hk : key = field ∧ doc.lacks field = true
    · obtain ⟨rfl, lacking⟩ := hk
      have put : (doc.put key (v key)).field key = v key := by
        rw [Document.field, Document.get?_put, if_pos rfl]
        rfl
      rw [if_pos lacking]
      refine .inr ⟨field_eq_null_of_lacks lacking, ?_⟩
      rcases ih (doc.put key (v key)) with had | ⟨-, filled⟩
      · exact had.trans put
      · exact filled
    · have kept : (if doc.lacks field then doc.put field (v field) else doc).field key =
          doc.field key := by
        split
        · next lacking =>
          rw [Document.field, Document.get?_put, if_neg fun e => hk ⟨e, lacking⟩]
          rfl
        · rfl
      have rest := ih (if doc.lacks field then doc.put field (v field) else doc)
      rwa [kept] at rest

theorem counted_plain : ∀ field ∈ countedArrays,
    (field ≠ "_id" ∧ field ≠ "_kind" ∧ field ≠ "_createdDateTime" ∧ field ∉ serverFields) ∧
      (field ≠ "_version" ∧ field ≠ "_lastUpdatedDateTime" ∧ field ≠ "_visibility") ∧
      field ∉ validityFields := by decide

/-- An array of texts that fills in a list that the payload does not have. -/
theorem ListsFrom.fillAll (h : ListsFrom payload d) (fields : List String) (v : String → Value)
    (hv : ∀ field ∈ countedArrays, isTexts (v field) = true) :
    ListsFrom payload (fields.foldl
      (fun d field => if d.lacks field then d.put field (v field) else d) d) := by
  intro field hf
  rcases field_fillAll fields v field d with had | ⟨null, filled⟩
  · rw [had]
    exact h field hf
  · rcases h field hf with same | ⟨hnull, -⟩
    · exact .inr ⟨same.symm.trans null, filled ▸ hv field hf⟩
    · exact .inr ⟨hnull, filled ▸ hv field hf⟩

/-- Writing a field that is no list. -/
theorem ListsFrom.put (h : ListsFrom payload d) {key : String} (hk : key ∉ countedArrays)
    (v : Value) : ListsFrom payload (d.put key v) := by
  intro field hf
  have hne : field ≠ key := by
    rintro rfl
    exact hk hf
  rw [Document.field, Document.get?_put, if_neg hne]
  exact h field hf

/-- Writing an array of texts for a list that the payload does not have. -/
theorem ListsFrom.put_list (h : ListsFrom payload d) {key : String}
    (hnull : payload.field key = .null) {v : Value} (hv : isTexts v = true) :
    ListsFrom payload (d.put key v) := by
  intro field hf
  by_cases hk : field = key
  · subst hk
    rw [Document.field, Document.get?_put, if_pos rfl]
    exact .inr ⟨hnull, hv⟩
  · rw [Document.field, Document.get?_put, if_neg hk]
    exact h field hf

/-- Over an id and a kind the members of a payload are what it says. -/
theorem listsFrom_started {news : Document} (hn : news.Distinct)
    (hnews : ∀ field ∈ countedArrays, news.get? field = payload.get? field) (id kind : Value) :
    ListsFrom payload (Document.putAll [("_id", id), ("_kind", kind)] news) := by
  intro field hf
  obtain ⟨⟨hid, hkind, -⟩, -⟩ := counted_plain field hf
  rw [Document.field, Document.get?_putAll hn, hnews field hf, Document.get?, if_neg hid.symm,
    Document.get?, if_neg hkind.symm, Document.get?, Option.or_none]
  exact .inl rfl

/-- The owner of a new record is written where the payload names none, and the lists that it does
    not have are filled in. -/
theorem ListsFrom.putAccess {requester : Requester} {kind : String} {body : Document}
    (h : ListsFrom payload d) (hbody : body.get? "_ownerUsers" = payload.get? "_ownerUsers")
    (hd : Record.putAccess p kind requester body d = .ok doc) : ListsFrom payload doc := by
  obtain ⟨given, v, -, made⟩ := putAccess_eq_ok hd
  have visible := h.put (by decide : "_visibility" ∉ countedArrays) v
  rw [made]
  refine ListsFrom.fillAll ?_ _ _ fun _ _ => rfl
  split
  · next lacking =>
    have null := field_eq_null_of_lacks lacking
    rw [Document.field, hbody] at null
    exact visible.put_list null (isTexts_iff.2 (.inr ⟨_, rfl⟩))
  · exact visible

theorem listsFrom_create {requester : Requester} {id kind : String}
    {created updated validFrom validUntil : Option String} (hp : payload.Distinct)
    (h : ifAccess p (putAccess p kind requester (newBody payload))
      (stamped now id kind (newBody payload) created updated validFrom validUntil) = .ok doc) :
    ListsFrom payload doc := by
  have body : ∀ field ∈ countedArrays, (newBody payload).get? field = payload.get? field :=
    fun field hf => by
      obtain ⟨⟨-, hkind, -, hserver⟩, -⟩ := counted_plain field hf
      rw [newBody, Document.get?_erase, if_neg hkind, Document.get?_withoutServerFields hserver]
  have started := listsFrom_started (hp.withoutServerFields.erase "_kind") body (.text id)
    (.text kind)
  have stamped : ListsFrom payload
      (stamped now id kind (newBody payload) created updated validFrom validUntil) :=
    ((((started.put (by decide) _).put (by decide) _).put (by decide) _).put (by decide) _).put
      (by decide) _
  rcases ifAccess_eq_ok h with ⟨-, access⟩ | ⟨-, same⟩
  · exact stamped.putAccess (body "_ownerUsers" (by decide)) access
  · rw [same]
    exact stamped

/-- The times of its validity are no lists. -/
theorem listsFrom_timed (otherwise : String → Document → Document)
    (ho : ∀ field ∈ validityFields, ∀ d, ListsFrom payload d →
      ListsFrom payload (otherwise field d))
    (hd : ListsFrom payload d) (h : ["_validFromDateTime", "_validUntilDateTime"].foldlM
      (fun d field => writeTime p body field d (otherwise field d)) d = .ok doc) :
    ListsFrom payload doc := by
  have plain : ∀ field ∈ validityFields, field ∉ countedArrays := by decide
  refine foldlM_keeps (fun field hf d d' hd hs => ?_) hd h
  rcases writeTime_eq_ok hs with ⟨-, t, -, rfl⟩ | ⟨-, rfl⟩
  · exact hd.put (plain field hf) _
  · exact ho field hf d hd

theorem listsFrom_putWriting (hd : ListsFrom payload d)
    (h : putWriting p stored body now d = .ok doc) : ListsFrom payload doc := by
  obtain ⟨n, t, -, -, rfl⟩ := putWriting_eq_ok h
  exact (hd.put (by decide) _).put (by decide) _

theorem listsFrom_replaced (hp : payload.Distinct) (id : Value) :
    ListsFrom payload (replaced p stored payload id) := by
  have started := listsFrom_started hp.withoutServerFields
    (fun field hf => Document.get?_withoutServerFields (counted_plain field hf).1.2.2.2 payload)
    id (stored.field "_kind")
  have references : ∀ r ∈ p.family.references, r.1 ∉ countedArrays := fun r hr hc =>
    not_mem_managedFields hr (List.mem_append_left _ (List.mem_append_right _ hc))
  refine List.foldlRecOn (motive := ListsFrom payload) _ _
    ((started.put (by decide) _).put (by decide) _) fun d hd r hr => ?_
  dsimp only
  split
  · exact hd.put (references r hr) _
  · exact hd

theorem listsFrom_keepAccess (hm : Managed p stored) (hd : ListsFrom payload d)
    (h : ifAccess p (keepAccess p stored) d = .ok doc) : ListsFrom payload doc := by
  rcases ifAccess_eq_ok h with ⟨-, h⟩ | ⟨-, rfl⟩
  · rw [(keepAccess_eq_ok h).2]
    exact hd.fillAll _ _ hm.isTexts
  · exact hd

/-- Over a managed record the lists of a payload take the place of its own. -/
theorem listsFrom_putAll (hm : Managed p stored) (hp : payload.Distinct) :
    ListsFrom payload (stored.putAll payload.withoutServerFields) := by
  intro field hf
  rw [Document.field, Document.get?_putAll hp.withoutServerFields,
    Document.get?_withoutServerFields (counted_plain field hf).1.2.2.2, Document.field]
  cases payload.get? field with
  | none => exact .inr ⟨rfl, hm.isTexts field hf⟩
  | some v => exact .inl rfl

/-! ## Whole writings -/

/-- How a writing ends, as far as the lists of its payload decide it. -/
abbrev EndsByLists (f : Family) (payload : Document) (x : Outcome Document) : Prop :=
  Ends (fun _ => CountableLists f payload)
    (fun r => r.status = 422 ∧ (r.ofShape = true → CountableLists f payload))
    (fun fault => fault = .shape ∧ ¬CountableLists f payload) x

/-- A check, and what follows it. -/
theorem Passes.then {f : Family} {x : Outcome α} {k : α → Outcome Document}
    (hx : Passes (fun _ => True) x) (hk : ∀ a, x = .ok a → EndsByLists f payload (k a)) :
    EndsByLists f payload (x >>= k) :=
  Ends.bind (Ends.mono hx (fun _ h => h)
    (fun _ h => ⟨h.1, fun shape => Bool.noConfusion (h.2.symm.trans shape)⟩) fun _ h => h.elim)
    fun a ha _ => hk a ha

theorem InCalendar.of_body {body : Document} (h : InCalendar payload)
    (hb : ∀ field ∈ instantFields, body.get? field = payload.get? field) : InCalendar body :=
  fun field hf s hs => h field hf s ((hb field hf).symm.trans hs)

/-- A payload without times lies in the calendar. -/
theorem inCalendar_of_timeless (h : ∀ field ∈ instantFields, payload.get? field = none) :
    InCalendar payload := by
  intro field hf s hs
  cases (h field hf).symm.trans hs

theorem instant_plain : ∀ field ∈ instantFields, field ≠ "_kind" ∧ field ∉ serverFields := by
  decide

theorem inCalendar_withoutServerFields (h : InCalendar payload) :
    InCalendar payload.withoutServerFields :=
  h.of_body fun field hf => Document.get?_withoutServerFields (instant_plain field hf).2 payload

theorem inCalendar_newBody (h : InCalendar payload) : InCalendar (newBody payload) :=
  h.of_body fun field hf => by
    rw [newBody, Document.get?_erase, if_neg (instant_plain field hf).1,
      Document.get?_withoutServerFields (instant_plain field hf).2]

theorem exists_get_text {s : KindScoped α} (kind : String) : ∃ v, s.get (.text kind) = .ok v :=
  ⟨_, rfl⟩

theorem ends_create (hp : payload.Distinct) (hc : InCalendar payload) (requester : Requester)
    (id : String) : EndsByLists p.family payload (create p payload requester now id) := by
  have inside := inCalendar_newBody hc
  rw [create_eq]
  refine (passes_checkKind _).then fun kind _ => ?_
  refine (passes_timestampAt (inside _ (by decide))).then fun created _ => ?_
  refine (passes_timestampAt (inside _ (by decide))).then fun updated _ => ?_
  refine (passes_timestampAt (inside _ (by decide))).then fun given _ => ?_
  obtain ⟨approved, happroved⟩ := exists_get_text (s := p.autoapprove) kind
  rw [happroved, lift_ok, ok_bind]
  refine (passes_timestampAt (inside _ (by decide))).then fun validUntil _ => ?_
  refine (passes_ifAccess (passes_putAccess _ _ _ _)).then fun readable hr => ?_
  exact ends_finish (listsFrom_create hp hr)

/-- A payload that is neither made a record nor refused meets the fault. -/
theorem create_broken (hp : payload.Distinct) (hc : InCalendar payload) {requester : Requester}
    {id : String} (unmade : (create p payload requester now id).toOption.isNone = true)
    (unrefused : (refusal? (create p payload requester now id)).isNone = true) :
    create p payload requester now id = .error (.broken .shape) := by
  have ends : EndsByLists p.family payload (create p payload requester now id) :=
    ends_create hp hc requester id
  generalize create p payload requester now id = x at unmade unrefused ends
  rcases x with (r | f) | doc
  · cases unrefused
  · rw [ends.1]
  · cases unmade

theorem ends_replace (hp : payload.Distinct) (hc : InCalendar payload) (hm : Managed p stored) :
    EndsByLists p.family payload (replace p stored payload now) := by
  have inside := inCalendar_withoutServerFields hc
  obtain ⟨id, hid⟩ := hm.id
  rw [replace_eq]
  refine (passes_checkUnchanged _ _).then fun _ _ => ?_
  rw [hid, orFault, lift_ok, ok_bind]
  refine Passes.then ?_ fun timed ht => ?_
  · refine Ends.foldlM (fun field hf d _ => ?_) trivial
    exact passes_writeTime (inside field (List.mem_append_right _ hf)) _ _
  refine (passes_ifAccess (passes_keepAccess _ _)).then fun readable hr => ?_
  refine (passes_putWriting hm (inside _ (by decide)) now readable).then fun written hw => ?_
  have plain : ∀ field ∈ validityFields, field ∉ countedArrays := by decide
  have lists := listsFrom_timed (fun field d => d.put field (stored.field field))
    (fun field hf d hd => hd.put (plain field hf) _) (listsFrom_replaced hp _) ht
  exact ends_finish (listsFrom_putWriting (listsFrom_keepAccess hm lists hr) hw)

theorem ends_update (hp : payload.Distinct) (hc : InCalendar payload) (hm : Managed p stored) :
    EndsByLists p.family payload (update p stored payload now) := by
  have inside := inCalendar_withoutServerFields hc
  rw [update_eq]
  refine (passes_checkUnchanged _ _).then fun _ _ => ?_
  refine Passes.then ?_ fun timed ht => ?_
  · refine Ends.foldlM (fun field hf d _ => ?_) trivial
    exact passes_writeTime (inside field (List.mem_append_right _ hf)) _ _
  have lists := listsFrom_timed (fun _ d => d) (fun _ _ _ hd => hd)
    (listsFrom_putAll hm hp) ht
  have lists := lists.put (by decide : "_createdDateTime" ∉ countedArrays)
    (stored.field "_createdDateTime")
  have rest : EndsByLists p.family payload (putWriting p stored payload.withoutServerFields now
      (timed.put "_createdDateTime" (stored.field "_createdDateTime")) >>= finish p) :=
    (passes_putWriting hm (inside _ (by decide)) now _).then fun written hw =>
      ends_finish (listsFrom_putWriting lists hw)
  split
  · exact (passes_checkVisibility _).then fun _ _ => rest
  · exact rest

/-- Writing a payload gives a document or is refused with the status 422, if what it says in place
    of lists can be counted. If not, it is refused for another reason than its shape, or meets the
    fault that a number or a truth value has no items. -/
theorem prepare_ends (w : Writing) (hw : w.Stands p.family)
    (hp : (Value.object payload).WellKeyed) (hc : InCalendar payload) (now : Instant) :
    (CountableLists p.family payload →
      (∃ doc, w.prepare p payload now = .ok doc) ∨
        ∃ r, w.prepare p payload now = .error (.refused r) ∧ r.status = 422) ∧
    (¬CountableLists p.family payload →
      w.prepare p payload now = .error (.broken .shape) ∨
        ∃ r, w.prepare p payload now = .error (.refused r) ∧ r.status = 422 ∧
          r.ofShape = false) := by
  have ends : EndsByLists p.family payload (w.prepare p payload now) := by
    cases w with
    | create requester id => exact ends_create hp.distinct hc requester id
    | replace stored =>
      have replaced : EndsByLists p.family payload (replace (anyKind p) stored payload now) :=
        ends_replace (p := anyKind p) hp.distinct hc (Produced.managed_anyKind hw)
      rwa [replace_of_family (p := anyKind p) (q := p) rfl] at replaced
    | update stored =>
      have updated : EndsByLists p.family payload (update (anyKind p) stored payload now) :=
        ends_update (p := anyKind p) hp.distinct hc (Produced.managed_anyKind hw)
      rwa [update_of_family (p := anyKind p) (q := p) rfl] at updated
  generalize w.prepare p payload now = x at ends
  rcases x with (r | f) | doc
  · refine ⟨fun _ => .inr ⟨r, rfl, ends.1⟩, fun uncountable => .inr ⟨r, rfl, ends.1, ?_⟩⟩
    exact eq_false_of_ne_true fun shape => uncountable (ends.2 shape)
  · obtain ⟨rfl, uncountable⟩ := ends
    exact ⟨fun countable => absurd countable uncountable, fun _ => .inl rfl⟩
  · exact ⟨fun _ => .inl ⟨doc, rfl⟩, fun uncountable => absurd ends uncountable⟩

/-- A text in place of the owners can be counted, and is refused. -/
theorem prepare_ends_ownersText :
    ∃ r, create (Policy.standard .entities) [("_name", .text "A"), ("_ownerUsers", .text "u")] {}
      .first "e" = .error (.refused r) ∧ r.status = 422 := by
  have keyed : (Value.object [("_name", .text "A"), ("_ownerUsers", .text "u")]).WellKeyed :=
    .object (by decide) (List.forall_mem_cons.2 ⟨.text "A", List.forall_mem_singleton.2 (.text _)⟩)
  have inside : InCalendar [("_name", .text "A"), ("_ownerUsers", .text "u")] := by
    refine inCalendar_of_timeless ?_
    simp only [instantFields, validityFields, List.cons_append, List.nil_append,
      List.forall_mem_cons]
    exact ⟨rfl, rfl, rfl, rfl, List.forall_mem_nil _⟩
  have countable : CountableLists .entities [("_name", .text "A"), ("_ownerUsers", .text "u")] := by
    intro _
    simp only [countedArrays, accessArrays, List.cons_append, List.nil_append,
      List.forall_mem_cons]
    exact ⟨fun _ => rfl, countable_null, countable_null, countable_null, countable_null,
      List.forall_mem_nil _⟩
  have none : (create (Policy.standard .entities)
      [("_name", .text "A"), ("_ownerUsers", .text "u")] {} .first "e").toOption.isNone = true := by
    decide
  rcases (prepare_ends (p := Policy.standard .entities) (.create {} "e") trivial keyed
    inside .first).1 countable with ⟨doc, made⟩ | refused
  · rw [Writing.prepare] at made
    rw [toOption_eq_some.2 made] at none
    cases none
  · exact refused

/-- A number in place of the owners is a fault. -/
theorem prepare_broken_ownersNumber :
    (Value.object [("_name", .text "A"), ("_ownerUsers", .int 5)]).WellKeyed ∧
      InCalendar [("_name", .text "A"), ("_ownerUsers", .int 5)] ∧
      create (Policy.standard .entities) [("_name", .text "A"), ("_ownerUsers", .int 5)] {} .first
        "e" = .error (.broken .shape) := by
  have keyed : (Value.object [("_name", .text "A"), ("_ownerUsers", .int 5)]).WellKeyed :=
    .object (by decide) (List.forall_mem_cons.2
      ⟨.text "A", List.forall_mem_singleton.2 (.number _)⟩)
  have inside : InCalendar [("_name", .text "A"), ("_ownerUsers", .int 5)] := by
    refine inCalendar_of_timeless ?_
    simp only [instantFields, validityFields, List.cons_append, List.nil_append,
      List.forall_mem_cons]
    exact ⟨rfl, rfl, rfl, rfl, List.forall_mem_nil _⟩
  have unmade : (create (Policy.standard .entities)
      [("_name", .text "A"), ("_ownerUsers", .int 5)] {} .first "e").toOption.isNone = true := by
    decide
  have unrefused : (refusal? (create (Policy.standard .entities)
      [("_name", .text "A"), ("_ownerUsers", .int 5)] {} .first "e")).isNone = true := by
    decide
  exact ⟨keyed, inside, create_broken keyed.distinct inside unmade unrefused⟩

end Record

end Catalog
