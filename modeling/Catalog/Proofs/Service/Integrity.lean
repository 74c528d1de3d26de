import Catalog.Proofs.Policy
import Catalog.Proofs.Record.References
import Catalog.Proofs.Service.Change
import Catalog.Proofs.Service.Removal

/-!
# References stay whole

A relation names a list and an entity, and a reaction what it is about. When they are made, what
they name has to be there; no request lets them name anything else afterwards; and what is named
does not go without them. So after every run of requests each of these fields names a stored record
(`references_stored`), if payloads name records by texts.

If they do not, the fields may name no record: they are looked up by their text when a record is
made, and compared as they are when what they name is removed.
-/

namespace Catalog.Service

variable {ctx : Context} {s s' : Store} {f : Family}

/-- Each reference field of a record is the id of a stored record of the family that it names. -/
def ReferencesStored (config : Configuration) (s : Store) : Prop :=
  ∀ f, ∀ d ∈ s.scan (config.policy f).collection, ∀ r ∈ f.references,
    ∃ id, d.get? r.1 = some (.text id) ∧
      ∃ e ∈ s.scan (config.policy r.2).collection, e.get? "_id" = some (.text id)

/-! ## Payloads -/

/-- No key of a payload is there twice, as in the text of an object. -/
def HasDistinctKeys (payload : Value) : Prop :=
  ∀ body : Document, payload = .object body → body.Distinct

/-- A payload for a new record names other records by texts. -/
def NamesByTexts (f : Family) (payload : Value) : Prop :=
  ∀ body : Document, payload = .object body → ∀ r ∈ f.references, ∀ v, body.get? r.1 = some v →
    ∃ id, v = .text id

/-- What a request brings with it is an object as it is written, with texts in the reference fields
    of new records. -/
def WriteRequest.WellFormed : WriteRequest → Prop
  | .create f payload _ => HasDistinctKeys payload ∧ NamesByTexts f payload
  | .createChild f _ payload _ => HasDistinctKeys payload ∧ NamesByTexts f payload
  | .createInList _ payload _ _ => HasDistinctKeys payload
  | .replace _ _ payload => HasDistinctKeys payload
  | .update _ _ payload => HasDistinctKeys payload
  | .updateAll _ payload _ => HasDistinctKeys payload
  | .updateListEntities _ payload _ => HasDistinctKeys payload
  | .delete _ _ => True
  | .deleteListEntities _ _ => True

/-- The payloads that a well-formed request makes records of have distinct keys and name other
    records by texts, too. -/
theorem WriteRequest.WellFormed.gives {request : WriteRequest} (h : request.WellFormed)
    {given : Value} {id : String} (hg : request.Gives ctx f given id) :
    HasDistinctKeys given ∧ NamesByTexts f given := by
  cases hg with
  | create => exact h
  | createChild hw =>
    obtain ⟨body, parents, rfl, rfl⟩ := withParent_eq_ok hw
    obtain ⟨distinct, texts⟩ := h
    constructor
    · intro given hgiven
      cases hgiven
      exact (distinct _ rfl).put _ _
    · intro given hgiven r hr v hv
      cases hgiven
      -- A parent is no reference field.
      have hne : r.1 ≠ "_parents" := Record.ne_of_managed (Record.not_mem_managedFields hr)
        (by decide)
      rw [Document.get?_put, if_neg hne] at hv
      exact texts _ rfl r hr v hv
  | entity => exact ⟨h, fun _ _ r hr => absurd hr List.not_mem_nil⟩
  | relation =>
    constructor
    · intro given hgiven
      cases hgiven
      exact (by decide : ["_listId", "_entityId"].Nodup)
    · intro given hgiven r hr v hv
      cases hgiven
      rcases List.mem_cons.1 hr with rfl | hr
      · cases hv
        exact ⟨_, rfl⟩
      · obtain rfl := List.mem_singleton.1 hr
        cases hv
        exact ⟨_, rfl⟩

theorem WriteRequest.WellFormed.revision {request : WriteRequest} (h : request.WellFormed)
    {payload : Value} (hr : request.revision? = some payload) : HasDistinctKeys payload := by
  cases request <;> cases hr <;> exact h

/-! ## Steps -/

/-- What is named by other records names none itself. -/
theorem references_of_mem_references {r : String × Family} (h : r ∈ f.references) :
    r.2.references = [] := by
  revert r
  cases f <;> decide

/-- What a new record names is stored, under the text of what it names it by. -/
theorem exists_named (hs : s.Sound) {doc : Document} {targets : List (String × Document)}
    (h : referenceTargets ctx s f doc = .ok targets) {r : String × Family}
    (hr : r ∈ f.references) : (doc.field r.1).truthy = true ∧
      ∃ e, s.fetch? (ctx.collection r.2) (doc.field r.1).display = some e ∧
        e.get? "_id" = some (.text (doc.field r.1).display) := by
  dsimp only [referenceTargets] at h
  split at h
  · split at h <;> cases h
  · next given =>
    obtain ⟨target, found, -⟩ := exists_map_of_mapM h
    have found := found r hr
    constructor
    · have none : (f.references.map Prod.fst).filter (fun field => !(doc.field field).truthy) =
          [] := by
        simpa using given
      have truthy := List.filter_eq_nil_iff.1 none r.1 (List.mem_map_of_mem hr)
      simpa using truthy
    · split at found
      · next e he => exact ⟨e, he, hs.get?_id_of_fetch? he⟩
      · cases found

section Steps

variable (hc : ctx.config.Separate) (hs : s.Sound) (h : ReferencesStored ctx.config s)

include hc hs h

omit hs in
/-- A record that names stored ones can be added. -/
theorem references_added {id : String} {doc : Document} (hid : doc.get? "_id" = some (.text id))
    (hnamed : ∀ r ∈ f.references, ∃ name, doc.get? r.1 = some (.text name) ∧
      ∃ e ∈ s.scan (ctx.config.policy r.2).collection, e.get? "_id" = some (.text name))
    (hi : s.insert (ctx.collection f) doc = .ok s') : ReferencesStored ctx.config s' := by
  have scan := Store.scan_insert (Document.id?_of_text hid) hi
  have stays {c : String} {e : Document} (he : e ∈ s.scan c) : e ∈ s'.scan c := by
    rw [scan]
    exact List.mem_append_left _ he
  intro g d hd r hr
  suffices named : ∃ name, d.get? r.1 = some (.text name) ∧
      ∃ e ∈ s.scan (ctx.config.policy r.2).collection, e.get? "_id" = some (.text name) by
    obtain ⟨name, hname, e, he, heid⟩ := named
    exact ⟨name, hname, e, stays he, heid⟩
  rw [scan] at hd
  rcases List.mem_append.1 hd with hd | hd
  · exact h g d hd r hr
  · split at hd
    · next hcollection =>
      -- The new record itself: no other family has its collection.
      cases List.mem_singleton.1 hd
      obtain rfl := hc.collections f g hcollection
      exact hnamed r hr
    · exact absurd hd List.not_mem_nil

/-- The fields of a new record name what was there when it was made. -/
theorem references_insert {given : Value} {id : String} {doc : Document}
    (hdistinct : HasDistinctKeys given) (htexts : NamesByTexts f given)
    (hp : Prepared ctx s f given id doc) (hi : s.insert (ctx.collection f) doc = .ok s') :
    ReferencesStored ctx.config s' := by
  refine references_added hc h hp.get?_id (fun r hr => ?_) hi
  obtain ⟨body, now, hbody, -, hmade⟩ := hp.made
  obtain rfl := members_eq_ok hbody
  obtain ⟨targets, htargets⟩ := hp.targets
  obtain ⟨htruthy, e, he, hid⟩ := exists_named hs htargets hr
  have same := Record.get?_create (Record.not_mem_managedFields hr) (hdistinct body rfl) hmade
  cases hv : body.get? r.1 with
  | none =>
    rw [Document.field, same, hv] at htruthy
    cases htruthy
  | some v =>
    obtain ⟨name, rfl⟩ := htexts body rfl r hr v hv
    rw [hv] at same
    rw [Document.field, same] at hid
    exact ⟨name, same, e, Store.mem_scan_of_fetch? he, hid⟩

/-- A new version names what the old one names, and is found under the same id. -/
theorem references_revise {body old new : Document} {now : Instant} (hdistinct : body.Distinct)
    (hold : old ∈ s.scan (ctx.collection f))
    (hr : Revised (ctx.config.policy f) body now old new)
    (hw : s.replace (ctx.collection f) new = .ok s') : ReferencesStored ctx.config s' := by
  have named {c : String} {e : Document} (he : e ∈ s.scan c) :
      ∃ e' ∈ s'.scan c, e'.get? "_id" = e.get? "_id" := by
    rcases hs.toKeyed.mem_replace_of_mem_scan hold hr.id?_eq hw he with he | ⟨rfl, hn⟩
    · exact ⟨e, he, rfl⟩
    · exact ⟨new, hn, hr.get?_id⟩
  intro g d hd r href
  rcases hs.toKeyed.mem_scan_of_mem_replace hold hr.id?_eq hw hd with hd | ⟨hcollection, rfl⟩
  · obtain ⟨id, hid, e, he, heid⟩ := h g d hd r href
    obtain ⟨e', he', hsame⟩ := named he
    exact ⟨id, hid, e', he', hsame.trans heid⟩
  · obtain rfl := hc.collections g f hcollection
    obtain ⟨id, hid, e, he, heid⟩ := h g old hold r href
    obtain ⟨e', he', hsame⟩ := named he
    have href : r ∈ (ctx.config.policy g).family.references := by
      rwa [hc.family g]
    refine ⟨id, ?_, e', he', hsame.trans heid⟩
    cases hr with
    | replaced hr => exact Record.get?_reference_replace hr href hid
    | updated hr => exact Record.get?_reference_update hdistinct hr href hid

/-- What is named is only removed with what names it. -/
theorem references_remove {ids : List Value}
    (hids : ∀ v ∈ ids, (∃ id, v = .text id) ∨
      ∃ d ∈ s.scan (ctx.collection f), d.get? "_id" = some v)
    (hw : withoutRecords ctx f ids s = .ok s') : ReferencesStored ctx.config s' := by
  by_cases hempty : ids = []
  · subst hempty
    cases hw
    exact h
  have texts : ∀ v ∈ ids, ∃ id, v = .text id := by
    intro v hv
    rcases hids v hv with hv | ⟨e, he, hve⟩
    · exact hv
    · obtain ⟨id, hid⟩ := hs.textIds _ e he
      exact ⟨id, Option.some.inj (hve.symm.trans hid)⟩
  have left {c : String} {d : Document} := mem_scan_withoutRecords hs hempty hw (c := c) (d := d)
  intro g d hd r hr
  obtain ⟨hd, kept⟩ := left.1 hd
  obtain ⟨id, hid, e, he, heid⟩ := h g d hd r hr
  refine ⟨id, hid, e, left.2 ⟨he, fun removed => ?_⟩, heid⟩
  rw [isRemoved_iff] at kept removed
  rcases removed with ⟨hcollection, among⟩ | ⟨g', field, dependent, hcollection, -⟩
  · -- If the record that is named is among the removed ones, what names it is removed, too.
    rw [Document.idAmong_of_id? (Document.id?_of_text heid), List.contains_iff_mem,
      List.mem_map] at among
    obtain ⟨v, hv, hdisplay⟩ := among
    obtain ⟨t, rfl⟩ := texts v hv
    cases hdisplay
    obtain rfl := hc.collections r.2 f hcollection
    exact kept (.inr ⟨g, r.1, hr, rfl,
      (namesOne_iff_mem (plain_of_mem_references hr) texts hid).2 hv⟩)
  · -- What is named names nothing itself, so that no dependents are in its collection.
    obtain rfl := hc.collections r.2 g' hcollection
    rw [references_of_mem_references hr] at dependent
    exact List.not_mem_nil dependent

end Steps

/-- A well-formed request leaves references whole. -/
theorem references_change {request : WriteRequest} (hc : ctx.config.Separate)
    (hw : request.WellFormed) (hs : s.Sound) (h : ReferencesStored ctx.config s)
    (hchange : Change ctx request s s') : ReferencesStored ctx.config s' := by
  cases hchange with
  | insert hg hn hi =>
    obtain ⟨hdistinct, htexts⟩ := hw.gives hg
    exact references_insert hc hs h hdistinct htexts (newRecord_eq_ok hn).1 hi
  | revise hr hbody hold hrevised _ hreplace =>
    exact references_revise hc hs h (hw.revision hr _ (members_eq_ok hbody)) hold hrevised hreplace
  | remove hids hremoved => exact references_remove hc hs h hids hremoved

/-- After every run of well-formed requests from the empty store, each reference field of a stored
    record is the id of a stored record of the family that it names. -/
theorem references_stored {config : Configuration} (hc : config.Separate)
    (h : Run config WriteRequest.WellFormed {} s) : ReferencesStored config s := by
  have kept := h.keeps (P := fun s => s.Sound ∧ ReferencesStored config s)
    Store.Sound.empty.toKeyed ⟨.empty, fun f d hd => absurd hd List.not_mem_nil⟩
    fun ctx request s s' hconfig hw hk hs hchange => by
      subst hconfig
      exact ⟨hchange.sound hs.1, references_change hc hw hs.1 hs.2 hchange⟩
  exact kept.2.2

/-- A list with two entities, one of which is removed, and a reaction to the other. -/
def oneOfTwoRemoved : List WriteRequest := [
  .create .lists (.object [("_name", .text "L"), ("_visibility", .text "public")]) "l",
  .createInList "l" (.object [("_name", .text "E")]) "e" "r",
  .createInList "l" (.object [("_name", .text "F")]) "f" "q",
  .create .entityReactions (.object [("_entityId", .text "e")]) "x",
  .create .entityReactions (.object [("_entityId", .text "f")]) "y",
  .delete .entities "f"]

theorem wellFormed_oneOfTwoRemoved : ∀ request ∈ oneOfTwoRemoved, request.WellFormed := by
  have distinct (body : Document) (h : body.Distinct) : HasDistinctKeys (.object body) :=
    fun _ hb => by cases hb; exact h
  have named (f : Family) (hf : f.references = []) (payload : Value) : NamesByTexts f payload :=
    fun _ _ r hr => by rw [hf] at hr; exact absurd hr List.not_mem_nil
  have about (id : String) : NamesByTexts .entityReactions (.object [("_entityId", .text id)]) := by
    intro body hb r hr v hv
    cases hb
    obtain rfl := List.mem_singleton.1 hr
    cases hv
    exact ⟨id, rfl⟩
  simp only [oneOfTwoRemoved, List.forall_mem_cons]
  exact ⟨⟨distinct _ (by decide), named _ rfl _⟩, distinct _ (by decide), distinct _ (by decide),
    ⟨distinct _ (by decide), about "e"⟩, ⟨distinct _ (by decide), about "f"⟩, trivial,
    List.forall_mem_nil _⟩

/-- The relation and the reaction of the entity that is left are there, and name stored records. -/
theorem references_stored_oneOfTwoRemoved :
    let ctx : Context := { config := .standard, now := ⟨.first, 0⟩ }
    let s := performAll ctx oneOfTwoRemoved {}
    ctx.config.Separate ∧ Run ctx.config WriteRequest.WellFormed {} s ∧
      (s.scan "ListToEntityRelation").length = 1 ∧ (s.scan "EntityReaction").length = 1 ∧
        ReferencesStored ctx.config s := by
  intro ctx s
  have run : Run ctx.config WriteRequest.WellFormed {} s :=
    Run.performAll wellFormed_oneOfTwoRemoved .start
  exact ⟨Configuration.separate_standard, run, by decide +kernel, by decide +kernel,
    references_stored Configuration.separate_standard run⟩

end Catalog.Service
