import Catalog.Proofs.Plan.Listing
import Catalog.Proofs.Query.Leaves

/-!
# Relations that name their ends by texts

Where the fields of relations are texts, whatever the ids of other records are, a field names at
most one record: the one that has this text as its id (`endOf_eq_some`). So joining never meets a
fault, and selecting among the joined relations is asking the records that they are joined with
(`joinSelect_texts`).

Relations are joined with lists and then with entities, each with what the plan demands of it, and
of both is left what a relation shows (`joinBoth_texts`, `Document.joinedWith`).
-/

namespace Catalog

variable {ctx : Context} {store : Store} {docs found : List Document} {field as : String}
  {target : Family} {c : Condition}

/-- A condition that is not about ids says none. -/
theorem ids?_of_allLeaves (h : c.AllLeaves fun l => l.path ≠ "_id") : c.ids? = .ok none := by
  induction h with
  | always => rfl
  | never => rfl
  | leaf h => rw [Condition.ids?, Leaf.ids?, if_neg h]
  | and _ ih =>
    rw [Condition.ids?]
    exact Condition.firstIds?_silent ih
  | or => rfl

/-! ## One end -/

/-- A field with a text names what has this text as its id. -/
theorem names_text {doc t : Document} {id : String} (h : doc.get? field = some (.text id)) :
    names field doc t = true ↔ t.get? "_id" = some (.text id) := by
  rw [names, h]
  refine Value.same_text.trans ?_
  cases t.get? "_id" with
  | none => exact iff_of_false (fun h => by cases h) fun h => by cases h
  | some v => exact (Option.some_inj (a := v)).symm

/-- A document joined with the record that a field names, if this meets a condition. -/
def joinedEnd? (ctx : Context) (store : Store) (field : String) (target : Family) (as : String)
    (c : Condition) (doc : Document) : Option Document :=
  ((endOf (store.scan (ctx.collection target)) field doc).filter c.met).map fun t =>
    doc.put as (.object t)

theorem joinedEnd?_eq_some {doc j : Document} :
    joinedEnd? ctx store field target as c doc = some j ↔
      ∃ t, endOf (store.scan (ctx.collection target)) field doc = some t ∧ c.Met t ∧
        j = doc.put as (.object t) := by
  rw [joinedEnd?, Option.map_eq_some_iff]
  constructor
  · rintro ⟨t, ht, rfl⟩
    obtain ⟨ht, hm⟩ := Option.filter_eq_some_iff.1 ht
    exact ⟨t, ht, Condition.met_iff.1 hm, rfl⟩
  · rintro ⟨t, ht, hm, rfl⟩
    exact ⟨t, Option.filter_eq_some_iff.2 ⟨ht, Condition.met_iff.2 hm⟩, rfl⟩

section Keyed

variable (hk : store.Keyed)
include hk

theorem eq_of_names_text {doc t t' : Document} {id : String}
    (h : doc.get? field = some (.text id)) (hm : t ∈ store.scan (ctx.collection target))
    (hm' : t' ∈ store.scan (ctx.collection target)) (hn : names field doc t = true)
    (hn' : names field doc t' = true) : t = t' :=
  hk.eq_of_text_id hm hm' ((names_text h).1 hn) ((names_text h).1 hn')

/-- A field with a text names the stored record with this id, and no other. -/
theorem endOf_eq_some {doc t : Document} {id : String} (h : doc.get? field = some (.text id)) :
    endOf (store.scan (ctx.collection target)) field doc = some t ↔
      t ∈ store.scan (ctx.collection target) ∧ t.get? "_id" = some (.text id) := by
  constructor
  · intro he
    exact ⟨List.mem_of_find?_eq_some he, (names_text h).1 (List.find?_some he)⟩
  · rintro ⟨hm, hid⟩
    exact find?_eq_some_of_unique
      (fun t' hm' hn' => eq_of_names_text hk h hm' hm hn' ((names_text h).2 hid)) hm
      ((names_text h).2 hid)

theorem joined_text {doc : Document} {id : String} (hd : doc ∈ docs)
    (h : doc.get? field = some (.text id)) :
    joined (joinTargets store (ctx.collection target) field docs) field as doc =
      .ok ((endOf (store.scan (ctx.collection target)) field doc).map fun t =>
        doc.put as (.object t)) := by
  have hkey : (Value.orNull (doc.get? field)).isKey = true := by
    rw [h]
    rfl
  rw [joined_eq _ hkey, find?_joinTargets
    (fun _ hm _ hm' hn hn' => eq_of_names_text hk h hm hm' hn hn') fun t hm hn => ?_]
  rw [joinTargets, hk.fetchMany_eq_filter, List.mem_filter, Document.idAmong,
    Document.id?_of_text ((names_text h).1 hn)]
  exact ⟨hm, List.contains_iff_mem.2 (List.mem_filterMap.2 ⟨doc, hd, by rw [h]⟩)⟩

/-- Joining relations that name their ends by texts and keeping what meets a condition asks the
    records that they name, in whatever order these are kept. -/
theorem joinSelect_texts (hkey : '.' ∉ as.toList)
    (htexts : ∀ d ∈ docs, ∃ id, d.get? field = some (.text id)) :
    joinSelect ctx store docs field target as c = .ok found ↔
      (∀ d ∈ docs, ∀ t, endOf (store.scan (ctx.collection target)) field d = some t →
        ∃ b, c.holds (.object t) = .ok b) ∧
      found = docs.filterMap (joinedEnd? ctx store field target as c) := by
  have each : docs.filterMapM (joined (joinTargets store (ctx.collection target) field docs) field
      as) = .ok (docs.filterMap fun d =>
        (endOf (store.scan (ctx.collection target)) field d).map fun t =>
          d.put as (.object t)) := by
    refine (filterMapM_eq_ok fun d hd o ho => ?_).2 ⟨fun d hd => ?_, rfl⟩
    · obtain ⟨id, hid⟩ := htexts d hd
      exact (Except.ok.inj ((joined_text hk hd hid).symm.trans ho))
    · obtain ⟨id, hid⟩ := htexts d hd
      exact joined_text hk hd hid
  rw [joinSelect, each]
  refine selectDocuments_eq_ok.trans (and_congr ?_ ?_)
  · constructor
    · intro h d hd t ht
      have held := h (d.put as (.object t)) (List.mem_filterMap.2 ⟨d, hd, by rw [ht]; rfl⟩)
      rw [holds_prefixed_put hkey] at held
      exact ⟨_, held⟩
    · intro h j hj
      obtain ⟨d, hd, hj⟩ := List.mem_filterMap.1 hj
      obtain ⟨t, ht, rfl⟩ := Option.map_eq_some_iff.1 hj
      obtain ⟨b, hb⟩ := h d hd t ht
      rw [Condition.met, holds_prefixed_put hkey, hb]
  · have same : (docs.filterMap fun d => (endOf (store.scan (ctx.collection target)) field d).map
        fun t => d.put as (.object t)).filter (c.prefixed as).met =
        docs.filterMap (joinedEnd? ctx store field target as c) := by
      rw [List.filter_filterMap]
      congr 1
      funext d
      rw [joinedEnd?]
      cases endOf (store.scan (ctx.collection target)) field d with
      | none => rfl
      | some t =>
        rw [Option.map_some, Option.filter_some, Option.filter_some, met_prefixed_put hkey]
        split <;> rfl
    rw [same]

end Keyed

/-! ## Both ends -/

namespace Document

/-- What a relation shows of a list or an entity: those metadata that it has. -/
def metadata (doc : Document) : Document :=
  metadataFields.filterMap fun field => (doc.get? field).map fun v => (field, v)

/-- A relation as it is listed, with what it shows of its list and its entity. -/
def joinedWith (relation list entity : Document) : Document :=
  (relation.put "_fromMetadata" (.object list.metadata)).put "_toMetadata"
    (.object entity.metadata)

theorem put_put (key : String) (v v' : Value) (doc : Document) :
    (doc.put key v).put key v' = doc.put key v' := by
  induction doc with
  | nil => simp [put]
  | cons m rest ih =>
    obtain ⟨k, u⟩ := m
    by_cases hk : k = key
    · simp [put, hk]
    · simp [put, hk, ih]

/-- What is written once more is written in its place. -/
theorem put_put_put {key key' : String} (h : key ≠ key') (v v' w : Value) (doc : Document) :
    ((doc.put key v).put key' w).put key v' = (doc.put key v').put key' w := by
  induction doc with
  | nil => simp [put, h]
  | cons m rest ih =>
    obtain ⟨k, u⟩ := m
    by_cases hk : k = key
    · subst hk
      simp [put, h]
    · by_cases hk' : k = key'
      · subst hk'
        simp [put, hk, put_put]
      · simp [put, hk, hk', ih]

end Document

/-- Of what a relation is joined with, the metadata are left. -/
theorem reshaped_put (relation list entity : Document) :
    reshaped "_toMetadata" metadataFields (reshaped "_fromMetadata" metadataFields
      ((relation.put "_fromMetadata" (.object list)).put "_toMetadata" (.object entity))) =
      relation.joinedWith list entity := by
  have list : reshaped "_fromMetadata" metadataFields
      ((relation.put "_fromMetadata" (.object list)).put "_toMetadata" (.object entity)) =
        (relation.put "_fromMetadata" (.object list.metadata)).put "_toMetadata"
          (.object entity) := by
    rw [reshaped, Document.get?_put, if_neg (by decide), Document.get?_put, if_pos rfl]
    exact Document.put_put_put (by decide) _ _ _ _
  rw [list, reshaped, Document.get?_put, if_pos rfl]
  exact Document.put_put _ _ _ _

/-- A relation names its list and its entity by texts. -/
structure TextEnds (relation : Document) : Prop where
  list : ∃ id, relation.get? "_listId" = some (.text id)
  entity : ∃ id, relation.get? "_entityId" = some (.text id)

/-- A relation joined with its list and its entity, if they meet conditions. -/
def joinedRelation? (ctx : Context) (store : Store) (lists entities : Condition)
    (relation : Document) : Option Document := do
  let l ← (endOf (store.scan (ctx.collection .lists)) "_listId" relation).filter lists.met
  let e ← (endOf (store.scan (ctx.collection .entities)) "_entityId" relation).filter entities.met
  return relation.joinedWith l e

/-- The conditions for lists and entities have an answer for what a relation names: for its list,
    and if this meets the condition, for its entity. -/
structure EndsAnswered (ctx : Context) (store : Store) (lists entities : Condition)
    (relation : Document) : Prop where
  list : ∀ l, endOf (store.scan (ctx.collection .lists)) "_listId" relation = some l →
    ∃ b, lists.holds (.object l) = .ok b
  entity : ∀ l, endOf (store.scan (ctx.collection .lists)) "_listId" relation = some l →
    lists.Met l → ∀ e, endOf (store.scan (ctx.collection .entities)) "_entityId" relation = some e →
    ∃ b, entities.holds (.object e) = .ok b

/-- What relations show when they have been joined with both ends. -/
theorem reshaped_joinedEnds (lists entities : Condition) :
    (((docs.filterMap (joinedEnd? ctx store "_listId" .lists "_fromMetadata" lists)).filterMap
      (joinedEnd? ctx store "_entityId" .entities "_toMetadata" entities)).map
        (reshaped "_fromMetadata" metadataFields)).map (reshaped "_toMetadata" metadataFields) =
      docs.filterMap (joinedRelation? ctx store lists entities) := by
  rw [List.filterMap_filterMap, List.map_filterMap, List.map_filterMap]
  congr 1
  funext r
  rw [joinedRelation?, joinedEnd?]
  cases (endOf (store.scan (ctx.collection .lists)) "_listId" r).filter lists.met with
  | none => rfl
  | some l =>
    rw [Option.map_some, Option.bind_some, joinedEnd?, endOf_put (by decide)]
    cases (endOf (store.scan (ctx.collection .entities)) "_entityId" r).filter entities.met with
    | none => rfl
    | some e => exact congrArg some (reshaped_put r l e)

/-- Joining relations with both ends joins each of them. -/
theorem joinBoth_texts (hk : store.Keyed) {lists entities : Condition}
    (htexts : ∀ r ∈ docs, TextEnds r) :
    joinBoth ctx store lists entities docs = .ok found ↔
      (∀ r ∈ docs, EndsAnswered ctx store lists entities r) ∧
        found = docs.filterMap (joinedRelation? ctx store lists entities) := by
  -- Joining with lists does not change what the relations name their entities by.
  have listed : ∀ d ∈ docs.filterMap (joinedEnd? ctx store "_listId" .lists "_fromMetadata" lists),
      ∃ id, d.get? "_entityId" = some (.text id) := by
    intro d hd
    obtain ⟨r, hr, hd⟩ := List.mem_filterMap.1 hd
    obtain ⟨l, -, -, rfl⟩ := joinedEnd?_eq_some.1 hd
    rw [Document.get?_put, if_neg (by decide)]
    exact (htexts r hr).entity
  rw [joinBoth, bind_eq_ok]
  constructor
  · rintro ⟨both, hlists, h⟩
    obtain ⟨all, hentities, h⟩ := bind_eq_ok.1 h
    cases h
    obtain ⟨answeredLists, rfl⟩ :=
      (joinSelect_texts hk (by decide) fun r hr => (htexts r hr).list).1 hlists
    obtain ⟨answeredEntities, rfl⟩ := (joinSelect_texts hk (by decide) listed).1 hentities
    refine ⟨fun r hr => ⟨answeredLists r hr, fun l hl hm e he => ?_⟩,
      reshaped_joinedEnds lists entities⟩
    exact answeredEntities (r.put "_fromMetadata" (.object l))
      (List.mem_filterMap.2 ⟨r, hr, joinedEnd?_eq_some.2 ⟨l, hl, hm, rfl⟩⟩) e
      (by rwa [endOf_put (by decide)])
  · rintro ⟨answered, rfl⟩
    refine ⟨_, (joinSelect_texts hk (by decide) fun r hr => (htexts r hr).list).2
      ⟨fun r hr => (answered r hr).list, rfl⟩, ?_⟩
    refine bind_eq_ok.2 ⟨_, (joinSelect_texts hk (by decide) listed).2 ⟨fun d hd e he => ?_, rfl⟩,
      congrArg Except.ok (reshaped_joinedEnds lists entities)⟩
    obtain ⟨r, hr, hd⟩ := List.mem_filterMap.1 hd
    obtain ⟨l, hl, hm, rfl⟩ := joinedEnd?_eq_some.1 hd
    rw [endOf_put (by decide)] at he
    exact (answered r hr).entity l hl hm e he

end Catalog
