import Catalog.Proofs.Plan.Join

/-!
# What a requester is listed

A requester who asks for all records of a family, without a filter and without a limit, is listed
what it may read (`listing_eq_readable`). Relations do not say themselves who may read them: of them
are listed those with a list and an entity that the requester may read, in the order of the store
(`listing_relations_eq_ok`, `listed_relation_iff`). If the field for one of these cannot be joined
by, nothing is listed.
-/

namespace Catalog

variable {ctx : Context} {store : Store}

/-- The records of a family that are listed without a filter and without a limit. -/
def listing (ctx : Context) (store : Store) (f : Family) : Outcome (List Document) := do
  let plan ← Plan.query ctx f {}
  plan.run ctx store

/-- A record is listed: there is one with its id in the listing of its family. -/
def Listed (ctx : Context) (store : Store) (f : Family) (doc : Document) : Prop :=
  ∃ docs, listing ctx store f = .ok docs ∧ ∃ d ∈ docs, d.get? "_id" = doc.get? "_id"

/-- What is demanded of records that nothing else is said of: that they may be read. -/
theorem baseCondition_nothing (ctx : Context) (f : Family) :
    baseCondition ctx f {} none .always = .ok (ctx.access f) := by
  have alone : Condition.conj [.always, .always, .always, ctx.access f, .always] =
      ctx.access f := by
    rcases ctx.access_cases f with h | h | ⟨cs, h⟩ <;> rw [h] <;> rfl
  exact congrArg Except.ok alone

/-- The access condition says nothing of ids, so that everything is looked through. -/
theorem selection_access (ctx : Context) (store : Store) (f : Family) :
    selection ctx store f (ctx.access f) = .ok (store.readable ctx f) := by
  -- A disjunction says no ids, and the one comparison is not about the id.
  have silent : (ctx.access f).ids? = .ok none := by
    rcases ctx.access_cases f with h | h | ⟨cs, h⟩ <;> rw [h] <;> rfl
  rw [selection_of_silent silent]
  exact selectDocuments_total (Requester.total_predicate _ _ _) _

theorem tailStages_nothing (f : Family) : tailStages f {} = .ok [] := rfl

/-- Of a family whose records say themselves who may read them, just these are listed. -/
theorem listing_eq_readable {f : Family} (hf : f ≠ .relations) :
    listing ctx store f = .ok (store.readable ctx f) := by
  refine bind_eq_ok.2 ⟨_, Plan.query_eq_ok.2 ⟨_, _, _, baseCondition_nothing ctx f,
    joinStages_of_ne hf _, tailStages_nothing f, rfl⟩, ?_⟩
  rw [run_ofStages, selection_access]
  rfl

/-! ## Relations -/

/-- A relation has a list and an entity that the requester may read. -/
structure EndsReadable (ctx : Context) (store : Store) (relation : Document) : Prop where
  list : (endOf (store.readable ctx .lists) "_listId" relation).isSome = true
  entity : (endOf (store.readable ctx .entities) "_entityId" relation).isSome = true

/-- The relations of a store can be joined: what they name their lists by can be keys and, where the
    requester may read the list, so can what they name their entities by. -/
structure Joinable (ctx : Context) (store : Store) : Prop where
  lists : ∀ r ∈ store.scan (ctx.collection .relations),
    (Value.orNull (r.get? "_listId")).isKey = true
  entities : ∀ r ∈ store.scan (ctx.collection .relations),
    (endOf (store.readable ctx .lists) "_listId" r).isSome = true →
      (Value.orNull (r.get? "_entityId")).isKey = true

/-- Relations joined with their lists and then with their entities, where these meet conditions, and
    with the members of both that a relation shows. -/
def joinBoth (ctx : Context) (store : Store) (lists entities : Condition) (docs : List Document) :
    Except Fault (List Document) := do
  let listed ← joinSelect ctx store docs "_listId" .lists "_fromMetadata" lists
  let both ← joinSelect ctx store listed "_entityId" .entities "_toMetadata" entities
  return (both.map (reshaped "_fromMetadata" metadataFields)).map
    (reshaped "_toMetadata" metadataFields)

/-- There are stages for a record of a relation if there is a condition for it. -/
theorem exists_endStages {field as : String} {target : Family} {filter : Filter}
    {set : Option SetExpr} {c : Condition}
    (hc : baseCondition ctx target filter set .always = .ok c) :
    ∃ stages, endStages ctx field target as filter set = .ok stages := by
  rw [endStages, hc]
  cases c <;> exact ⟨_, rfl⟩

/-- Relations are joined by the stages that come after their selection, with what meets the
    conditions for what they relate. -/
theorem runStages_joinStages {scopes : RelationScopes} {joins : List Stage}
    (h : joinStages ctx .relations scopes = .ok joins) :
    ∃ lists entities,
      baseCondition ctx .lists scopes.listFilter scopes.listSet .always = .ok lists ∧
      baseCondition ctx .entities scopes.entityFilter scopes.entitySet .always = .ok entities ∧
      ∀ (store : Store) (docs : List Document) (rest : List Stage),
        runStages ctx store docs (joins ++ rest) =
          (joinBoth ctx store lists entities docs : Outcome _) >>= fun docs =>
            runStages ctx store docs rest := by
  rw [joinStages_relations] at h
  obtain ⟨listStages, hl, h⟩ := bind_eq_ok.1 h
  obtain ⟨entityStages, he, h⟩ := bind_eq_ok.1 h
  cases h
  obtain ⟨lists, hlists, runLists⟩ := runStages_endStages hl
  obtain ⟨entities, hentities, runEntities⟩ := runStages_endStages he
  refine ⟨lists, entities, hlists, hentities, fun store docs rest => ?_⟩
  rw [List.append_assoc, List.append_assoc, runLists, joinBoth]
  cases joinSelect ctx store docs "_listId" .lists "_fromMetadata" lists with
  | error e => rfl
  | ok listed =>
    change runStages ctx store listed (entityStages ++ _) = _
    rw [runEntities]
    change _ = (liftM (joinSelect ctx store listed "_entityId" .entities "_toMetadata"
      entities >>= fun both => _) : Outcome _) >>= _
    cases joinSelect ctx store listed "_entityId" .entities "_toMetadata" entities <;> rfl

/-- There are stages for relations if there are conditions for what they relate. -/
theorem exists_joinStages {scopes : RelationScopes} {lists entities : Condition}
    (hl : baseCondition ctx .lists scopes.listFilter scopes.listSet .always = .ok lists)
    (he : baseCondition ctx .entities scopes.entityFilter scopes.entitySet .always =
      .ok entities) :
    ∃ joins, joinStages ctx .relations scopes = .ok joins := by
  obtain ⟨listStages, hl⟩ : ∃ stages, endStages ctx "_listId" .lists "_fromMetadata"
      scopes.listFilter scopes.listSet = .ok stages := exists_endStages hl
  obtain ⟨entityStages, he⟩ : ∃ stages, endStages ctx "_entityId" .entities "_toMetadata"
      scopes.entityFilter scopes.entitySet = .ok stages := exists_endStages he
  rw [joinStages_relations]
  exact ⟨_, bind_eq_ok.2 ⟨listStages, hl, bind_eq_ok.2 ⟨entityStages, he, rfl⟩⟩⟩

/-- Relations joined with their lists and then with their entities, where the requester may read
    both, and with the members of both that a relation shows. -/
def joinRelations (ctx : Context) (store : Store) (docs : List Document) :
    Except Fault (List Document) := do
  let listed ← joinSelect ctx store docs "_listId" .lists "_fromMetadata" (ctx.access .lists)
  let both ← joinSelect ctx store listed "_entityId" .entities "_toMetadata" (ctx.access .entities)
  return (both.map (reshaped "_fromMetadata" metadataFields)).map
    (reshaped "_toMetadata" metadataFields)

/-- Relations are joined by the stages that come after their selection, when nothing is said of what
    they relate. -/
theorem runStages_joinStages_nothing (ctx : Context) :
    ∃ joins, joinStages ctx .relations {} = .ok joins ∧
      ∀ (store : Store) (docs : List Document) (rest : List Stage),
        runStages ctx store docs (joins ++ rest) =
          (joinRelations ctx store docs : Outcome _) >>= fun docs =>
            runStages ctx store docs rest := by
  obtain ⟨joins, planned⟩ : ∃ joins, joinStages ctx .relations {} = .ok joins :=
    exists_joinStages (baseCondition_nothing ctx .lists) (baseCondition_nothing ctx .entities)
  obtain ⟨lists, entities, hl, he, run⟩ := runStages_joinStages planned
  cases (baseCondition_nothing ctx .lists).symm.trans hl
  cases (baseCondition_nothing ctx .entities).symm.trans he
  exact ⟨joins, planned, run⟩

/-- All relations are joined with their lists and then with their entities. -/
theorem listing_relations (ctx : Context) (store : Store) :
    listing ctx store .relations =
      (joinRelations ctx store (store.scan (ctx.collection .relations)) : Outcome _) := by
  obtain ⟨joins, planned, joined⟩ := runStages_joinStages_nothing ctx
  have plan : Plan.query ctx .relations {} = .ok _ :=
    Plan.query_eq_ok.2 ⟨_, _, _, baseCondition_nothing ctx .relations, planned,
      tailStages_nothing _, rfl⟩
  rw [listing, plan]
  -- Relations are all selected, as they do not say themselves who may read them.
  change (Plan.ofStages ctx .relations (.select _ :: _)).run ctx store = _
  rw [run_ofStages, selection_access, Store.readable_relations]
  change runStages ctx store _ (joins ++ []) = _
  rw [joined]
  exact bind_pure _

theorem get?_reshaped {key as : String} (h : key ≠ as) (keep : List String) (doc : Document) :
    Document.get? key (reshaped as keep doc) = doc.get? key := by
  rw [reshaped, Document.get?_put, if_neg h]

/-- What a requester is shown of a relation, if it may read its list and its entity. -/
def shownRelation? (ctx : Context) (store : Store) (relation : Document) : Option Document := do
  let l ← endOf (store.readable ctx .lists) "_listId" relation
  let e ← endOf (store.readable ctx .entities) "_entityId" relation
  return reshaped "_toMetadata" metadataFields (reshaped "_fromMetadata" metadataFields
    ((relation.put "_fromMetadata" (.object l)).put "_toMetadata" (.object e)))

/-- A relation is shown under its id. -/
theorem get?_id_shownRelation? {r d : Document} (h : shownRelation? ctx store r = some d) :
    d.get? "_id" = r.get? "_id" := by
  obtain ⟨l, -, h⟩ := Option.bind_eq_some_iff.1 h
  obtain ⟨e, -, h⟩ := Option.bind_eq_some_iff.1 h
  cases h
  rw [get?_reshaped (by decide), get?_reshaped (by decide), Document.get?_put,
    if_neg (by decide), Document.get?_put, if_neg (by decide)]

theorem isSome_shownRelation? {r : Document} :
    (shownRelation? ctx store r).isSome = true ↔ EndsReadable ctx store r := by
  rw [shownRelation?]
  constructor
  · intro h
    obtain ⟨d, h⟩ := Option.isSome_iff_exists.1 h
    obtain ⟨l, hl, h⟩ := Option.bind_eq_some_iff.1 h
    obtain ⟨e, he, h⟩ := Option.bind_eq_some_iff.1 h
    exact ⟨Option.isSome_iff_exists.2 ⟨l, hl⟩, Option.isSome_iff_exists.2 ⟨e, he⟩⟩
  · intro h
    obtain ⟨l, hl⟩ := Option.isSome_iff_exists.1 h.list
    obtain ⟨e, he⟩ := Option.isSome_iff_exists.1 h.entity
    rw [hl, he]
    rfl

/-- Where ids are texts, an end of a relation that may be read is named by a key. -/
theorem isKey_of_endOf {field : String} {target : Family} {relation : Document}
    (ht : store.TextIds (ctx.collection target))
    (h : (endOf (store.readable ctx target) field relation).isSome = true) :
    (Value.orNull (relation.get? field)).isKey = true := by
  obtain ⟨t, hend⟩ := Option.isSome_iff_exists.1 h
  obtain ⟨id, hid⟩ := ht t (List.mem_filter.1 (List.mem_of_find?_eq_some hend)).1
  have named := List.find?_some hend
  rw [names, hid] at named
  rw [Value.text_same.1 named]
  rfl

/-- Of some relations those whose list may be read, joined with it. -/
def joinedWithLists (ctx : Context) (store : Store) (docs : List Document) : List Document :=
  docs.filterMap fun r =>
    (endOf (store.readable ctx .lists) "_listId" r).map fun l =>
      r.put "_fromMetadata" (.object l)

/-- Joining with the lists does not change what relations name their entities by. -/
theorem isKey_joinedWithLists {docs : List Document} :
    (∀ d ∈ joinedWithLists ctx store docs, (Value.orNull (d.get? "_entityId")).isKey = true) ↔
      ∀ r ∈ docs, (endOf (store.readable ctx .lists) "_listId" r).isSome = true →
        (Value.orNull (r.get? "_entityId")).isKey = true := by
  constructor
  · intro h r hr hs
    obtain ⟨l, hl⟩ := Option.isSome_iff_exists.1 hs
    have key := h (r.put "_fromMetadata" (.object l))
      (List.mem_filterMap.2 ⟨r, hr, Option.map_eq_some_iff.2 ⟨l, hl, rfl⟩⟩)
    rwa [Document.get?_put, if_neg (by decide)] at key
  · intro h d hd
    obtain ⟨r, hr, hd⟩ := List.mem_filterMap.1 hd
    obtain ⟨l, hl, rfl⟩ := Option.map_eq_some_iff.1 hd
    rw [Document.get?_put, if_neg (by decide)]
    exact h r hr (Option.isSome_iff_exists.2 ⟨l, hl⟩)

/-- Joined with the entities as well, and with less of both, relations are as they are shown. -/
theorem shown_joinedWithLists (ctx : Context) (store : Store) (docs : List Document) :
    (((joinedWithLists ctx store docs).filterMap fun d =>
      (endOf (store.readable ctx .entities) "_entityId" d).map fun e =>
        d.put "_toMetadata" (.object e)).map (reshaped "_fromMetadata" metadataFields)).map
          (reshaped "_toMetadata" metadataFields) =
      docs.filterMap (shownRelation? ctx store) := by
  rw [joinedWithLists, List.filterMap_filterMap, List.map_filterMap, List.map_filterMap]
  congr 1
  funext r
  rw [shownRelation?]
  cases endOf (store.readable ctx .lists) "_listId" r with
  | none => rfl
  | some l =>
    rw [Option.map_some, Option.bind_some, endOf_put (by decide)]
    cases endOf (store.readable ctx .entities) "_entityId" r <;> rfl

section Keyed

variable (hk : store.Keyed)
  (ht : ∀ f, f = .lists ∨ f = .entities → store.TextIds (ctx.collection f))
include hk ht

/-- Joining with what may be read finds each end among that. -/
theorem joinSelect_access_eq_ok {f : Family} (hf : f = .lists ∨ f = .entities) {as : String}
    (hkey : '.' ∉ as.toList) {field : String} {docs found : List Document} :
    joinSelect ctx store docs field f as (ctx.access f) = .ok found ↔
      (∀ doc ∈ docs, (Value.orNull (doc.get? field)).isKey = true) ∧
        found = docs.filterMap fun doc => (endOf (store.readable ctx f) field doc).map fun t =>
          doc.put as (.object t) :=
  joinSelect_eq_ok hk (ht f hf) hkey (Requester.total_predicate _ _ _)

/-- Of some relations those are joined whose list and entity may be read, in their order, if all can
    be joined. -/
theorem joinRelations_eq_ok {docs shown : List Document} :
    joinRelations ctx store docs = .ok shown ↔
      ((∀ r ∈ docs, (Value.orNull (r.get? "_listId")).isKey = true) ∧
        ∀ r ∈ docs, (endOf (store.readable ctx .lists) "_listId" r).isSome = true →
          (Value.orNull (r.get? "_entityId")).isKey = true) ∧
      shown = docs.filterMap (shownRelation? ctx store) := by
  rw [joinRelations, bind_eq_ok, ← shown_joinedWithLists]
  constructor
  · rintro ⟨listed, hl, h⟩
    obtain ⟨both, hb, h⟩ := bind_eq_ok.1 h
    cases h
    obtain ⟨hlists, rfl⟩ := (joinSelect_access_eq_ok hk ht (.inl rfl) (by decide)).1 hl
    obtain ⟨hentities, rfl⟩ := (joinSelect_access_eq_ok hk ht (.inr rfl) (by decide)).1 hb
    exact ⟨⟨hlists, isKey_joinedWithLists.1 hentities⟩, rfl⟩
  · rintro ⟨⟨hlists, hentities⟩, rfl⟩
    exact ⟨_, (joinSelect_access_eq_ok hk ht (.inl rfl) (by decide)).2 ⟨hlists, rfl⟩,
      bind_eq_ok.2 ⟨_, (joinSelect_access_eq_ok hk ht (.inr rfl) (by decide)).2
        ⟨isKey_joinedWithLists.2 hentities, rfl⟩, rfl⟩⟩

/-- The listing of relations: those whose list and entity may be read, in the order of the store,
    if all can be joined. -/
theorem listing_relations_eq_ok {docs : List Document} :
    listing ctx store .relations = .ok docs ↔ Joinable ctx store ∧
      docs = (store.scan (ctx.collection .relations)).filterMap (shownRelation? ctx store) := by
  rw [listing_relations, lift_eq_ok, joinRelations_eq_ok hk ht]
  exact and_congr_left fun _ =>
    ⟨fun ⟨lists, entities⟩ => ⟨lists, entities⟩, fun h => ⟨h.lists, h.entities⟩⟩

/-- A stored relation is listed exactly if all can be joined and its list and entity may be
    read. -/
theorem listed_relation_iff {r : Document} (hr : r ∈ store.scan (ctx.collection .relations)) :
    Listed ctx store .relations r ↔ Joinable ctx store ∧ EndsReadable ctx store r := by
  rw [← isSome_shownRelation?]
  constructor
  · rintro ⟨docs, h, d, hd, hid⟩
    obtain ⟨hj, rfl⟩ := (listing_relations_eq_ok hk ht).1 h
    obtain ⟨r', hr', hs⟩ := List.mem_filterMap.1 hd
    -- the relation that is listed under the id is the stored one
    cases hk.eq_of_id?_eq hr' hr (by rw [Document.id?, Document.id?, ← hid,
      get?_id_shownRelation? hs])
    exact ⟨hj, Option.isSome_iff_exists.2 ⟨d, hs⟩⟩
  · rintro ⟨hj, hs⟩
    obtain ⟨d, hs⟩ := Option.isSome_iff_exists.1 hs
    exact ⟨_, (listing_relations_eq_ok hk ht).2 ⟨hj, rfl⟩, d, List.mem_filterMap.2 ⟨r, hr, hs⟩,
      get?_id_shownRelation? hs⟩

end Keyed

end Catalog
