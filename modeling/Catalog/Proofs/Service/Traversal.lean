import Catalog.Proofs.Plan.Relations
import Catalog.Proofs.Service.Finding

/-!
# From a list to its entities and back

What is at the other end of the relations of a record is asked for in two steps: first the relations
are followed, whoever may read what they name, then the records that they name are listed for the
requester. Both steps together find just the records that the requester may read and that are
related to the one that was asked for (`entitiesIn`, `listsWith`), each once and in the order of the
store. So an entity is found from a list if and only if the list is found from the entity
(`traversal_exact`).

This is about records whose ids are texts, as a request names them, and about entities and lists at
the other end whose ids are not empty: a relation with an empty end counts as one without it. Where
the depth to which filters may be nested is negative, even a request without a filter is refused. So
there are related records that are not found (`related_not_found`).
-/

namespace Catalog.Service

variable {ctx : Context} {s : Store}

/-- Whether a relation is one between a list and an entity. -/
def relates (list entity relation : Document) : Bool :=
  (relation.field "_listId").same (list.field "_id") &&
    (relation.field "_entityId").same (entity.field "_id")

/-- Whether there is a relation between a list and an entity. -/
def related (ctx : Context) (s : Store) (list entity : Document) : Bool :=
  (s.scan (ctx.collection .relations)).any (relates list entity)

/-- The entities in a list that the requester may read, but for one with an empty id. -/
def entitiesIn (ctx : Context) (s : Store) (list : Document) : List Document :=
  (s.readable ctx .entities).filter fun entity =>
    (entity.field "_id").truthy && related ctx s list entity

/-- The lists with an entity that the requester may read, but for one with an empty id. -/
def listsWith (ctx : Context) (s : Store) (entity : Document) : List Document :=
  (s.readable ctx .lists).filter fun list =>
    (list.field "_id").truthy && related ctx s list entity

section Exact

variable (hk : s.Keyed) (hends : ∀ r ∈ s.scan (ctx.collection .relations), TextEnds r)
  (hfit : FitsPages ctx s) (hdepth : 0 ≤ ctx.config.maxLookupDepth) {id : String} {d : Document}

include hk hends hfit hdepth

theorem listEntities_eq (hd : d ∈ s.readable ctx .lists) (hid : d.get? "_id" = some (.text id)) :
    listEntities ctx s id (.object []) = .ok (entitiesIn ctx s d) := by
  rw [listEntities, through_eq hk hfit hdepth .lists .entities (by decide) (by decide)
    (by decide) (by decide) (fun r hr => (hends r hr).list) (fun r hr => (hends r hr).entity) hd
    hid, ← Document.field_of_get? hid]
  rfl

theorem entityLists_eq (hd : d ∈ s.readable ctx .entities)
    (hid : d.get? "_id" = some (.text id)) :
    entityLists ctx s id (.object []) = .ok (listsWith ctx s d) := by
  rw [entityLists, through_eq hk hfit hdepth .entities .lists (by decide) (by decide)
    (by decide) (by decide) (fun r hr => (hends r hr).entity) (fun r hr => (hends r hr).list) hd
    hid, ← Document.field_of_get? hid]
  -- From the other end, the fields are compared the other way round.
  refine congrArg Except.ok (List.filter_congr fun list _ => congrArg _ ?_)
  exact congrArg _ (funext fun r => Bool.and_comm _ _)

end Exact

/-- Where relations name their ends by texts and a page has room for all records, a list that the
    requester may read gives its entities that the requester may read, each once and in the order
    of the store, and an entity its lists. So a list and an entity with ids that are not empty give
    each other, or do not, from both sides. -/
theorem traversal_exact (hk : s.Keyed)
    (hends : ∀ r ∈ s.scan (ctx.collection .relations), TextEnds r) (hfit : FitsPages ctx s)
    (hdepth : 0 ≤ ctx.config.maxLookupDepth) :
    (∀ l ∈ s.readable ctx .lists, ∀ id, l.get? "_id" = some (.text id) →
      listEntities ctx s id (.object []) = .ok (entitiesIn ctx s l) ∧
        (entitiesIn ctx s l).Pairwise fun e e' => e.get? "_id" ≠ e'.get? "_id") ∧
    (∀ e ∈ s.readable ctx .entities, ∀ id, e.get? "_id" = some (.text id) →
      entityLists ctx s id (.object []) = .ok (listsWith ctx s e) ∧
        (listsWith ctx s e).Pairwise fun l l' => l.get? "_id" ≠ l'.get? "_id") ∧
    ∀ l ∈ s.readable ctx .lists, ∀ e ∈ s.readable ctx .entities, ∀ lid eid,
      l.get? "_id" = some (.text lid) → e.get? "_id" = some (.text eid) → lid ≠ "" → eid ≠ "" →
        ∃ entities lists, listEntities ctx s lid (.object []) = .ok entities ∧
          entityLists ctx s eid (.object []) = .ok lists ∧ (e ∈ entities ↔ l ∈ lists) := by
  refine ⟨fun l hl id hid => ⟨listEntities_eq hk hends hfit hdepth hl hid,
      hk.pairwise_readable _⟩,
    fun e he id hid => ⟨entityLists_eq hk hends hfit hdepth he hid, hk.pairwise_readable _⟩,
    fun l hl e he lid eid hlid heid hlist hentity => ?_⟩
  refine ⟨_, _, listEntities_eq hk hends hfit hdepth hl hlid,
    entityLists_eq hk hends hfit hdepth he heid, ?_⟩
  rw [entitiesIn, listsWith, List.mem_filter, List.mem_filter, and_iff_right he,
    and_iff_right hl, Document.field_of_get? hlid, Document.field_of_get? heid,
    Value.truthy_text.2 hlist, Value.truthy_text.2 hentity]

/-! ## Shelves of a library -/

/-- A record with a name and a visibility, and perhaps somebody who may see it. -/
def shelved (id visibility : String) (viewers : List String) : Document :=
  [("_id", .text id), ("_visibility", .text visibility),
    ("_viewerUsers", .array (viewers.map .text))]

/-- A relation between a list and an entity. -/
def shelving (id list entity : String) : Document :=
  [("_id", .text id), ("_listId", .text list), ("_entityId", .text entity)]

/-- Three shelves with books. One book is on a shelf twice, one is missing, and some books and
    shelves are for some readers only. -/
def shelves : Store where
  rows := [
    ⟨"List", "l", shelved "l" "public" []⟩,
    ⟨"List", "m", shelved "m" "private" ["u"]⟩,
    ⟨"List", "n", shelved "n" "private" []⟩,
    ⟨"GenericEntity", "a", shelved "a" "public" []⟩,
    ⟨"GenericEntity", "b", shelved "b" "private" ["u"]⟩,
    ⟨"GenericEntity", "c", shelved "c" "private" []⟩,
    ⟨"ListToEntityRelation", "p", shelving "p" "l" "b"⟩,
    ⟨"ListToEntityRelation", "q", shelving "q" "l" "a"⟩,
    ⟨"ListToEntityRelation", "r", shelving "r" "l" "b"⟩,
    ⟨"ListToEntityRelation", "t", shelving "t" "l" "c"⟩,
    ⟨"ListToEntityRelation", "v", shelving "v" "l" "x"⟩,
    ⟨"ListToEntityRelation", "w", shelving "w" "m" "b"⟩,
    ⟨"ListToEntityRelation", "y", shelving "y" "n" "b"⟩]

/-- A request by the user `u`. -/
def reader : Context where
  config := .standard
  requester := { user := some "u" }
  now := ⟨.first, 0⟩

/-- The reader finds two books on the first shelf, and one of them on two shelves. -/
theorem traversal_exact_shelves :
    (shelves.Keyed ∧ (∀ r ∈ shelves.scan (reader.collection .relations), TextEnds r) ∧
      FitsPages reader shelves ∧ 0 ≤ reader.config.maxLookupDepth) ∧
    listEntities reader shelves "l" (.object []) =
      .ok [shelved "a" "public" [], shelved "b" "private" ["u"]] ∧
    entityLists reader shelves "b" (.object []) =
      .ok [shelved "l" "public" [], shelved "m" "private" ["u"]] ∧
    ∃ entities lists, listEntities reader shelves "l" (.object []) = .ok entities ∧
      entityLists reader shelves "b" (.object []) = .ok lists ∧
      (shelved "b" "private" ["u"] ∈ entities ↔ shelved "l" "public" [] ∈ lists) := by
  have keyed : shelves.Keyed := {
    named := by
      simp only [shelves, List.forall_mem_cons]
      exact ⟨rfl, rfl, rfl, rfl, rfl, rfl, rfl, rfl, rfl, rfl, rfl, rfl, rfl,
        List.forall_mem_nil _⟩
    unique := by simp [shelves] }
  have ends : ∀ r ∈ shelves.scan (reader.collection .relations), TextEnds r := by
    change ∀ r ∈ [shelving "p" "l" "b", shelving "q" "l" "a", shelving "r" "l" "b",
      shelving "t" "l" "c", shelving "v" "l" "x", shelving "w" "m" "b", shelving "y" "n" "b"],
      TextEnds r
    simp only [List.forall_mem_cons]
    exact ⟨⟨⟨_, rfl⟩, ⟨_, rfl⟩⟩, ⟨⟨_, rfl⟩, ⟨_, rfl⟩⟩, ⟨⟨_, rfl⟩, ⟨_, rfl⟩⟩,
      ⟨⟨_, rfl⟩, ⟨_, rfl⟩⟩, ⟨⟨_, rfl⟩, ⟨_, rfl⟩⟩, ⟨⟨_, rfl⟩, ⟨_, rfl⟩⟩,
      ⟨⟨_, rfl⟩, ⟨_, rfl⟩⟩, List.forall_mem_nil _⟩
  have fit : FitsPages reader shelves := fun f => by cases f <;> decide
  have depth : 0 ≤ reader.config.maxLookupDepth := by decide
  obtain ⟨fromList, fromEntity, both⟩ := traversal_exact keyed ends fit depth
  have list : shelved "l" "public" [] ∈ shelves.readable reader .lists :=
    List.mem_filter.2 ⟨List.mem_cons_self, rfl⟩
  have entity : shelved "b" "private" ["u"] ∈ shelves.readable reader .entities :=
    List.mem_filter.2 ⟨List.mem_cons_of_mem _ List.mem_cons_self, rfl⟩
  exact ⟨⟨keyed, ends, fit, depth⟩, (fromList _ list "l" rfl).1, (fromEntity _ entity "b" rfl).1,
    both _ list _ entity "l" "b" rfl rfl (by decide) (by decide)⟩

/-- A list with an entity whose id is empty, and one with a number as id. -/
def oddIds : Store where
  rows := [
    ⟨"List", "l", shelved "l" "public" []⟩,
    ⟨"List", "5", [("_id", .number (.int 5)), ("_visibility", .text "public")]⟩,
    ⟨"GenericEntity", "", shelved "" "public" []⟩,
    ⟨"ListToEntityRelation", "r", shelving "r" "l" ""⟩]

/-- A request by the user `u` where the depth of filters is negative. -/
def flatReader : Context where
  config := { Configuration.standard with maxLookupDepth := -1 }
  requester := { user := some "u" }
  now := ⟨.first, 0⟩

/-- The list does not give the entity with an empty id, which gives the list. A request for the list
    with a number as id is refused, and so is every request where no filter is read. -/
theorem related_not_found :
    (shelved "l" "public" [] ∈ oddIds.readable reader .lists ∧
      shelved "" "public" [] ∈ oddIds.readable reader .entities ∧
      related reader oddIds (shelved "l" "public" []) (shelved "" "public" []) = true ∧
      listEntities reader oddIds "l" (.object []) = .ok [] ∧
      entityLists reader oddIds "" (.object []) = .ok [shelved "l" "public" []]) ∧
    ([("_id", .number (.int 5)), ("_visibility", .text "public")] ∈
        oddIds.readable reader .lists ∧
      listEntities reader oddIds "5" (.object []) = .error (.refused (.notFound .lists "5"))) ∧
    shelved "l" "public" [] ∈ shelves.readable flatReader .lists ∧
      listEntities flatReader shelves "l" (.object []) =
        .error (.refused (.filter (.tooDeep (-1)))) :=
  ⟨⟨List.mem_filter.2 ⟨List.mem_cons_self, rfl⟩, List.mem_filter.2 ⟨List.mem_cons_self, rfl⟩,
    by decide, rfl, rfl⟩,
    ⟨List.mem_filter.2 ⟨List.mem_cons_of_mem _ List.mem_cons_self, rfl⟩, rfl⟩,
    List.mem_filter.2 ⟨List.mem_cons_self, rfl⟩, rfl⟩

end Catalog.Service
