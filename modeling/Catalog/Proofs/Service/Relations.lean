import Catalog.Proofs.Plan.Loading
import Catalog.Proofs.Plan.Relations
import Catalog.Proofs.Service.Listed
import Mathlib.Data.List.Basic

/-!
# Relations are listed as an inner join

The relations that a query selects, before they are sorted, cut to a page and shown, are those that
it seeks, joined with the list and the entity that they name, if the query seeks these and the
requester may read them (`relations_joined`). They come in the order of the store, and show of both
ends the metadata only.

A plan demands what a query seeks as one condition (`met_baseCondition`). What it says of an end
becomes a condition on the joined relation, where it has the same answer.
-/

namespace Catalog

namespace Service

variable {ctx : Context} {s : Store} {f : Family} {query : Value} {docs : List Document}

/-! ## What a query seeks -/

/-- A document is in a set, if one is given. -/
def InSet (ctx : Context) (set : Option SetExpr) (doc : Document) : Prop :=
  ∃ c, SetExpr.conditionOf ctx.now set = .ok c ∧ c.Met doc

/-- A document meets the condition of a filter, and is in its set and in another one. -/
structure Sought (ctx : Context) (g : Filter) (set : Option SetExpr) (doc : Document) : Prop where
  condition : g.condition.Met doc
  filterSet : InSet ctx g.set doc
  set : InSet ctx set doc

/-- What a plan demands is what the query seeks, where the requester may read it. -/
theorem met_baseCondition {g : Filter} {set : Option SetExpr} {c : Condition}
    (h : baseCondition ctx f g set .always = .ok c) (doc : Document) :
    c.Met doc ↔ Sought ctx g set doc ∧ (ctx.access f).Met doc := by
  obtain ⟨own, hown, h⟩ := bind_eq_ok.1 h
  obtain ⟨given, hgiven, h⟩ := bind_eq_ok.1 h
  cases h
  rw [Condition.met_conj]
  simp only [List.forall_mem_cons]
  constructor
  · rintro ⟨hcondition, hfilterSet, hset, hread, -⟩
    exact ⟨⟨hcondition, ⟨own, hown, hfilterSet⟩, ⟨given, hgiven, hset⟩⟩, hread⟩
  · rintro ⟨hsought, hread⟩
    obtain ⟨own', hown', hfilterSet⟩ := hsought.filterSet
    obtain ⟨given', hgiven', hset⟩ := hsought.set
    cases hown.symm.trans hown'
    cases hgiven.symm.trans hgiven'
    exact ⟨hsought.condition, hfilterSet, hset, hread, rfl, List.forall_mem_nil _⟩

/-- What a plan demands is not about the id if the condition of the filter is not. -/
theorem ids?_baseCondition {g : Filter} {set : Option SetExpr} {c : Condition}
    (hids : g.condition.AllLeaves fun l => l.path ≠ "_id")
    (h : baseCondition ctx f g set .always = .ok c) : c.ids? = .ok none := by
  obtain ⟨own, hown, h⟩ := bind_eq_ok.1 h
  obtain ⟨given, hgiven, h⟩ := bind_eq_ok.1 h
  cases h
  refine ids?_of_allLeaves (Condition.allLeaves_conj ?_)
  simp only [List.forall_mem_cons]
  exact ⟨hids, (SetExpr.gives_conditionOf _ _ _ hown).mono fun _ h => h.field,
    (SetExpr.gives_conditionOf _ _ _ hgiven).mono fun _ h => h.field,
    (Requester.allLeaves_predicate _ _ _).mono fun _ h => h.field, .always,
    List.forall_mem_nil _⟩

/-! ## The ends of a relation -/

/-- A relation names by a field this list or entity, which is stored, which the requester may read
    and which the query seeks. -/
structure IsEnd (ctx : Context) (s : Store) (target : Family) (field : String) (g : Filter)
    (set : Option SetExpr) (relation doc : Document) : Prop where
  stored : doc ∈ s.scan (ctx.collection target)
  named : ∃ id, relation.get? field = some (.text id) ∧ doc.get? "_id" = some (.text id)
  sought : Sought ctx g set doc
  readable : (ctx.access target).Met doc

/-- A relation is one of this list and this entity. -/
structure Joins (ctx : Context) (s : Store) (scopes : RelationScopes)
    (relation list entity : Document) : Prop where
  list : IsEnd ctx s .lists "_listId" scopes.listFilter scopes.listSet relation list
  entity : IsEnd ctx s .entities "_entityId" scopes.entityFilter scopes.entitySet relation entity

/-- What a relation names and meets what the plan demands of it is its end. -/
theorem filter_endOf_eq_some (hk : s.Keyed) {target : Family} {field : String} {g : Filter}
    {set : Option SetExpr} {c : Condition} {relation doc : Document}
    (hc : baseCondition ctx target g set .always = .ok c)
    (htext : ∃ id, relation.get? field = some (.text id)) :
    (endOf (s.scan (ctx.collection target)) field relation).filter c.met = some doc ↔
      IsEnd ctx s target field g set relation doc := by
  obtain ⟨id, hid⟩ := htext
  rw [Option.filter_eq_some_iff, endOf_eq_some hk hid, Condition.met_iff, met_baseCondition hc]
  constructor
  · rintro ⟨⟨hstored, hnamed⟩, hsought, hread⟩
    exact ⟨hstored, ⟨id, hid, hnamed⟩, hsought, hread⟩
  · rintro ⟨hstored, ⟨id', hid', hnamed⟩, hsought, hread⟩
    cases hid.symm.trans hid'
    exact ⟨⟨hstored, hnamed⟩, hsought, hread⟩

/-- What is listed of a relation is the relation joined with its ends. -/
theorem joinedRelation?_eq_some (hk : s.Keyed) {scopes : RelationScopes}
    {lists entities : Condition} {relation shown : Document} (htexts : TextEnds relation)
    (hl : baseCondition ctx .lists scopes.listFilter scopes.listSet .always = .ok lists)
    (he : baseCondition ctx .entities scopes.entityFilter scopes.entitySet .always =
      .ok entities) :
    joinedRelation? ctx s lists entities relation = some shown ↔
      ∃ l e, Joins ctx s scopes relation l e ∧ shown = relation.joinedWith l e := by
  constructor
  · intro h
    obtain ⟨l, hlist, h⟩ := Option.bind_eq_some_iff.1 h
    obtain ⟨e, hentity, h⟩ := Option.bind_eq_some_iff.1 h
    cases h
    exact ⟨l, e, ⟨(filter_endOf_eq_some hk hl htexts.list).1 hlist,
      (filter_endOf_eq_some hk he htexts.entity).1 hentity⟩, rfl⟩
  · rintro ⟨l, e, hjoins, rfl⟩
    rw [joinedRelation?, (filter_endOf_eq_some hk hl htexts.list).2 hjoins.list,
      (filter_endOf_eq_some hk he htexts.entity).2 hjoins.entity]
    rfl

/-! ## Listing relations -/

/-- A query for relations can be answered: there are conditions for them, their lists and their
    entities, and these have an answer wherever they are asked. -/
def Answerable (ctx : Context) (s : Store) (g : Filter) (set : Option SetExpr)
    (scopes : RelationScopes) : Prop :=
  ∃ base lists entities, baseCondition ctx .relations g set .always = .ok base ∧
    baseCondition ctx .lists scopes.listFilter scopes.listSet .always = .ok lists ∧
    baseCondition ctx .entities scopes.entityFilter scopes.entitySet .always = .ok entities ∧
    ∀ r ∈ s.scan (ctx.collection .relations), (∃ b, base.holds (.object r) = .ok b) ∧
      (base.Met r → EndsAnswered ctx s lists entities r)

/-- Every relation may be read by everybody. -/
theorem met_access_relations (ctx : Context) (doc : Document) :
    (ctx.access .relations).Met doc := by
  rw [Context.access, Requester.predicate, if_pos (by simp [Family.hasAccessFields])]
  rfl

/-- Selecting relations and joining them joins each of those that the query seeks. -/
theorem selectedRecords_relations (hk : s.Keyed)
    (htexts : ∀ r ∈ s.scan (ctx.collection .relations), TextEnds r) {g : Filter}
    {set : Option SetExpr} {scopes : RelationScopes} {base lists entities : Condition}
    (hids : g.condition.AllLeaves fun l => l.path ≠ "_id")
    (hbase : baseCondition ctx .relations g set .always = .ok base)
    (hl : baseCondition ctx .lists scopes.listFilter scopes.listSet .always = .ok lists)
    (he : baseCondition ctx .entities scopes.entityFilter scopes.entitySet .always =
      .ok entities) :
    selectedRecords ctx s .relations g set .always (some scopes) = .ok docs ↔
      (∀ r ∈ s.scan (ctx.collection .relations), (∃ b, base.holds (.object r) = .ok b) ∧
        (base.Met r → EndsAnswered ctx s lists entities r)) ∧
      docs = ((s.scan (ctx.collection .relations)).filter base.met).filterMap
        (joinedRelation? ctx s lists entities) := by
  have joined {found : List Document} (joins : List Stage)
      (hjoins : joinStages ctx .relations scopes = .ok joins) :
      runStages ctx s found joins = .ok docs ↔
        joinBoth ctx s lists entities found = .ok docs := by
    obtain ⟨lists', entities', hl', he', run⟩ := runStages_joinStages hjoins
    cases hl.symm.trans hl'
    cases he.symm.trans he'
    have ran := run s found []
    rw [List.append_nil] at ran
    rw [ran]
    exact (bind_pure (joinBoth ctx s lists entities found : Outcome _)).symm ▸ lift_eq_ok
  have texts : ∀ r ∈ (s.scan (ctx.collection .relations)).filter base.met, TextEnds r :=
    fun r hr => htexts r (List.mem_filter.1 hr).1
  rw [selectedRecords_eq_ok]
  constructor
  · rintro ⟨base', joins, found, hbase', hjoins, hfound, hrun⟩
    cases hbase.symm.trans hbase'
    rw [selection_of_silent (ids?_baseCondition hids hbase)] at hfound
    obtain ⟨hanswered, rfl⟩ := selectDocuments_eq_ok.1 hfound
    obtain ⟨hends, rfl⟩ := (joinBoth_texts hk texts).1 ((joined joins hjoins).1 hrun)
    refine ⟨fun r hr => ⟨⟨_, hanswered r hr⟩, fun hm => hends r ?_⟩, rfl⟩
    exact List.mem_filter.2 ⟨hr, Condition.met_iff.2 hm⟩
  · rintro ⟨hanswered, rfl⟩
    obtain ⟨joins, hjoins⟩ := exists_joinStages hl he
    refine ⟨base, joins, _, hbase, hjoins, ?_, (joined joins hjoins).2
      ((joinBoth_texts hk texts).2 ⟨fun r hr => ?_, rfl⟩)⟩
    · rw [selection_of_silent (ids?_baseCondition hids hbase)]
      exact selectDocuments_answered fun r hr => (hanswered r hr).1
    · obtain ⟨hr, hm⟩ := List.mem_filter.1 hr
      exact (hanswered r hr).2 (Condition.met_iff.1 hm)

/-- A query that says nothing of the ids of relations selects those that it seeks and that have a
    list and an entity which it seeks and which the requester may read, in the order of the store.
    Each is shown with the metadata of both. -/
theorem relations_joined (hk : s.Keyed)
    (htexts : ∀ r ∈ s.scan (ctx.collection .relations), TextEnds r) {g : Filter}
    {set : Option SetExpr} {scopes : RelationScopes}
    (hread : Reads ctx .relations query (pageFilter ctx .relations) g set (some scopes))
    (hids : g.condition.AllLeaves fun l => l.path ≠ "_id") :
    findSelected ctx s .relations query = .ok docs ↔
      g.includes = [] ∧ Answerable ctx s g set scopes ∧
      ∃ shown : Document → Option Document,
        docs = (s.scan (ctx.collection .relations)).filterMap shown ∧
        ∀ r ∈ s.scan (ctx.collection .relations), ∀ d, shown r = some d ↔
          Sought ctx g set r ∧ ∃ l e, Joins ctx s scopes r l e ∧ d = r.joinedWith l e := by
  -- Each relation that meets the demand is joined, and the others are left out.
  have each {base lists entities : Condition}
      (hbase : baseCondition ctx .relations g set .always = .ok base)
      (hl : baseCondition ctx .lists scopes.listFilter scopes.listSet .always = .ok lists)
      (he : baseCondition ctx .entities scopes.entityFilter scopes.entitySet .always =
        .ok entities) {r : Document} (hr : r ∈ s.scan (ctx.collection .relations)) (d : Document) :
      (if base.met r then joinedRelation? ctx s lists entities r else none) = some d ↔
        Sought ctx g set r ∧ ∃ l e, Joins ctx s scopes r l e ∧ d = r.joinedWith l e := by
    rw [← joinedRelation?_eq_some hk (htexts r hr) hl he]
    have demanded : base.met r = true ↔ Sought ctx g set r :=
      Condition.met_iff.trans <| (met_baseCondition hbase r).trans <|
        and_iff_left (met_access_relations ctx r)
    by_cases hm : base.met r = true
    · rw [if_pos hm, and_iff_right (demanded.1 hm)]
    · rw [if_neg hm]
      exact iff_of_false nofun fun h => hm (demanded.2 h.1)
  rw [findSelected_eq_ok]
  constructor
  · rintro ⟨g', set', scopes', hread', hcheck, hrecords⟩
    cases hread.filter.symm.trans hread'.filter
    cases hread.set.symm.trans hread'.set
    cases hread.scopes.symm.trans hread'.scopes
    obtain ⟨base, joins, found, hbase, hjoins, -, -⟩ := selectedRecords_eq_ok.1 hrecords
    obtain ⟨lists, entities, hl, he, -⟩ := runStages_joinStages hjoins
    obtain ⟨hanswered, rfl⟩ :=
      (selectedRecords_relations hk htexts hids hbase hl he).1 hrecords
    refine ⟨checkIncludes_eq_ok rfl hcheck, ⟨base, lists, entities, hbase, hl, he, hanswered⟩, _,
      List.filterMap_filter, fun r hr d => each hbase hl he hr d⟩
  · rintro ⟨hincludes, ⟨base, lists, entities, hbase, hl, he, hanswered⟩, shown, rfl, hshown⟩
    refine ⟨g, set, some scopes, hread, by rw [hincludes]; rfl,
      (selectedRecords_relations hk htexts hids hbase hl he).2 ⟨hanswered, ?_⟩⟩
    rw [List.filterMap_filter]
    refine List.filterMap_congr fun r hr => Option.ext fun d => ?_
    exact (hshown r hr d).trans (each hbase hl he hr d).symm

/-! ## Pinned relations of open lists -/

/-- A list that is open. -/
def openList (id visibility : String) : Document :=
  [("_id", .text id), ("_visibility", .text visibility), ("open", .bool true)]

/-- A relation between a list and the entity `e`, which may be pinned. -/
def pinnedRelation (id list : String) (pinned : Bool) : Document :=
  [("_id", .text id), ("_listId", .text list), ("_entityId", .text "e"), ("pinned", .bool pinned)]

/-- A public and a private list with the same entity, which is in the public one twice. -/
def openLists : Store where
  rows := [
    ⟨"List", "l", openList "l" "public"⟩,
    ⟨"List", "m", openList "m" "private"⟩,
    ⟨"GenericEntity", "e", publicEntity "e"⟩,
    ⟨"ListToEntityRelation", "p", pinnedRelation "p" "l" false⟩,
    ⟨"ListToEntityRelation", "q", pinnedRelation "q" "m" true⟩,
    ⟨"ListToEntityRelation", "r", pinnedRelation "r" "l" true⟩]

/-- The query for the pinned relations of open lists. -/
def pinnedQuery : Value :=
  .object [("filter", .object [("where", .object [("pinned", .bool true)])]),
    ("listFilter", .object [("where", .object [("open", .bool true)])])]

/-- What is read of its filter. -/
def pinnedFilter : Filter where
  condition := .leaf ⟨"pinned", .eq, .bool true, none⟩
  limit := some 50

/-- What is read of its filter for lists. -/
def openScopes : RelationScopes where
  listFilter := { condition := .leaf ⟨"open", .eq, .bool true, none⟩ }

/-- Of the pinned relations, the one is listed whose list is public. It shows the visibility of the
    list, but not that this is open. -/
theorem relations_joined_pinned :
    (openLists.Keyed ∧ (∀ r ∈ openLists.scan (nobody.collection .relations), TextEnds r) ∧
      Reads nobody .relations pinnedQuery (pageFilter nobody .relations) pinnedFilter none
        (some openScopes) ∧
      pinnedFilter.condition.AllLeaves fun l => l.path ≠ "_id") ∧
    findSelected nobody openLists .relations pinnedQuery =
      .ok [pinnedRelation "r" "l" true ++
        [("_fromMetadata", .object [("_visibility", .text "public")]),
          ("_toMetadata", .object [("_visibility", .text "public")])]] ∧
    Answerable nobody openLists pinnedFilter none openScopes := by
  have keyed : openLists.Keyed := {
    named := by
      simp only [openLists, List.forall_mem_cons]
      exact ⟨rfl, rfl, rfl, rfl, rfl, rfl, List.forall_mem_nil _⟩
    unique := by simp [openLists] }
  have texts : ∀ r ∈ openLists.scan (nobody.collection .relations), TextEnds r := by
    change ∀ r ∈ [pinnedRelation "p" "l" false, pinnedRelation "q" "m" true,
      pinnedRelation "r" "l" true], TextEnds r
    simp only [List.forall_mem_cons]
    exact ⟨⟨⟨_, rfl⟩, ⟨_, rfl⟩⟩, ⟨⟨_, rfl⟩, ⟨_, rfl⟩⟩, ⟨⟨_, rfl⟩, ⟨_, rfl⟩⟩, List.forall_mem_nil _⟩
  have read : Reads nobody .relations pinnedQuery (pageFilter nobody .relations) pinnedFilter none
      (some openScopes) := ⟨by cbv, by cbv, by cbv⟩
  have ids : pinnedFilter.condition.AllLeaves fun l => l.path ≠ "_id" := .leaf (by decide)
  have found : findSelected nobody openLists .relations pinnedQuery =
      .ok [pinnedRelation "r" "l" true ++
        [("_fromMetadata", .object [("_visibility", .text "public")]),
          ("_toMetadata", .object [("_visibility", .text "public")])]] := by cbv
  exact ⟨⟨keyed, texts, read, ids⟩, found, ((relations_joined keyed texts read ids).1 found).2.1⟩

end Service

end Catalog
