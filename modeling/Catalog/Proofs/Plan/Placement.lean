import Catalog.Proofs.Plan.Listing
import Catalog.Proofs.Plan.Order

/-!
# What lookups and includes place

Lookups and includes place stored records into the pages of a plan, and into what they have placed
(`LookupPlaces`, `IncludePlaces`, `Plan.Places`). Whatever they place, at whatever depth, the
requester may read (`Plan.Places.readable`).

For a family whose records say themselves who may read them this means that what is placed would be
listed, too. Relations are gated in a listing only: whether one that a lookup places would be listed
depends on the list and the entity that it relates, which a lookup does not ask for
(`placed_listed`).
-/

namespace Catalog

variable {ctx : Context} {store : Store} {f g : Family} {page : List Document} {doc : Document}

/-- Lookups on a page place a stored record of a family: one of them does so in a slot of the page,
    or a lookup within it in what it shows, or one that follows. -/
inductive LookupPlaces (ctx : Context) (store : Store) :
    List (Scoped Filter) → List Document → Family → Document → Prop
  | here {path : String} {scope : Filter} {ls : List (Scoped Filter)} {page : List Document}
      {slots : List FilledSlot} {slot : FilledSlot} {ref : Reference} {doc : Document} :
      lookupSlots ctx store path scope page = .ok slots → slot ∈ slots → (ref, doc) ∈ slot.2 →
      LookupPlaces ctx store (⟨path, scope⟩ :: ls) page ref.family doc
  | within {path : String} {scope : Filter} {ls : List (Scoped Filter)} {page : List Document}
      {slots : List FilledSlot} {g : Family} {doc : Document} :
      lookupSlots ctx store path scope page = .ok slots →
      LookupPlaces ctx store scope.lookups (slots.map (FilledSlot.shown scope)).flatten g doc →
      LookupPlaces ctx store (⟨path, scope⟩ :: ls) page g doc
  | later {l : Scoped Filter} {ls : List (Scoped Filter)} {page page' : List Document}
      {g : Family} {doc : Document} :
      lookupOne ctx store l page = .ok page' → LookupPlaces ctx store ls page' g doc →
      LookupPlaces ctx store (l :: ls) page g doc

/-- Includes on a page of a family's records place a stored record of a family: one of them does so
    with a document of the page, or a lookup or an include within it in what it shows, or one that
    follows. -/
inductive IncludePlaces (ctx : Context) (store : Store) :
    Family → List (Scoped Filter) → List Document → Family → Document → Prop
  | here {f target : Family} {name : String} {scope : Filter} {is : List (Scoped Filter)}
      {page : List Document} {groups : List (List Document)} {group : List Document}
      {doc : Document} :
      includeGroups ctx store f name scope page = .ok (target, groups) → group ∈ groups →
      doc ∈ group → IncludePlaces ctx store f (⟨name, scope⟩ :: is) page target doc
  | looked {f target : Family} {name : String} {scope : Filter} {is : List (Scoped Filter)}
      {page : List Document} {groups : List (List Document)} {g : Family} {doc : Document} :
      includeGroups ctx store f name scope page = .ok (target, groups) →
      LookupPlaces ctx store scope.lookups (groups.map (List.map scope.shown)).flatten g doc →
      IncludePlaces ctx store f (⟨name, scope⟩ :: is) page g doc
  | within {f target : Family} {name : String} {scope : Filter} {is : List (Scoped Filter)}
      {page page' : List Document} {groups : List (List Document)} {g : Family} {doc : Document} :
      includeGroups ctx store f name scope page = .ok (target, groups) →
      lookupAll ctx store scope.lookups (groups.map (List.map scope.shown)).flatten = .ok page' →
      IncludePlaces ctx store target scope.includes page' g doc →
      IncludePlaces ctx store f (⟨name, scope⟩ :: is) page g doc
  | later {f : Family} {i : Scoped Filter} {is : List (Scoped Filter)}
      {page page' : List Document} {g : Family} {doc : Document} :
      includeOne ctx store f i page = .ok page' → IncludePlaces ctx store f is page' g doc →
      IncludePlaces ctx store f (i :: is) page g doc

/-- A plan places a stored record of a family: one of its lookups or includes does so in the
    documents that the stages before it leave. -/
inductive Plan.Places (ctx : Context) (store : Store) (plan : Plan) : Family → Document → Prop
  | lookup {before after : List Stage} {lookups : List (Scoped Filter)}
      {loaded page : List Document} {g : Family} {doc : Document} :
      plan.stages = before ++ .lookup lookups :: after → plan.load store = .ok loaded →
      runStages ctx store loaded before = .ok page → LookupPlaces ctx store lookups page g doc →
      Plan.Places ctx store plan g doc
  | includes {before after : List Stage} {f : Family} {scopes : List (Scoped Filter)}
      {loaded page : List Document} {g : Family} {doc : Document} :
      plan.stages = before ++ .includes f scopes :: after → plan.load store = .ok loaded →
      runStages ctx store loaded before = .ok page →
      IncludePlaces ctx store f scopes page g doc → Plan.Places ctx store plan g doc

/-! ## What is placed may be read -/

theorem mem_readable_of_recordsWith {scope : Filter} {field : String} {values : List Value}
    {docs : List Document} (h : recordsWith ctx store f scope field values = .ok docs)
    (hd : doc ∈ docs) : doc ∈ store.readable ctx f := by
  rw [recordsWith_eq] at h
  obtain ⟨c, hc, h⟩ := bind_eq_ok.1 h
  obtain ⟨hs, hm⟩ := of_mem_selection h hd
  exact List.mem_filter.2 ⟨hs, Condition.met_iff.2 (access_of_baseCondition hc hm)⟩

theorem mem_readable_of_recordsNamed {scope : Filter} {refs : List Reference} {ref : Reference}
    {found : List (Reference × Document)}
    (h : recordsNamed ctx store scope refs f = .ok found) (hm : (ref, doc) ∈ found) :
    doc ∈ store.readable ctx ref.family := by
  rw [recordsNamed] at h
  split at h
  · cases h
    exact nomatch hm
  · obtain ⟨docs, hdocs, h⟩ := bind_eq_ok.1 h
    cases h
    obtain ⟨d, hd, hr⟩ := List.mem_filterMap.1 hm
    split at hr
    · cases hr
      exact mem_readable_of_recordsWith hdocs hd
    · exact nomatch hr

theorem mem_readable_of_recordsOf {scope : Filter} {refs : List Reference} {ref : Reference}
    {found : List (Reference × Document)} (h : recordsOf ctx store scope refs = .ok found)
    (hm : (ref, doc) ∈ found) : doc ∈ store.readable ctx ref.family := by
  obtain ⟨parts, hp, h⟩ := bind_eq_ok.1 h
  cases h
  obtain ⟨part, hpart, hm⟩ := List.mem_flatten.1 hm
  obtain ⟨f, -, hf⟩ := mem_of_mapM hp hpart
  exact mem_readable_of_recordsNamed hf hm

theorem mem_readable_of_lookupSlots {path : String} {scope : Filter} {slots : List FilledSlot}
    {slot : FilledSlot} {ref : Reference}
    (h : lookupSlots ctx store path scope page = .ok slots) (hs : slot ∈ slots)
    (hm : (ref, doc) ∈ slot.2) : doc ∈ store.readable ctx ref.family := by
  obtain ⟨found, hf, h⟩ := bind_eq_ok.1 h
  cases h
  obtain ⟨v, -, rfl⟩ := List.mem_map.1 hs
  -- A slot shows what its references name among the records that were loaded: a page of them, or
  -- the first of a page.
  have hm : (ref, doc) ∈ (slotReferences v).filterMap fun r =>
      (found.lookup r).map fun d => (r, d) := by
    dsimp only [slotShown] at hm
    split at hm
    · exact mem_of_mem_page hm
    · exact mem_of_mem_page (List.mem_of_mem_take hm)
  obtain ⟨r, -, hr⟩ := List.mem_filterMap.1 hm
  obtain ⟨d, hd, hr⟩ := Option.map_eq_some_iff.1 hr
  cases hr
  obtain ⟨before, after, rfl, -⟩ := List.lookup_eq_some_iff.1 hd
  exact mem_readable_of_recordsOf hf (by simp)

theorem mem_readable_of_includeGroups {name : String} {scope : Filter} {target : Family}
    {groups : List (List Document)} {group : List Document}
    (h : includeGroups ctx store f name scope page = .ok (target, groups)) (hg : group ∈ groups)
    (hd : doc ∈ group) : doc ∈ store.readable ctx target := by
  rw [includeGroups] at h
  split at h
  · exact nomatch h
  · next target' via _ =>
    obtain ⟨ids, -, h⟩ := bind_eq_ok.1 h
    obtain ⟨children, hc, h⟩ := bind_eq_ok.1 h
    obtain ⟨keyed, hk, h⟩ := bind_eq_ok.1 h
    obtain ⟨-, -, h⟩ := bind_eq_ok.1 h
    cases h
    obtain ⟨own, -, rfl⟩ := List.mem_map.1 hg
    obtain ⟨⟨key, d⟩, hkd, rfl⟩ := List.mem_map.1 (mem_of_mem_page hd)
    -- The children of a record are those of all loaded ones that have its id as their key.
    obtain ⟨d', hd', he⟩ := mem_of_mapM (lift_eq_ok.1 hk) (List.mem_filter.1 hkd).1
    obtain ⟨key', -, he⟩ := bind_eq_ok.1 he
    cases he
    exact mem_readable_of_recordsWith (lift_eq_ok.1 hc) hd'

/-- What lookups place may be read. -/
theorem LookupPlaces.readable {ls : List (Scoped Filter)}
    (h : LookupPlaces ctx store ls page g doc) : doc ∈ store.readable ctx g := by
  induction h with
  | here hl hs hm => exact mem_readable_of_lookupSlots hl hs hm
  | within _ _ ih => exact ih
  | later _ _ ih => exact ih

/-- What includes place may be read. -/
theorem IncludePlaces.readable {is : List (Scoped Filter)}
    (h : IncludePlaces ctx store f is page g doc) : doc ∈ store.readable ctx g := by
  induction h with
  | here hi hg hd => exact mem_readable_of_includeGroups hi hg hd
  | looked _ hl => exact hl.readable
  | within _ _ _ ih => exact ih
  | later _ _ ih => exact ih

/-- What a plan places may be read. -/
theorem Plan.Places.readable {plan : Plan} (h : plan.Places ctx store g doc) :
    doc ∈ store.readable ctx g := by
  cases h with
  | lookup _ _ _ hl => exact hl.readable
  | includes _ _ _ hi => exact hi.readable

/-- What a plan places would be listed, if it is no relation; a relation would be exactly if all
    relations can be joined and its own list and entity may be read. -/
theorem placed_listed (plan : Plan) (h : plan.Places ctx store g doc) :
    (g ≠ .relations → Listed ctx store g doc) ∧
      (g = .relations → store.Keyed →
        (∀ f, f = .lists ∨ f = .entities → store.TextIds (ctx.collection f)) →
        (Listed ctx store g doc ↔ Joinable ctx store ∧ EndsReadable ctx store doc)) := by
  refine ⟨fun hg => ?_, ?_⟩
  · exact ⟨_, listing_eq_readable hg, doc, h.readable, rfl⟩
  · rintro rfl hk ht
    refine listed_relation_iff hk ht ?_
    rw [← Store.readable_relations]
    exact h.readable

end Catalog
