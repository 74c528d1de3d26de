import Catalog.Policy.Reading
import Catalog.Proofs.Plan.Placement
import Catalog.Service.Read

/-!
# Listings and what lookups show

A request without a query is answered what the requester is listed of a family, up to the family's
limit (`find_nothing`). What lookups and includes show of a family is in its listing, but for
relations: a lookup shows a relation that is referred to, though its list is private and no listing
has it (`lookup_shows_unlisted_relation`).
-/

namespace Catalog.Service

variable {ctx : Context} {store : Store} {f : Family}

/-- A filter that is not given says nothing but how many records there may be. -/
theorem read_null (bounds : FilterBounds) (h : 0 ≤ bounds.depth) :
    ∃ limit, readLimit .null bounds.defaultLimit bounds.maximumLimit = .ok limit ∧
      Filter.read bounds .null = .ok { limit } := by
  obtain ⟨n, hn⟩ : ∃ n, (bounds.depth + 1).toNat = n + 1 := ⟨bounds.depth.toNat, by omega⟩
  refine ⟨_, rfl, ?_⟩
  rw [Filter.read, hn]
  rfl

/-- Where no limit is said and the default is the greatest one, it is this. -/
theorem readLimit_null (limit : Int) :
    readLimit .null (some limit) (some limit) = .ok (some limit) := by
  change Except.ok (some (if limit > limit then limit else limit)) = _
  rw [ite_self]

/-- Of a query that says nothing only the limit of the family is left. -/
theorem pageFilter_null (h : 0 ≤ ctx.config.maxLookupDepth) :
    pageFilter ctx f .null = .ok { limit := some (ctx.config.policy f).responseLimit } := by
  obtain ⟨limit, hl, hr⟩ := read_null
    { defaultLimit := some (ctx.config.policy f).responseLimit,
      maximumLimit := some (ctx.config.policy f).responseLimit,
      depth := ctx.config.maxLookupDepth } h
  cases (readLimit_null _).symm.trans hl
  exact hr

theorem scopesFor_nothing (h : 0 ≤ ctx.config.maxLookupDepth) :
    scopesFor ctx f (.object []) = .ok (if f = .relations then some {} else none) := by
  have unfiltered : fullFilter ctx .null = .ok {} := by
    obtain ⟨limit, hl, hr⟩ := read_null { depth := ctx.config.maxLookupDepth } h
    cases hl
    exact hr
  have given : relationScopes ctx (.object []) = .ok {} := by
    change (do
      let listFilter ← fullFilter ctx .null
      let entityFilter ← fullFilter ctx .null
      return ({ listFilter, listSet := none, entityFilter, entitySet := none } :
        RelationScopes)) = _
    rw [unfiltered]
    rfl
  rw [scopesFor, given]
  split <;> rfl

theorem findPlan_nothing (h : 0 ≤ ctx.config.maxLookupDepth) :
    findPlan ctx f (.object []) .always =
      Plan.query ctx f { limit := some (ctx.config.policy f).responseLimit } none .always
        (if f = .relations then some {} else none) := by
  change (do
    let filter ← pageFilter ctx f .null
    let scopes ← scopesFor ctx f (.object [])
    Plan.query ctx f filter none .always scopes) = _
  rw [pageFilter_null h, scopesFor_nothing h]
  rfl

/-- A filter without conditions is planned as reading all that may be read, joining, and what the
    filter asks for after that. -/
theorem query_unconditional {filter : Filter} {tail : List Stage} {scopes : Option RelationScopes}
    (hb : baseCondition ctx f filter none .always = .ok (ctx.access f))
    (hs : scopes.getD {} = {}) (ht : tailStages f filter = .ok tail) :
    Plan.query ctx f filter none .always scopes =
      (joinStages ctx f {} : Outcome _) >>= fun joins =>
        .ok (Plan.ofStages ctx f (.select (ctx.access f) :: (joins ++ tail))) := by
  rw [Plan.query, hb, hs, ht]
  rfl

/-- Without a query the records of a family are found as they are listed, up to its limit. -/
theorem find_nothing (h : 0 ≤ ctx.config.maxLookupDepth) :
    find ctx store f (.object []) =
      (listing ctx store f).map (takeLimit (ctx.config.policy f).responseLimit) := by
  -- Both plans have the same stages but for the limit at the end.
  have limited : Plan.query ctx f { limit := some (ctx.config.policy f).responseLimit } none
      .always (if f = .relations then some {} else none) = _ :=
    query_unconditional (baseCondition_nothing ctx f) (by split <;> rfl) rfl
  have unlimited : Plan.query ctx f {} = _ :=
    query_unconditional (baseCondition_nothing ctx f) rfl (tailStages_nothing f)
  rw [find, findPlan_nothing h, limited, listing, unlimited]
  cases joinStages ctx f {} with
  | error e => rfl
  | ok joins =>
    change (Plan.ofStages ctx f (.select _ :: _)).run ctx store =
      ((Plan.ofStages ctx f (.select _ :: _)).run ctx store).map _
    rw [run_ofStages, run_ofStages, selection_access]
    change runStages ctx store _ (joins ++ _) = (runStages ctx store _ (joins ++ [])).map _
    rw [runStages_append, List.append_nil]
    cases runStages ctx store (store.readable ctx f) joins <;> rfl

/-! ## A relation of a private list -/

/-- A private list, an entity for everybody that refers to a relation, and this relation, which puts
    the entity into the list. -/
def behindPrivateList : Store where
  rows := [
    ⟨"List", "l", [("_id", .text "l"), ("_visibility", .text "private")]⟩,
    ⟨"GenericEntity", "e", [("_id", .text "e"), ("_visibility", .text "public"),
      ("ref", .text "tapp://localhost/list-entity-relations/r")]⟩,
    ⟨"ListToEntityRelation", "r",
      [("_id", .text "r"), ("_listId", .text "l"), ("_entityId", .text "e")]⟩]

/-- A query that looks up what the field `ref` refers to. -/
def refQuery : Value :=
  .object [("filter", .object [("lookup", .array [.object [("prop", .text "ref")]])])]

/-- The relation is not listed, but the lookup shows it. -/
theorem lookup_shows_unlisted_relation :
    let ctx : Context := { config := .standard, now := ⟨.first, 0⟩ }
    (listing ctx behindPrivateList .relations).toOption.map List.length = some 0 ∧
      (find ctx behindPrivateList .entities refQuery).toOption.map
          (List.map fun d => (d.path? "ref._id").map Value.display) = some [some "r"] := by
  decide +kernel

/-- What the lookup places would be listed if its list and its entity could be read. -/
theorem placed_listed_behind_private_list :
    let ctx : Context := { config := .standard, now := ⟨.first, 0⟩ }
    let plan := Plan.ofStages ctx .entities
      [.select .always, .lookup [{ name := "ref", scope := {} }]]
    ∃ doc, plan.Places ctx behindPrivateList .relations doc ∧
      (Listed ctx behindPrivateList .relations doc ↔
        Joinable ctx behindPrivateList ∧ EndsReadable ctx behindPrivateList doc) := by
  intro ctx plan
  have filled : (lookupSlots ctx behindPrivateList "ref" {}
      (behindPrivateList.scan "GenericEntity")).toOption.map
        (List.map fun slot => slot.2.map Prod.fst) = some [[⟨.relations, "r"⟩]] := by
    decide +kernel
  obtain ⟨slots, hslots, hrefs⟩ := Option.map_eq_some_iff.1 filled
  have hslots := toOption_eq_some.1 hslots
  obtain ⟨⟨v, records⟩, rfl, hrecords⟩ := List.map_eq_singleton_iff.1 hrefs
  obtain ⟨⟨ref, doc⟩, rfl, rfl⟩ := List.map_eq_singleton_iff.1 hrecords
  have loaded : runStages ctx behindPrivateList (behindPrivateList.scan "GenericEntity")
      [.select .always] = .ok (behindPrivateList.scan "GenericEntity") := by
    rw [runStages, List.foldlM_cons, Stage.run, selectDocuments_always]
    rfl
  have stages : plan.stages =
      [.select .always] ++ .lookup [{ name := "ref", scope := {} }] :: [] := rfl
  have places : plan.Places ctx behindPrivateList .relations doc :=
    .lookup stages rfl loaded (.here hslots List.mem_cons_self List.mem_cons_self)
  have keyed : behindPrivateList.Keyed :=
    { named := by
        simp only [behindPrivateList, List.forall_mem_cons]
        exact ⟨rfl, rfl, rfl, List.forall_mem_nil _⟩
      unique := by decide }
  refine ⟨doc, places, (placed_listed plan places).2 rfl keyed ?_⟩
  rintro f (rfl | rfl)
  · exact List.forall_mem_cons.2 ⟨⟨"l", rfl⟩, List.forall_mem_nil _⟩
  · exact List.forall_mem_cons.2 ⟨⟨"e", rfl⟩, List.forall_mem_nil _⟩

end Catalog.Service
