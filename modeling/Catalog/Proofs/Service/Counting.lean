import Catalog.Proofs.Plan.Relations
import Catalog.Proofs.Rule.Kept
import Catalog.Proofs.Rule.Parameters
import Catalog.Proofs.Service.Finding
import Catalog.Proofs.Service.Paging
import Catalog.Proofs.Service.Showing

/-!
# Limits count what a client would list

The number of records that a limit counts in its scope is the one that a request for the number of
records gives for the scope as its query (`countInScope_eq_count`), whatever it is about: if one
meets a fault, so does the other.

Relations are joined with their lists and entities for the request and not for the limit. Where each
relation names stored ones by texts and everything may be read, none is lost by this
(`joinedRecords_stored`).
-/

namespace Catalog

namespace Service

variable {ctx : Context} {s : Store} {f : Family} {members : Document} {docs : List Document}

/-! ## Joining loses nothing -/

/-- Each relation names a stored list and a stored entity by texts. -/
def EndsStored (config : Configuration) (s : Store) : Prop :=
  ∀ d ∈ s.scan (config.policy .relations).collection, ∀ r ∈ Family.relations.references,
    ∃ id, d.get? r.1 = some (.text id) ∧
      ∃ e ∈ s.scan (config.policy r.2).collection, e.get? "_id" = some (.text id)

/-- Without access control everything may be read. -/
theorem access_uncontrolled (h : ctx.config.accessControl = false) (f : Family) :
    ctx.access f = .always := by
  rw [Context.access, h, Requester.predicate]
  rfl

/-- A relation that names stored records by texts is joined with them. -/
theorem exists_joinedRelation? (hk : s.Keyed) {relation : Document}
    (hends : ∀ r ∈ Family.relations.references, ∃ id, relation.get? r.1 = some (.text id) ∧
      ∃ e ∈ s.scan (ctx.config.policy r.2).collection, e.get? "_id" = some (.text id)) :
    (joinedRelation? ctx s .always .always relation).isSome = true := by
  obtain ⟨listId, hlistId, list, hlist, hlistIs⟩ := hends ("_listId", .lists) (by decide)
  obtain ⟨entityId, hentityId, entity, hentity, hentityIs⟩ :=
    hends ("_entityId", .entities) (by decide)
  have listed : endOf (s.scan (ctx.collection .lists)) "_listId" relation = some list :=
    (endOf_eq_some hk hlistId).2 ⟨hlist, hlistIs⟩
  have named : endOf (s.scan (ctx.collection .entities)) "_entityId" relation = some entity :=
    (endOf_eq_some hk hentityId).2 ⟨hentity, hentityIs⟩
  rw [joinedRelation?, listed, named]
  rfl

/-- Joined relations are as many as the relations, where each has its ends and everything may be
    read. -/
theorem joinedRecords_stored (hk : s.Keyed) (hends : EndsStored ctx.config s)
    (haccess : ctx.config.accessControl = false) (hdocs : docs ⊆ s.scan (ctx.collection f)) :
    ∃ shown, joinedRecords ctx s f docs = .ok shown ∧ shown.length = docs.length := by
  by_cases hf : f = .relations
  · subst hf
    have texts : ∀ r ∈ docs, TextEnds r := fun r hr =>
      { list := (hends r (hdocs hr) ("_listId", .lists) (by decide)).imp fun _ h => h.1
        entity := (hends r (hdocs hr) ("_entityId", .entities) (by decide)).imp fun _ h => h.1 }
    have answered : ∀ r ∈ docs, EndsAnswered ctx s .always .always r := fun r hr =>
      { list := fun _ _ => ⟨true, rfl⟩
        entity := fun _ _ _ _ _ => ⟨true, rfl⟩ }
    have joined : joinedRecords ctx s .relations docs = joinBoth ctx s .always .always docs := by
      rw [joinedRecords, if_pos rfl, joinRelations, access_uncontrolled haccess,
        access_uncontrolled haccess]
      rfl
    refine ⟨_, joined.trans ((joinBoth_texts hk texts).2 ⟨answered, rfl⟩), ?_⟩
    exact List.filterMap_length_eq_length.2
      fun r hr => exists_joinedRelation? hk (hends r (hdocs hr))
  · exact ⟨docs, if_neg hf, rfl⟩

/-! ## Counting -/

/-- Counting in a scope counts what its condition selects. -/
theorem countInScope_eq (ctx : Context) (s : Store) (f : Family) (scope : Scope)
    (extra : Condition) :
    countInScope ctx s f scope extra = (do
      let c ← baseCondition ctx f scope.filter scope.set extra
      return (← selection ctx s f c).length) := by
  have planned : Plan.count ctx f scope.filter scope.set extra = (do
      let c ← baseCondition ctx f scope.filter scope.set extra
      return Plan.ofStages ctx f [.select c]) := rfl
  have last (docs : List Document) : runStages ctx s docs [] = pure docs := rfl
  rw [countInScope, planned]
  simp only [lift_bind, lift_pure, bind_assoc, pure_bind, run_ofStages, last]

/-- A query without parameters for them says nothing of what relations relate. -/
theorem scopesFor_silent (hdepth : 0 ≤ ctx.config.maxLookupDepth)
    (hquery : ∀ key, key ∉ ["filter", "where", "set"] → members.get? key = none) :
    scopesFor ctx f (.object members) = .ok (if f = .relations then some {} else none) := by
  have silent {key : String} (hkey : key ∉ ["filter", "where", "set"]) :
      param (.object members) key = param (.object []) key := by
    rw [param, param, Document.field, hquery key hkey]
    rfl
  rw [← scopesFor_nothing hdepth, scopesFor, scopesFor, relationScopes, relationScopes,
    silent (by decide), silent (by decide), silent (by decide), silent (by decide)]

/-- The plan of a count for every record selects the records, and joins relations. -/
theorem planCount_eq {joins : List Stage} (hjoins : joinStages ctx f {} = .ok joins) (g : Filter)
    (set : Option SetExpr) (extra : Condition) :
    Plan.count ctx f g set extra (if f = .relations then some {} else none) = (do
      let c ← baseCondition ctx f g set extra
      return Plan.ofStages ctx f (.select c :: joins)) := by
  rw [Plan.count]
  by_cases hf : f = .relations
  · rw [if_pos hf]
    dsimp only
    rw [hjoins]
    rfl
  · rw [if_neg hf]
    cases (joinStages_of_ne hf {}).symm.trans hjoins
    rfl

/-- A query whose filter and set can be read counts what these select, joined with what it
    relates. -/
theorem count_eq {given : Value} {g : Filter} {set : Option SetExpr}
    (hquery : ∀ key, key ∉ ["filter", "where", "set"] → members.get? key = none)
    (hgiven : countFilter (.object members) = .ok given) (hg : fullFilter ctx given = .ok g)
    (hset : SetExpr.read (members.field "set") = .ok set) :
    count ctx s f (.object members) = (do
      let c ← baseCondition ctx f g set .always
      let docs ← selection ctx s f c
      return (← joinedRecords ctx s f docs).length) := by
  -- No filter can be read where nothing may be nested, so that the relations can be told as well.
  have depth : 0 ≤ ctx.config.maxLookupDepth := by
    obtain ⟨n, -, hn, -⟩ := Filter.exists_of_readLevels hg
    dsimp only at hn
    omega
  obtain ⟨joins, hjoins, joined⟩ := runStages_joinedRecords ctx f
  have all (docs : List Document) : runStages ctx s docs joins = joinedRecords ctx s f docs := by
    have := joined s docs []
    rw [List.append_nil] at this
    exact this.trans (bind_pure _)
  have given_ : param (.object members) "set" = .ok (members.field "set") := rfl
  rw [count, hgiven, ok_bind, hg, ok_bind, scopesFor_silent depth hquery, ok_bind, given_, ok_bind,
    hset, ok_bind, planCount_eq hjoins]
  simp only [lift_bind, lift_pure, bind_assoc, pure_bind, run_ofStages, all]

/-! ## Limits and requests -/

/-- A limit counts what a request for the number of records gives for the scope as its query: for
    every store in which each relation has its ends, if the scope has no parameters but `filter`,
    `where` and `set`, names whom its sets are about, and can be read by both. -/
theorem countInScope_eq_count (hk : s.Keyed) (hends : EndsStored ctx.config s)
    (haccess : ctx.config.accessControl = false) {text : String} (hparams : ScopeParameters text)
    {scope : Scope} (hread : Scope.read text none = .ok scope)
    (hvalued : ∀ e, scope.set = some e → e.isValued = true) {query : Value}
    (hquery : decodeQuery text = .ok query)
    (haccepted : ∃ g, (do fullFilter ctx (← countFilter query)) = .ok g) (owners : Audience) :
    Scope.read text (some owners) = .ok scope ∧
      countInScope ctx.unrestricted s f scope (leavingOut .null) = count ctx s f query := by
  refine ⟨Scope.read_valued hread hvalued owners, ?_⟩
  obtain ⟨members, rfl, hmembers⟩ := members_of_parameters hparams hquery
  obtain ⟨hset, given, hgiven, hfilter⟩ := Scope.read_parameters hparams hread hquery
  obtain ⟨g, hg⟩ := haccepted
  rw [hgiven, ok_bind] at hg
  obtain ⟨hcondition, hfilterSet⟩ := Filter.read_alike hfilter hg
  -- Both have the same condition: neither says anything of who may read what.
  have base : baseCondition ctx.unrestricted f scope.filter scope.set (leavingOut .null) =
      baseCondition ctx f g scope.set .always := by
    rw [baseCondition, baseCondition, hcondition, hfilterSet, access_unrestricted,
      access_uncontrolled haccess]
    rfl
  rw [countInScope_eq, count_eq hmembers hgiven hg hset, base]
  cases baseCondition ctx f g scope.set .always with
  | error e => rfl
  | ok c =>
    change (liftM (selection ctx s f c) >>= _ : Outcome Nat) = liftM (selection ctx s f c) >>= _
    cases hfound : selection ctx s f c with
    | error e => rfl
    | ok docs =>
      obtain ⟨shown, hshown, hlength⟩ := joinedRecords_stored hk hends haccess
        fun d hd => (of_mem_selection hfound hd).1
      change Except.ok docs.length = (joinedRecords ctx s f docs : Outcome _) >>= _
      rw [hshown, ← hlength]
      rfl

/-- A request where everything may be read, in the middle of a year. -/
def midyearContext : Context :=
  { openContext with now := (Moment.read? "2024-06-01T12:00:00Z").getD ⟨.first, 0⟩ }

/-- A relation of a list and an entity that is valid from a day on. -/
def datedRelation (id entity day : String) : Document :=
  [("_id", .text id), ("_listId", .text "l"), ("_entityId", .text entity),
    ("_validFromDateTime", .text (day ++ "T00:00:00.000Z"))]

/-- An entity that is in a list since the beginning of the year, and another one that is to be in it
    at the end of the year. -/
def datedRelations : Store where
  rows := [
    ⟨"List", "l", [("_id", .text "l")]⟩,
    ⟨"GenericEntity", "e", [("_id", .text "e")]⟩,
    ⟨"GenericEntity", "g", [("_id", .text "g")]⟩,
    ⟨"ListToEntityRelation", "q", datedRelation "q" "e" "2024-01-01"⟩,
    ⟨"ListToEntityRelation", "r", datedRelation "r" "g" "2024-12-31"⟩]

theorem endsStored_datedRelations : EndsStored midyearContext.config datedRelations := by
  have each : ∀ d ∈ [datedRelation "q" "e" "2024-01-01", datedRelation "r" "g" "2024-12-31"],
      ∀ r ∈ [("_listId", Family.lists), ("_entityId", Family.entities)],
        ∃ id, d.get? r.1 = some (.text id) ∧
          ∃ e ∈ datedRelations.scan (midyearContext.config.policy r.2).collection,
            e.get? "_id" = some (.text id) := by
    simp only [List.forall_mem_cons]
    refine ⟨⟨⟨"l", rfl, _, List.mem_cons_self, rfl⟩, ⟨"e", rfl, _, List.mem_cons_self, rfl⟩,
      List.forall_mem_nil _⟩, ⟨⟨"l", rfl, _, List.mem_cons_self, rfl⟩,
      ⟨"g", rfl, _, List.mem_cons_of_mem _ List.mem_cons_self, rfl⟩, List.forall_mem_nil _⟩,
      List.forall_mem_nil _⟩
  exact each

/-- One of the relations of the list is active. -/
theorem countInScope_eq_count_datedRelations :
    let text := "where[_listId]=l&set[actives]"
    ∃ scope query, Scope.read text none = .ok scope ∧ decodeQuery text = .ok query ∧
      countInScope midyearContext.unrestricted datedRelations .relations scope
          (leavingOut .null) =
        count midyearContext datedRelations .relations query ∧
      count midyearContext datedRelations .relations query = .ok 1 := by
  intro text
  have keyed : datedRelations.Keyed :=
    { named := by
        simp only [datedRelations, List.forall_mem_cons]
        exact ⟨rfl, rfl, rfl, rfl, rfl, List.forall_mem_nil _⟩
      unique := by decide }
  have read : (Scope.read text none).toOption.any
      (fun scope => scope.set.all SetExpr.isValued) = true := by
    decide +kernel
  have counted : (decodeQuery text).toOption.any (fun query =>
      (do fullFilter midyearContext (← countFilter query)).toOption.isSome &&
        (count midyearContext datedRelations .relations query).toOption == some 1) = true := by
    decide +kernel
  obtain ⟨scope, hscope, hvalued⟩ := (Option.any_eq_true _ _).1 read
  obtain ⟨query, hquery, h⟩ := (Option.any_eq_true _ _).1 counted
  rw [Bool.and_eq_true, beq_iff_eq] at h
  obtain ⟨accepted, one⟩ := h
  obtain ⟨g, hg⟩ := Option.isSome_iff_exists.1 accepted
  refine ⟨scope, query, toOption_eq_some.1 hscope, toOption_eq_some.1 hquery, ?_,
    toOption_eq_some.1 one⟩
  exact (countInScope_eq_count keyed endsStored_datedRelations rfl (by decide +kernel)
    (toOption_eq_some.1 hscope) (fun e he => by rwa [he] at hvalued) (toOption_eq_some.1 hquery)
    ⟨g, toOption_eq_some.1 hg⟩ {}).2

end Service

end Catalog
