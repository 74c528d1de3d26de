import Catalog.Proofs.Service.Showing

/-!
# Listings and their pages

A request lists a page of all records that its query selects. What it would list without a page
(`findAll`) is what the same plan gives without the stages that skip and limit
(`Plan.unpaged`).

For a query that says a condition and a set, this is what the two select among what the requester
may read, joined with what it relates (`findAll_where`), and the page is the beginning of it
(`find_where`).
-/

namespace Catalog

/-- Whether a stage is there for the page of an answer. -/
def Stage.isPage : Stage → Bool
  | .skip _ => true
  | .limit _ => true
  | _ => false

/-- Whether a stage selects, joins, or leaves of what is joined what is shown of it. -/
def Stage.isSelecting : Stage → Bool
  | .select _ => true
  | .join _ _ _ => true
  | .reshape _ _ => true
  | _ => false

/-- The plan of what a plan selects, before it is sorted, cut to a page and shown. -/
def Plan.selecting (plan : Plan) : Plan :=
  { plan with stages := plan.stages.filter Stage.isSelecting }

/-- The plan of all records of which a plan gives a page. -/
def Plan.unpaged (plan : Plan) : Plan :=
  { plan with stages := plan.stages.filter fun stage => !stage.isPage }

namespace Service

variable {ctx : Context} {s : Store} {f : Family} {w set : Value} {extra : Condition}
  {found : List Document}

/-- All records that a query lists, whatever its page. -/
def findAll (ctx : Context) (s : Store) (f : Family) (query : Value) : Outcome (List Document) := do
  let plan ← findPlan ctx f query .always
  plan.unpaged.run ctx s

/-- The query for the records that meet a condition, in a set. -/
def whereQuery (w set : Value) : Value :=
  .object [("filter", .object [("where", w)]), ("set", set)]

/-! ## Reading a condition -/

/-- What the condition of a filter is read as, where filters may be nested to some depth. -/
def readWhere (depth : Int) (w : Value) : Outcome Condition :=
  if depth < 0 then refuseFilter (.tooDeep depth)
  else if w.isBlank then .ok .always
  else Condition.read w

/-- Of a filter with a condition only this is read, and the limit that it does not say. -/
theorem read_where (bounds : FilterBounds) (w : Value) :
    Filter.read bounds (.object [("where", w)]) = (do
      let condition ← readWhere bounds.depth w
      let limit ← readLimit .null bounds.defaultLimit bounds.maximumLimit
      return { condition, limit }) := by
  rw [readWhere]
  by_cases hd : bounds.depth < 0
  · have none : (bounds.depth + 1).toNat = 0 := by omega
    rw [Filter.read, none, if_pos hd]
    rfl
  · obtain ⟨n, hn⟩ : ∃ n, (bounds.depth + 1).toNat = n + 1 := ⟨bounds.depth.toNat, by omega⟩
    rw [Filter.read, hn, if_neg hd, Filter.readLevels]
    change (if w.isBlank then _ else _ : Outcome Filter) = (if w.isBlank then _ else _) >>= _
    split <;> rfl

theorem fullFilter_where (ctx : Context) (w : Value) :
    fullFilter ctx (.object [("where", w)]) = (do
      let condition ← readWhere ctx.config.maxLookupDepth w
      return { condition }) :=
  read_where _ w

theorem pageFilter_where (ctx : Context) (f : Family) (w : Value) :
    pageFilter ctx f (.object [("where", w)]) = (do
      let condition ← readWhere ctx.config.maxLookupDepth w
      return { condition, limit := some (ctx.config.policy f).responseLimit }) := by
  rw [pageFilter, read_where]
  dsimp only
  rw [readLimit_null]
  rfl

/-! ## Selecting -/

/-- The records of a family that a condition, a set and a further condition select among what may be
    read. -/
def selectedBy (ctx : Context) (s : Store) (f : Family) (w set : Value) (extra : Condition) :
    Outcome (List Document) := do
  let condition ← readWhere ctx.config.maxLookupDepth w
  let set ← SetExpr.read set
  let c ← baseCondition ctx f { condition } set extra
  selection ctx s f c

/-- What is selected passed all that is read of a query. -/
theorem selectedBy_eq_ok :
    selectedBy ctx s f w set extra = .ok found ↔
      ∃ condition given c, readWhere ctx.config.maxLookupDepth w = .ok condition ∧
        SetExpr.read set = .ok given ∧ baseCondition ctx f { condition } given extra = .ok c ∧
        selection ctx s f c = .ok found := by
  constructor
  · intro h
    obtain ⟨condition, hcondition, h⟩ := bind_eq_ok.1 h
    obtain ⟨given, hgiven, h⟩ := bind_eq_ok.1 h
    obtain ⟨c, hc, h⟩ := bind_eq_ok.1 h
    exact ⟨condition, given, c, hcondition, hgiven, lift_eq_ok.1 hc, lift_eq_ok.1 h⟩
  · rintro ⟨condition, given, c, hcondition, hgiven, hc, h⟩
    exact bind_eq_ok.2 ⟨condition, hcondition, bind_eq_ok.2 ⟨given, hgiven,
      bind_eq_ok.2 ⟨c, lift_eq_ok.2 hc, lift_eq_ok.2 h⟩⟩⟩

/-! ## Joining -/

/-- The records of a family joined with what they relate, as they are listed. -/
def joinedRecords (ctx : Context) (s : Store) (f : Family) (docs : List Document) :
    Except Fault (List Document) :=
  if f = .relations then joinRelations ctx s docs else .ok docs

theorem isSelecting_endStages {field as : String} {target : Family} {filter : Filter}
    {set : Option SetExpr} {stages : List Stage}
    (h : endStages ctx field target as filter set = .ok stages) :
    ∀ stage ∈ stages, stage.isSelecting = true := by
  obtain ⟨c, -, h⟩ := bind_eq_ok.1 h
  split at h
  · cases h
    exact List.forall_mem_singleton.2 rfl
  · cases h
    exact List.forall_mem_cons.2 ⟨rfl, List.forall_mem_singleton.2 rfl⟩

/-- Joining is a part of what is selected. -/
theorem isSelecting_joinStages {scopes : RelationScopes} {joins : List Stage}
    (h : joinStages ctx f scopes = .ok joins) : ∀ stage ∈ joins, stage.isSelecting = true := by
  by_cases hf : f = .relations
  · subst hf
    rw [joinStages_relations] at h
    obtain ⟨lists, hlists, h⟩ := bind_eq_ok.1 h
    obtain ⟨entities, hentities, h⟩ := bind_eq_ok.1 h
    cases h
    rw [List.forall_mem_append, List.forall_mem_append]
    exact ⟨⟨isSelecting_endStages hlists, isSelecting_endStages hentities⟩,
      List.forall_mem_cons.2 ⟨rfl, List.forall_mem_singleton.2 rfl⟩⟩
  · rw [joinStages_of_ne hf] at h
    cases h
    exact List.forall_mem_nil _

/-- Joining comes before the page. -/
theorem isPage_joinStages {scopes : RelationScopes} {joins : List Stage}
    (h : joinStages ctx f scopes = .ok joins) : ∀ stage ∈ joins, stage.isPage = false := by
  intro stage hs
  have selecting := isSelecting_joinStages h stage hs
  cases stage <;> first | rfl | cases selecting

/-- Records are joined by the stages that come after their selection. -/
theorem runStages_joinedRecords (ctx : Context) (f : Family) :
    ∃ joins, joinStages ctx f {} = .ok joins ∧
      ∀ (s : Store) (docs : List Document) (rest : List Stage),
        runStages ctx s docs (joins ++ rest) =
          (joinedRecords ctx s f docs : Outcome _) >>= fun docs => runStages ctx s docs rest := by
  by_cases hf : f = .relations
  · subst hf
    exact runStages_joinStages_nothing ctx
  · refine ⟨[], joinStages_of_ne hf _, fun s docs rest => ?_⟩
    rw [joinedRecords, if_neg hf]
    rfl

/-! ## Listing -/

/-- The plan of a query for the records that meet a condition. -/
theorem findPlan_where {joins : List Stage} (hj : joinStages ctx f {} = .ok joins)
    (w set : Value) :
    findPlan ctx f (whereQuery w set) .always = (do
      let condition ← readWhere ctx.config.maxLookupDepth w
      let set ← SetExpr.read set
      let c ← baseCondition ctx f { condition } set .always
      return Plan.ofStages ctx f
        (.select c :: (joins ++ [.limit (ctx.config.policy f).responseLimit]))) := by
  have unscoped : scopesFor ctx f (whereQuery w set) = scopesFor ctx f (.object []) := rfl
  change (do
    let filter ← pageFilter ctx f (.object [("where", w)])
    let scopes ← scopesFor ctx f (whereQuery w set)
    let set ← SetExpr.read set
    Plan.query ctx f filter set .always scopes) = _
  rw [pageFilter_where, unscoped]
  by_cases hd : ctx.config.maxLookupDepth < 0
  · rw [readWhere, if_pos hd]
    rfl
  rw [scopesFor_nothing (Int.not_lt.1 hd)]
  cases readWhere ctx.config.maxLookupDepth w with
  | error e => rfl
  | ok condition =>
    change SetExpr.read set >>= _ = SetExpr.read set >>= _
    cases SetExpr.read set with
    | error e => rfl
    | ok set =>
      have scopes : (if f = .relations then some ({} : RelationScopes) else none).getD {} = {} := by
        split <;> rfl
      change Plan.query ctx f _ set .always _ = _
      rw [Plan.query, scopes, hj]
      rfl

/-- Without its page, the plan of such a query ends with what records are joined with. -/
theorem unpaged_ofStages {joins : List Stage} (hj : joinStages ctx f {} = .ok joins)
    (c : Condition) (limit : Int) :
    (Plan.ofStages ctx f (.select c :: (joins ++ [.limit limit]))).unpaged =
      Plan.ofStages ctx f (.select c :: (joins ++ [])) := by
  have kept : joins.filter (fun stage => !stage.isPage) = joins :=
    List.filter_eq_self.2 fun stage hs => by rw [isPage_joinStages hj stage hs]; rfl
  have dropped : (Stage.select c :: (joins ++ [.limit limit])).filter (fun stage => !stage.isPage) =
      .select c :: (joins ++ []) := by
    rw [List.filter_cons_of_pos rfl, List.filter_append, kept]
    rfl
  rw [Plan.unpaged, Plan.ofStages, dropped]
  rfl

/-- All that a condition lists is what it selects, joined with what it relates. -/
theorem findAll_where (ctx : Context) (s : Store) (f : Family) (w set : Value) :
    findAll ctx s f (whereQuery w set) = (do
      let docs ← selectedBy ctx s f w set .always
      joinedRecords ctx s f docs) := by
  obtain ⟨joins, hj, joined⟩ := runStages_joinedRecords ctx f
  have last (docs : List Document) : runStages ctx s docs [] = pure docs := rfl
  rw [findAll, findPlan_where hj, selectedBy]
  simp only [bind_assoc, pure_bind, unpaged_ofStages hj, run_ofStages, joined, last, bind_pure]

/-- A page of what a condition lists is the beginning of it. -/
theorem find_where (ctx : Context) (s : Store) (f : Family) (w set : Value) :
    find ctx s f (whereQuery w set) = (do
      return takeLimit (ctx.config.policy f).responseLimit
        (← findAll ctx s f (whereQuery w set))) := by
  obtain ⟨joins, hj, joined⟩ := runStages_joinedRecords ctx f
  have last (docs : List Document) : runStages ctx s docs [] = pure docs := rfl
  have limited (docs : List Document) :
      runStages ctx s docs [.limit (ctx.config.policy f).responseLimit] =
        pure (takeLimit (ctx.config.policy f).responseLimit docs) := rfl
  rw [find, findAll, findPlan_where hj]
  simp only [bind_assoc, pure_bind, unpaged_ofStages hj, run_ofStages, joined, last, limited]

end Service

end Catalog
