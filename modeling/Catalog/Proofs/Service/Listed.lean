import Catalog.Proofs.Plan.Pages
import Catalog.Proofs.Service.Paging

/-!
# What requests list

Requests for a page of what a query lists, for all of it and for its number read the same of the
query but for the page (`Reads`) and select the same records, joined with what they relate
(`selectedRecords`, `findSelected_eq_ok`). They differ in what comes after: a page is cut out and
shown (`find_eq_ok`), all is shown (`findAll_eq_ok`), or it is counted (`count_eq_ok`).
-/

namespace Catalog.Service

variable {ctx : Context} {s : Store} {f : Family} {query : Value} {extra : Condition}
  {docs : List Document}

/-! ## What all requests of one query select -/

/-- The records that a query selects, joined with what they relate. -/
def selectedRecords (ctx : Context) (s : Store) (f : Family) (g : Filter) (set : Option SetExpr)
    (extra : Condition) (scopes : Option RelationScopes) : Outcome (List Document) := do
  let base ← baseCondition ctx f g set extra
  let joins ← joinStages ctx f (scopes.getD {})
  let docs ← selection ctx s f base
  runStages ctx s docs joins

/-- A plan gives what is left of the records that it selects. -/
theorem selectedRecords_eq_ok {g : Filter} {set : Option SetExpr} {scopes : Option RelationScopes}
    {records : List Document} :
    selectedRecords ctx s f g set extra scopes = .ok records ↔
      ∃ base joins found, baseCondition ctx f g set extra = .ok base ∧
        joinStages ctx f (scopes.getD {}) = .ok joins ∧ selection ctx s f base = .ok found ∧
        runStages ctx s found joins = .ok records := by
  constructor
  · intro h
    obtain ⟨base, hbase, h⟩ := bind_eq_ok.1 h
    obtain ⟨joins, hjoins, h⟩ := bind_eq_ok.1 h
    obtain ⟨found, hfound, h⟩ := bind_eq_ok.1 h
    exact ⟨base, joins, found, lift_eq_ok.1 hbase, lift_eq_ok.1 hjoins, lift_eq_ok.1 hfound, h⟩
  · rintro ⟨base, joins, found, hbase, hjoins, hfound, h⟩
    exact bind_eq_ok.2 ⟨base, lift_eq_ok.2 hbase, bind_eq_ok.2 ⟨joins, lift_eq_ok.2 hjoins,
      bind_eq_ok.2 ⟨found, lift_eq_ok.2 hfound, h⟩⟩⟩

/-- What is read of a query: its filter, by some reader, its set, and what it says of the records
    that relations relate. -/
structure Reads (ctx : Context) (f : Family) (query : Value) (readFilter : Value → Outcome Filter)
    (g : Filter) (set : Option SetExpr) (scopes : Option RelationScopes) : Prop where
  filter : (param query "filter" >>= readFilter) = .ok g
  scopes : scopesFor ctx f query = .ok scopes
  set : (param query "set" >>= SetExpr.read) = .ok set

/-- The plan of a query is made of what is read of it: it selects, joins, cuts a page and shows. -/
theorem findPlan_eq_ok {plan : Plan} :
    findPlan ctx f query extra = .ok plan ↔
      ∃ g set scopes base joins, Reads ctx f query (pageFilter ctx f) g set scopes ∧
        checkIncludes f g.includes = .ok () ∧ baseCondition ctx f g set extra = .ok base ∧
        joinStages ctx f (scopes.getD {}) = .ok joins ∧
        plan = Plan.ofStages ctx f (.select base :: (joins ++ (g.paging ++ g.showing f))) := by
  constructor
  · intro h
    obtain ⟨v, hv, h⟩ := bind_eq_ok.1 h
    obtain ⟨g, hg, h⟩ := bind_eq_ok.1 h
    obtain ⟨scopes, hscopes, h⟩ := bind_eq_ok.1 h
    obtain ⟨w, hw, h⟩ := bind_eq_ok.1 h
    obtain ⟨set, hset, h⟩ := bind_eq_ok.1 h
    obtain ⟨base, joins, tail, hbase, hjoins, htail, rfl⟩ := Plan.query_eq_ok.1 h
    obtain ⟨hcheck, rfl⟩ := tailStages_eq_ok.1 htail
    exact ⟨g, set, scopes, base, joins,
      ⟨bind_eq_ok.2 ⟨v, hv, hg⟩, hscopes, bind_eq_ok.2 ⟨w, hw, hset⟩⟩, hcheck, hbase, hjoins, rfl⟩
  · rintro ⟨g, set, scopes, base, joins, hread, hcheck, hbase, hjoins, rfl⟩
    obtain ⟨v, hv, hg⟩ := bind_eq_ok.1 hread.filter
    obtain ⟨w, hw, hset⟩ := bind_eq_ok.1 hread.set
    have planned := Plan.query_eq_ok.2
      ⟨base, joins, _, hbase, hjoins, tailStages_eq_ok.2 ⟨hcheck, rfl⟩, rfl⟩
    exact bind_eq_ok.2 ⟨v, hv, bind_eq_ok.2 ⟨g, hg, bind_eq_ok.2 ⟨scopes, hread.scopes,
      bind_eq_ok.2 ⟨w, hw, bind_eq_ok.2 ⟨set, hset, planned⟩⟩⟩⟩⟩

/-- What comes after joining is all that is left to run. -/
theorem run_ofStages_eq_ok {g : Filter} {base : Condition} {joins tail : List Stage}
    {set : Option SetExpr} {scopes : Option RelationScopes}
    (hbase : baseCondition ctx f g set extra = .ok base)
    (hjoins : joinStages ctx f (scopes.getD {}) = .ok joins) :
    (Plan.ofStages ctx f (.select base :: (joins ++ tail))).run ctx s = .ok docs ↔
      ∃ records, selectedRecords ctx s f g set extra scopes = .ok records ∧
        runStages ctx s records tail = .ok docs := by
  have run (found : List Document) : runStages ctx s found (joins ++ tail) =
      runStages ctx s found joins >>= fun records => runStages ctx s records tail :=
    runStages_append ctx s found joins tail
  rw [run_ofStages]
  constructor
  · intro h
    obtain ⟨found, hfound, h⟩ := bind_eq_ok.1 h
    rw [run] at h
    obtain ⟨records, hrecords, h⟩ := bind_eq_ok.1 h
    exact ⟨records, selectedRecords_eq_ok.2 ⟨base, joins, found, hbase, hjoins,
      lift_eq_ok.1 hfound, hrecords⟩, h⟩
  · rintro ⟨records, hrecords, h⟩
    obtain ⟨base', joins', found, hbase', hjoins', hfound, hrecords⟩ :=
      selectedRecords_eq_ok.1 hrecords
    cases hbase.symm.trans hbase'
    cases hjoins.symm.trans hjoins'
    exact bind_eq_ok.2 ⟨found, lift_eq_ok.2 hfound,
      by rw [run]; exact bind_eq_ok.2 ⟨records, hrecords, h⟩⟩

/-- Whatever is made of the plan of a query, if it selects and joins as the plan does, it gives what
    its further stages make of the selected records. -/
theorem run_findPlan_eq_ok (rework : Plan → Plan) (tail : Filter → List Stage)
    (hrework : ∀ {g : Filter} {base : Condition} {joins : List Stage} {scopes : RelationScopes},
      joinStages ctx f scopes = .ok joins →
      rework (Plan.ofStages ctx f (.select base :: (joins ++ (g.paging ++ g.showing f)))) =
        Plan.ofStages ctx f (.select base :: (joins ++ tail g))) :
    (findPlan ctx f query extra >>= fun plan => (rework plan).run ctx s) = .ok docs ↔
      ∃ g set scopes records, Reads ctx f query (pageFilter ctx f) g set scopes ∧
        checkIncludes f g.includes = .ok () ∧
        selectedRecords ctx s f g set extra scopes = .ok records ∧
        runStages ctx s records (tail g) = .ok docs := by
  constructor
  · intro h
    obtain ⟨plan, hplan, h⟩ := bind_eq_ok.1 h
    obtain ⟨g, set, scopes, base, joins, hread, hcheck, hbase, hjoins, rfl⟩ :=
      findPlan_eq_ok.1 hplan
    rw [hrework hjoins] at h
    obtain ⟨records, hrecords, h⟩ := (run_ofStages_eq_ok hbase hjoins).1 h
    exact ⟨g, set, scopes, records, hread, hcheck, hrecords, h⟩
  · rintro ⟨g, set, scopes, records, hread, hcheck, hrecords, h⟩
    obtain ⟨base, joins, found, hbase, hjoins, -, -⟩ := selectedRecords_eq_ok.1 hrecords
    refine bind_eq_ok.2 ⟨_, findPlan_eq_ok.2
      ⟨g, set, scopes, base, joins, hread, hcheck, hbase, hjoins, rfl⟩, ?_⟩
    rw [hrework hjoins]
    exact (run_ofStages_eq_ok hbase hjoins).2 ⟨records, hrecords, h⟩

/-- A request lists what is shown of a page of the records that its query selects. -/
theorem find_eq_ok :
    find ctx s f query extra = .ok docs ↔
      ∃ g set scopes records, Reads ctx f query (pageFilter ctx f) g set scopes ∧
        checkIncludes f g.includes = .ok () ∧
        selectedRecords ctx s f g set extra scopes = .ok records ∧
        runStages ctx s (g.page id records) (g.showing f) = .ok docs := by
  have paged (g : Filter) (records : List Document) :
      runStages ctx s records (g.paging ++ g.showing f) =
        runStages ctx s (g.page id records) (g.showing f) := by
    rw [runStages_append, runStages_paging, ok_bind]
  simp only [← paged]
  exact run_findPlan_eq_ok id (fun g => g.paging ++ g.showing f) fun _ => rfl

/-- Without its page, what comes after joining sorts and shows. -/
theorem tail_unpaged (g : Filter) :
    (g.paging ++ g.showing f).filter (fun stage => !stage.isPage) =
      ({ g with limit := none, skip := 0 } : Filter).paging ++ g.showing f := by
  have shown : (g.showing f).filter (fun stage => !stage.isPage) = g.showing f :=
    List.filter_eq_self.2 <| forall_mem_showing (fun _ => rfl) (fun _ => rfl) fun _ => rfl
  have paged : g.paging.filter (fun stage => !stage.isPage) =
      ({ g with limit := none, skip := 0 } : Filter).paging := by
    rw [Filter.paging, Filter.paging, List.filter_append, List.filter_append]
    cases g.order <;> cases g.skip <;> cases g.limit <;> rfl
  rw [List.filter_append, shown, paged]

/-- All that a query lists is what is shown of the records that it selects, in order. -/
theorem findAll_eq_ok :
    findAll ctx s f query = .ok docs ↔
      ∃ g set scopes records, Reads ctx f query (pageFilter ctx f) g set scopes ∧
        checkIncludes f g.includes = .ok () ∧
        selectedRecords ctx s f g set .always scopes = .ok records ∧
        runStages ctx s (sortOn id g.order records) (g.showing f) = .ok docs := by
  have unpaged {g : Filter} {base : Condition} {joins : List Stage} {scopes : RelationScopes}
      (hjoins : joinStages ctx f scopes = .ok joins) :
      (Plan.ofStages ctx f (.select base :: (joins ++ (g.paging ++ g.showing f)))).unpaged =
        Plan.ofStages ctx f (.select base :: (joins ++
          (({ g with limit := none, skip := 0 } : Filter).paging ++ g.showing f))) := by
    have kept : joins.filter (fun stage => !stage.isPage) = joins :=
      List.filter_eq_self.2 fun stage hs => by rw [isPage_joinStages hjoins stage hs]; rfl
    rw [Plan.unpaged, Plan.ofStages]
    dsimp only
    rw [List.filter_cons_of_pos rfl, List.filter_append, kept, tail_unpaged]
    rfl
  have sorted (g : Filter) (records : List Document) :
      runStages ctx s records (({ g with limit := none, skip := 0 } : Filter).paging ++
        g.showing f) = runStages ctx s (sortOn id g.order records) (g.showing f) := by
    rw [runStages_append, runStages_paging, ok_bind]
    rfl
  simp only [← sorted]
  exact run_findPlan_eq_ok Plan.unpaged _ unpaged

/-- What a query selects, before it is sorted, cut to a page and shown. -/
def findSelected (ctx : Context) (s : Store) (f : Family) (query : Value) :
    Outcome (List Document) := do
  let plan ← findPlan ctx f query .always
  plan.selecting.run ctx s

/-- What a query selects is the records that are selected for a page of it. -/
theorem findSelected_eq_ok :
    findSelected ctx s f query = .ok docs ↔
      ∃ g set scopes, Reads ctx f query (pageFilter ctx f) g set scopes ∧
        checkIncludes f g.includes = .ok () ∧
        selectedRecords ctx s f g set .always scopes = .ok docs := by
  have selecting {g : Filter} {base : Condition} {joins : List Stage} {scopes : RelationScopes}
      (hjoins : joinStages ctx f scopes = .ok joins) :
      (Plan.ofStages ctx f (.select base :: (joins ++ (g.paging ++ g.showing f)))).selecting =
        Plan.ofStages ctx f (.select base :: (joins ++ [])) := by
    have kept : joins.filter Stage.isSelecting = joins :=
      List.filter_eq_self.2 (isSelecting_joinStages hjoins)
    have left : (g.paging ++ g.showing f).filter Stage.isSelecting = [] := by
      rw [List.filter_eq_nil_iff, List.forall_mem_append]
      exact ⟨forall_mem_paging (fun _ => Bool.false_ne_true) (fun _ => Bool.false_ne_true)
          fun _ => Bool.false_ne_true,
        forall_mem_showing (fun _ => Bool.false_ne_true) (fun _ => Bool.false_ne_true)
          fun _ => Bool.false_ne_true⟩
    rw [Plan.selecting, Plan.ofStages]
    dsimp only
    rw [List.filter_cons_of_pos rfl, List.filter_append, kept, left]
    rfl
  refine (run_findPlan_eq_ok Plan.selecting (fun _ => []) selecting).trans ?_
  constructor
  · rintro ⟨g, set, scopes, records, hread, hcheck, hrecords, hdocs⟩
    cases hdocs
    exact ⟨g, set, scopes, hread, hcheck, hrecords⟩
  · rintro ⟨g, set, scopes, hread, hcheck, hrecords⟩
    exact ⟨g, set, scopes, docs, hread, hcheck, hrecords, rfl⟩

/-- The filter of a query that has one. -/
theorem param_filter {members fm : Document} (hfilter : members.get? "filter" = some (.object fm)) :
    param (.object members) "filter" = .ok (.object fm) := by
  rw [param, Document.field, hfilter]
  rfl

/-- The number of what a filter selects is that of the records, whatever their page. -/
theorem count_eq_ok {members fm : Document} (hfilter : members.get? "filter" = some (.object fm))
    {n : Nat} (h : count ctx s f (.object members) = .ok n) :
    ∃ g set scopes records, Reads ctx f (.object members) (fullFilter ctx) g set scopes ∧
      selectedRecords ctx s f g set .always scopes = .ok records ∧ n = records.length := by
  have counted : countFilter (.object members) = .ok (.object fm) := by
    rw [countFilter, param_filter hfilter]
    rfl
  rw [count, counted, ok_bind] at h
  obtain ⟨g, hg, h⟩ := bind_eq_ok.1 h
  obtain ⟨scopes, hscopes, h⟩ := bind_eq_ok.1 h
  obtain ⟨w, hw, h⟩ := bind_eq_ok.1 h
  obtain ⟨set, hset, h⟩ := bind_eq_ok.1 h
  obtain ⟨plan, hplan, h⟩ := bind_eq_ok.1 h
  obtain ⟨records, hrun, h⟩ := bind_eq_ok.1 h
  cases h
  obtain ⟨base, joins, hbase, hsome, hnone, rfl⟩ := Plan.count_eq_ok.1 (lift_eq_ok.1 hplan)
  have hjoins : joinStages ctx f (scopes.getD {}) = .ok joins := by
    cases scopes with
    | some scopes => exact hsome scopes rfl
    | none =>
      -- Without scopes the family relates nothing.
      have hf : f ≠ .relations := by
        rintro rfl
        obtain ⟨scopes, -, h⟩ := bind_eq_ok.1 (hscopes : (relationScopes ctx _ >>= fun scopes =>
          pure (some scopes)) = .ok none)
        cases h
      rw [hnone rfl, joinStages_of_ne hf]
  refine ⟨g, set, scopes, records, ⟨bind_eq_ok.2 ⟨_, param_filter hfilter, hg⟩, hscopes,
    bind_eq_ok.2 ⟨w, hw, hset⟩⟩, ?_, rfl⟩
  have run : (Plan.ofStages ctx f (.select base :: (joins ++ []))).run ctx s = .ok records := by
    rw [List.append_nil]
    exact hrun
  obtain ⟨records', hrecords, h⟩ := (run_ofStages_eq_ok hbase hjoins).1 run
  cases h
  exact hrecords

end Catalog.Service
