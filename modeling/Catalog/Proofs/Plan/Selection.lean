import Catalog.Plan.Run
import Catalog.Proofs.Keyed
import Catalog.Proofs.Query.Met

/-!
# What a plan selects

A plan loads the documents of its family, by ids if its condition says which, and keeps those that
meet the condition (`selection`). Where this meets no fault, it is the filter that it looks like
(`selection_eq_filter`), and since every plan's condition has the requester's access condition among
its members, it filters what the requester may read (`Store.readable`, `selection_eq_readable`).

* `Plan.run` selects and then runs the stages that follow (`run_ofStages`).
* What a lookup or an include loads is such a selection, too (`recordsWith_eq`).
-/

namespace Catalog

variable {ctx : Context} {store : Store} {f : Family} {c : Condition} {docs : List Document}

/-- The records of a family that the requester may read, in the order of the store. -/
def Store.readable (ctx : Context) (store : Store) (f : Family) : List Document :=
  (store.scan (ctx.collection f)).filter (ctx.access f).met

/-- The records of a family that a condition selects. -/
def selection (ctx : Context) (store : Store) (f : Family) (c : Condition) :
    Except Fault (List Document) := do
  selectDocuments c (← (Plan.ofStages ctx f [.select c]).load store)

/-- Where a condition says no ids, everything is looked through. -/
theorem selection_of_silent (h : c.ids? = .ok none) :
    selection ctx store f c = selectDocuments c (store.scan (ctx.collection f)) := by
  have loaded : (Plan.ofStages ctx f [.select c]).load store =
      .ok (store.scan (ctx.collection f)) := by
    simp only [Plan.load, Plan.ofStages, h]
    rfl
  rw [selection, loaded]
  rfl

theorem run_ofStages (ctx : Context) (store : Store) (f : Family) (c : Condition)
    (stages : List Stage) :
    (Plan.ofStages ctx f (.select c :: stages)).run ctx store =
      (selection ctx store f c : Outcome _) >>= fun docs => runStages ctx store docs stages := by
  change ((Plan.ofStages ctx f [.select c]).load store : Outcome _) >>= (fun docs =>
    (selectDocuments c docs : Outcome _) >>= fun docs => runStages ctx store docs stages) = _
  rw [selection]
  cases (Plan.ofStages ctx f [.select c]).load store <;> rfl

theorem runStages_append (ctx : Context) (store : Store) (docs : List Document)
    (before after : List Stage) :
    runStages ctx store docs (before ++ after) =
      runStages ctx store docs before >>= fun docs => runStages ctx store docs after :=
  List.foldlM_append

theorem recordsWith_eq (ctx : Context) (store : Store) (f : Family) (scope : Filter)
    (field : String) (values : List Value) :
    recordsWith ctx store f scope field values =
      baseCondition ctx f scope none (.compare field .inq (.array values)) >>=
        selection ctx store f := by
  rw [recordsWith, Plan.batch]
  cases baseCondition ctx f scope none (.compare field .inq (.array values)) <;> rfl

/-- The key of a document at a field is the value there. -/
theorem keyAt_eq_ok {field : String} {doc : Document} {key : Value} :
    keyAt field doc = .ok key ↔ key = Value.orNull (doc.get? field) ∧ key.isKey = true := by
  rw [keyAt]
  split
  · next hkey =>
    constructor
    · intro h
      cases h
      exact ⟨rfl, hkey⟩
    · rintro ⟨rfl, -⟩
      rfl
  · next hkey =>
    constructor
    · intro h
      cases h
    · rintro ⟨rfl, h⟩
      exact absurd h hkey

/-! ## Making plans -/

theorem joinStages_of_ne (hf : f ≠ .relations) (scopes : RelationScopes) :
    joinStages ctx f scopes = .ok [] := if_neg hf

theorem joinStages_relations (scopes : RelationScopes) :
    joinStages ctx .relations scopes = relationStages ctx scopes := if_pos rfl

theorem Plan.query_eq_ok {filter : Filter} {set : Option SetExpr} {extra : Condition}
    {scopes : Option RelationScopes} {plan : Plan} :
    Plan.query ctx f filter set extra scopes = .ok plan ↔
      ∃ c joins tail, baseCondition ctx f filter set extra = .ok c ∧
        joinStages ctx f (scopes.getD {}) = .ok joins ∧ tailStages f filter = .ok tail ∧
        plan = Plan.ofStages ctx f (.select c :: (joins ++ tail)) := by
  constructor
  · intro h
    obtain ⟨c, hc, h⟩ := bind_eq_ok.1 h
    obtain ⟨joins, hj, h⟩ := bind_eq_ok.1 h
    obtain ⟨tail, ht, h⟩ := bind_eq_ok.1 h
    cases h
    exact ⟨c, joins, tail, lift_eq_ok.1 hc, lift_eq_ok.1 hj, ht, rfl⟩
  · rintro ⟨c, joins, tail, hc, hj, ht, rfl⟩
    exact bind_eq_ok.2 ⟨c, lift_eq_ok.2 hc, bind_eq_ok.2 ⟨joins, lift_eq_ok.2 hj,
      bind_eq_ok.2 ⟨tail, ht, rfl⟩⟩⟩

theorem Plan.count_eq_ok {filter : Filter} {set : Option SetExpr} {extra : Condition}
    {scopes : Option RelationScopes} {plan : Plan} :
    Plan.count ctx f filter set extra scopes = .ok plan ↔
      ∃ c joins, baseCondition ctx f filter set extra = .ok c ∧
        (∀ given, scopes = some given → joinStages ctx f given = .ok joins) ∧
        (scopes = none → joins = []) ∧ plan = Plan.ofStages ctx f (.select c :: joins) := by
  constructor
  · intro h
    obtain ⟨c, hc, h⟩ := bind_eq_ok.1 h
    cases scopes with
    | none =>
      cases h
      exact ⟨c, [], hc, nofun, fun _ => rfl, rfl⟩
    | some scopes =>
      obtain ⟨joins, hj, h⟩ := bind_eq_ok.1 h
      cases h
      exact ⟨c, joins, hc, fun _ hs => by cases hs; exact hj, nofun, rfl⟩
  · rintro ⟨c, joins, hc, hj, hnone, rfl⟩
    refine bind_eq_ok.2 ⟨c, hc, ?_⟩
    cases scopes with
    | none =>
      rw [hnone rfl]
      rfl
    | some scopes => exact bind_eq_ok.2 ⟨joins, hj scopes rfl, rfl⟩

/-! ## As a filter -/

theorem selectDocuments_eq_ok {found : List Document} :
    selectDocuments c docs = .ok found ↔
      (∀ d ∈ docs, c.holds (.object d) = .ok (c.met d)) ∧ found = docs.filter c.met :=
  filterM_eq_ok fun d b hb => by rw [Condition.met, hb]

/-- A condition that has an answer for all documents selects without a fault. -/
theorem selectDocuments_answered (h : ∀ d ∈ docs, ∃ b, c.holds (.object d) = .ok b) :
    selectDocuments c docs = .ok (docs.filter c.met) := by
  refine selectDocuments_eq_ok.2 ⟨fun d hd => ?_, rfl⟩
  obtain ⟨b, hb⟩ := h d hd
  rw [Condition.met, hb]

theorem selectDocuments_total (h : c.Total) (docs : List Document) :
    selectDocuments c docs = .ok (docs.filter c.met) :=
  selectDocuments_answered fun d _ => h d

/-- Whether a document is among those that are loaded for a condition. -/
def Condition.admits (c : Condition) (doc : Document) : Bool :=
  match c.ids? with
  | .ok (some ids) => doc.idAmong ids
  | _ => true

/-- What is loaded is in the collection. -/
theorem mem_scan_of_load {loaded : List Document}
    (h : (Plan.ofStages ctx f [.select c]).load store = .ok loaded) {d : Document}
    (hd : d ∈ loaded) : d ∈ store.scan (ctx.collection f) := by
  obtain ⟨ids, -, h⟩ := bind_eq_ok.1 h
  cases ids with
  | none => cases h; exact hd
  | some ids => cases h; exact Store.mem_scan_of_mem_fetchMany hd

/-- What is loaded from a keyed store is told by the documents alone. -/
theorem load_eq_filter (hk : store.Keyed) {loaded : List Document}
    (h : (Plan.ofStages ctx f [.select c]).load store = .ok loaded) :
    loaded = (store.scan (ctx.collection f)).filter c.admits := by
  obtain ⟨ids, hids, h⟩ := bind_eq_ok.1 h
  cases ids with
  | none =>
    cases h
    exact (List.filter_eq_self.2 fun d _ => by rw [Condition.admits, hids]).symm
  | some ids =>
    cases h
    have among : c.admits = Document.idAmong ids := by
      funext d
      rw [Condition.admits, hids]
    rw [among]
    exact hk.fetchMany_eq_filter ids

/-- What is selected is in the collection and meets the condition. -/
theorem of_mem_selection (h : selection ctx store f c = .ok docs) {d : Document} (hd : d ∈ docs) :
    d ∈ store.scan (ctx.collection f) ∧ c.Met d := by
  obtain ⟨loaded, hl, hs⟩ := bind_eq_ok.1 h
  obtain ⟨-, rfl⟩ := selectDocuments_eq_ok.1 hs
  obtain ⟨hd, hm⟩ := List.mem_filter.1 hd
  exact ⟨mem_scan_of_load hl hd, Condition.met_iff.1 hm⟩

theorem selection_eq_filter (hk : store.Keyed) (h : selection ctx store f c = .ok docs) :
    docs = ((store.scan (ctx.collection f)).filter c.met).filter c.admits := by
  obtain ⟨loaded, hl, hs⟩ := bind_eq_ok.1 h
  obtain ⟨-, rfl⟩ := selectDocuments_eq_ok.1 hs
  -- What is loaded is filtered by ids first, but the two filters commute.
  rw [load_eq_filter hk hl, List.filter_filter, List.filter_filter]
  exact List.filter_congr fun d _ => Bool.and_comm _ _

/-! ## The ids that a conjunction says -/

namespace Condition

theorem firstIds?_singleton (c : Condition) : firstIds? [c] = c.ids? := by
  rw [firstIds?]
  cases c.ids? with
  | error e => rfl
  | ok ids => cases ids <;> rfl

theorem firstIds?_append (cs ds : List Condition) :
    firstIds? (cs ++ ds) = firstIds? cs >>= fun
      | some ids => .ok (some ids)
      | none => firstIds? ds := by
  induction cs with
  | nil => rfl
  | cons c cs ih =>
    rw [List.cons_append, firstIds?, firstIds?]
    cases c.ids? with
    | error e => rfl
    | ok ids =>
      cases ids with
      | some ids => rfl
      | none => exact ih

/-- What is left out of a flat conjunction says no ids. -/
theorem firstIds?_conjuncts {cs ds : List Condition} (h : conjuncts? cs = some ds) :
    firstIds? ds = firstIds? cs := by
  fun_induction conjuncts? cs generalizing ds with
  | case1 => cases h; rfl
  | case2 cs ih => exact ih h
  | case3 cs => cases h
  | case4 es cs ih =>
    obtain ⟨rest, hrest, rfl⟩ := Option.map_eq_some_iff.1 h
    rw [firstIds?_append, ih hrest, firstIds?, ids?]
    rfl
  | case5 c cs h₁ h₂ h₃ ih =>
    obtain ⟨rest, hrest, rfl⟩ := Option.map_eq_some_iff.1 h
    rw [firstIds?, firstIds?, ih hrest]

/-- A conjunction that can be met says the ids that the first of its members does that says any. -/
theorem Met.ids?_conj {cs : List Condition} {doc : Document} (h : (conj cs).Met doc) :
    (conj cs).ids? = firstIds? cs := by
  obtain ⟨ds, hds, -⟩ := holds_conjuncts.1 (holds_conj.1 h)
  rw [← firstIds?_conjuncts hds, conj, hds]
  rcases ds with _ | ⟨c, _ | ⟨d, ds⟩⟩
  · rfl
  · exact (firstIds?_singleton c).symm
  · rfl

/-- Conditions that say no ids do not say any together. -/
theorem firstIds?_silent {cs : List Condition} (h : ∀ c ∈ cs, c.ids? = .ok none) :
    firstIds? cs = .ok none := by
  induction cs with
  | nil => rfl
  | cons c cs ih =>
    rw [List.forall_mem_cons] at h
    rw [firstIds?, h.1]
    exact ih h.2

/-- The ids that some conditions say first are those that one of them says. -/
theorem mem_of_firstIds? {cs : List Condition} {ids : List String}
    (h : firstIds? cs = .ok (some ids)) : ∃ c ∈ cs, c.ids? = .ok (some ids) := by
  induction cs with
  | nil => cases h
  | cons c cs ih =>
    rw [firstIds?] at h
    obtain ⟨said, hsaid, h⟩ := bind_eq_ok.1 h
    cases said with
    | some said =>
      cases h
      exact ⟨c, List.mem_cons_self, hsaid⟩
    | none =>
      obtain ⟨c', hc', hids⟩ := ih h
      exact ⟨c', List.mem_cons_of_mem _ hc', hids⟩

/-- Whether a plan with a condition finds a document of a keyed store. -/
def selects (c : Condition) (doc : Document) : Bool := c.met doc && c.admits doc

/-- A conjunction selects what meets all its members, if all that meets a member is loaded for
    it. -/
theorem selects_conj {cs : List Condition} {d : Document}
    (h : ∀ c ∈ cs, c.met d = true → c.admits d = true) :
    (conj cs).selects d = cs.all fun c => c.met d := by
  rw [selects, Bool.eq_iff_iff, Bool.and_eq_true, met_iff, met_conj, List.all_eq_true]
  simp only [met_iff]
  refine and_iff_left_of_imp fun hm => ?_
  have said := (met_conj.2 hm).ids?_conj
  rw [admits, said]
  split
  · next ids hids =>
    obtain ⟨c, hc, hids⟩ := mem_of_firstIds? hids
    have loaded := h c hc (met_iff.2 (hm c hc))
    rwa [admits, hids] at loaded
  · rfl

/-- What a condition selects is selected with further conditions that say no ids, if these are met
    too. -/
theorem selects_conj_cons {c : Condition} {cs : List Condition} {doc : Document}
    (hs : ∀ c ∈ cs, c.ids? = .ok none) (hc : c.selects doc = true) (hm : ∀ c ∈ cs, c.Met doc) :
    (conj (c :: cs)).selects doc = true := by
  rw [selects, Bool.and_eq_true] at hc ⊢
  have met : (conj (c :: cs)).Met doc :=
    met_conj.2 (List.forall_mem_cons.2 ⟨met_iff.1 hc.1, hm⟩)
  refine ⟨met_iff.2 met, ?_⟩
  -- The further conditions say no ids, so that the same documents are loaded.
  have same : (conj (c :: cs)).ids? = c.ids? := by
    rw [met.ids?_conj, firstIds?]
    cases c.ids? with
    | error e => rfl
    | ok ids =>
      cases ids with
      | some ids => rfl
      | none => exact firstIds?_silent hs
  rw [admits, same]
  exact hc.2

/-- A further condition selects among what is selected without it, if all that meets it is loaded
    for it. -/
theorem selects_conj_snoc {cs : List Condition} {c : Condition} {d : Document}
    (h : c.met d = true → c.admits d = true) :
    (conj (cs ++ [c])).selects d =
      ((conj (cs ++ [.always])).selects d && c.met d) := by
  have always : always.Met d := rfl
  have met : (conj (cs ++ [c])).Met d ↔
      (conj (cs ++ [.always])).Met d ∧ c.Met d := by
    rw [met_conj, met_conj, List.forall_mem_append, List.forall_mem_append,
      List.forall_mem_singleton, List.forall_mem_singleton, and_iff_left always]
  -- Where both conditions are met, the same is loaded unless only the further one says ids.
  have loaded (hm : (conj (cs ++ [c])).Met d) : (conj (cs ++ [c])).admits d =
      (conj (cs ++ [.always])).admits d := by
    have ids := hm.ids?_conj
    have ids' := (met.1 hm).1.ids?_conj
    rw [firstIds?_append] at ids ids'
    rw [admits, admits, ids, ids']
    cases firstIds? cs with
    | error e => rfl
    | ok said =>
      cases said with
      | some said => rfl
      | none =>
        change (match firstIds? [c] with
          | .ok (some ids) => d.idAmong ids
          | _ => true) = true
        rw [firstIds?_singleton]
        exact h (met_iff.2 (met.1 hm).2)
  rw [selects, selects, Bool.eq_iff_iff, Bool.and_eq_true, Bool.and_eq_true,
    Bool.and_eq_true, met_iff, met_iff, met_iff]
  constructor
  · rintro ⟨hm, ha⟩
    exact ⟨⟨(met.1 hm).1, loaded hm ▸ ha⟩, (met.1 hm).2⟩
  · rintro ⟨⟨hm, ha⟩, hc⟩
    have hm := met.2 ⟨hm, hc⟩
    exact ⟨hm, loaded hm ▸ ha⟩

end Condition

/-- What is selected from a keyed store is told by its documents alone. -/
theorem selection_eq_selects (hk : store.Keyed) (h : selection ctx store f c = .ok docs) :
    docs = (store.scan (ctx.collection f)).filter c.selects := by
  rw [selection_eq_filter hk h, List.filter_filter]
  exact List.filter_congr fun d _ => Bool.and_comm _ _

/-- A condition that has an answer for the whole collection selects without a fault, if it can be
    told which ids it says. -/
theorem selection_answered (hk : store.Keyed)
    (hc : ∀ d ∈ store.scan (ctx.collection f), ∃ b, c.holds (.object d) = .ok b)
    {ids : Option (List String)} (hids : c.ids? = .ok ids) :
    selection ctx store f c = .ok ((store.scan (ctx.collection f)).filter c.selects) := by
  have load : ∃ loaded, (Plan.ofStages ctx f [.select c]).load store = .ok loaded := by
    rw [Plan.load, Plan.ofStages]
    dsimp only
    rw [hids]
    cases ids <;> exact ⟨_, rfl⟩
  obtain ⟨loaded, hl⟩ := load
  have found : selection ctx store f c = .ok (loaded.filter c.met) :=
    bind_eq_ok.2 ⟨loaded, hl, selectDocuments_answered fun d hd => hc d (mem_scan_of_load hl hd)⟩
  rw [found, selection_eq_selects hk found]

theorem selection_total (hk : store.Keyed) (hc : c.Total) {ids : Option (List String)}
    (hids : c.ids? = .ok ids) :
    selection ctx store f c = .ok ((store.scan (ctx.collection f)).filter c.selects) :=
  selection_answered hk (fun d _ => hc d) hids

/-! ## What the requester may read -/

/-- The access condition is empty, one comparison or a disjunction. -/
theorem Context.access_cases (ctx : Context) (f : Family) :
    ctx.access f = .always ∨
      ctx.access f = .equals "_visibility" (.text "public") ∨ ∃ cs, ctx.access f = .or cs := by
  rw [access]
  by_cases h : (!(ctx.config.accessControl && ctx.enforceAccess) || !f.hasAccessFields) = true
  · exact .inl (by rw [Requester.predicate, if_pos h])
  · obtain ⟨ha, hf⟩ :
        (ctx.config.accessControl && ctx.enforceAccess) = true ∧ f.hasAccessFields = true := by
      simpa using h
    rw [ha, hf]
    exact .inr (ctx.requester.predicate_cases.imp_right fun h => ⟨_, h⟩)

/-- Where everything may be read, a comparison alone says which records are meant. -/
theorem baseCondition_compare (ha : ctx.access f = .always) {filter : Filter}
    (hc : filter.condition = .always) (hs : filter.set = none) (path : String)
    (operator : Operator) (operand : Value) :
    baseCondition ctx f filter none (.compare path operator operand) =
      .ok (.compare path operator operand) := by
  rw [baseCondition, ha, hc, hs]
  rfl

/-- Beside a condition that says no ids, a condition says the ids that it says alone. -/
theorem Condition.ids?_and_silent {a c : Condition} (ha : a.ids? = .ok none) :
    (and [a, c]).ids? = c.ids? := by
  rw [ids?, firstIds?, ha]
  exact firstIds?_singleton c

/-- Beside a condition that says no ids, a condition selects what meets this one, too. -/
theorem Condition.selects_and_silent {a c : Condition} (ha : a.ids? = .ok none) (d : Document) :
    (and [a, c]).selects d = (a.met d && c.selects d) := by
  have met : (and [a, c]).met d = (a.met d && c.met d) := by
    rw [Bool.eq_iff_iff, Bool.and_eq_true, met_iff, met_iff, met_iff, Met, holds, allHold_eq_true,
      List.forall_mem_cons, List.forall_mem_singleton]
    rfl
  rw [selects, selects, met, admits, ids?_and_silent ha, admits, Bool.and_assoc]

/-- Where everything may be read, all is readable. -/
theorem Store.readable_of_always (h : ctx.access f = .always) (store : Store) :
    store.readable ctx f = store.scan (ctx.collection f) := by
  rw [readable, h]
  exact List.filter_eq_self.2 fun _ _ => rfl

/-- A request that demands one comparison selects, of what the requester may read, what the
    comparison selects. -/
theorem selection_compare {path : String} {operator : Operator} {operand : Value}
    (hk : store.Keyed) (htotal : (Condition.compare path operator operand).Total)
    {ids : Option (List String)} (hids : (Condition.compare path operator operand).ids? = .ok ids) :
    selection ctx store f (.conj [.always, .always, .always, ctx.access f,
        .compare path operator operand]) =
      .ok ((store.readable ctx f).filter (Condition.compare path operator operand).selects) := by
  by_cases hopen : ctx.access f = .always
  · rw [Store.readable_of_always hopen, hopen]
    exact selection_total hk htotal hids
  · -- Else both conditions are left, and the one on access says no ids.
    obtain ⟨silent, both⟩ : (ctx.access f).ids? = .ok none ∧
        Condition.conj [.always, .always, .always, ctx.access f, .compare path operator operand] =
          .and [ctx.access f, .compare path operator operand] := by
      rcases ctx.access_cases f with h | h | ⟨cs, h⟩
      · exact absurd h hopen
      · rw [h]
        exact ⟨rfl, rfl⟩
      · rw [h]
        exact ⟨rfl, rfl⟩
    have total : (Condition.and [ctx.access f, .compare path operator operand]).Total := by
      refine Condition.total_and ?_
      rw [List.forall_mem_cons, List.forall_mem_singleton]
      exact ⟨Requester.total_predicate _ _ _, htotal⟩
    rw [both, selection_total hk total ((Condition.ids?_and_silent silent).trans hids),
      Store.readable, List.filter_filter]
    refine congrArg Except.ok (List.filter_congr fun d _ => ?_)
    rw [Condition.selects_and_silent silent, Bool.and_comm]

/-- Of what may be read, no two records have the same id. -/
theorem Store.Keyed.pairwise_readable (hk : store.Keyed) (test : Document → Bool) :
    ((store.readable ctx f).filter test).Pairwise fun d d' => d.get? "_id" ≠ d'.get? "_id" := by
  have apart : (store.scan (ctx.collection f)).Pairwise fun d d' => d.get? "_id" ≠ d'.get? "_id" :=
    hk.pairwise_id?.imp fun hne same => hne (by rw [Document.id?, Document.id?, same])
  exact (apart.filter _).filter _

/-- Relations do not say themselves who may read them. -/
theorem Store.readable_relations (ctx : Context) (store : Store) :
    store.readable ctx .relations = store.scan (ctx.collection .relations) := by
  refine readable_of_always ?_ store
  rw [Context.access, Requester.predicate, if_pos (by simp [Family.hasAccessFields])]

/-- What meets the condition of a plan may be read. -/
theorem access_of_baseCondition {filter : Filter} {set : Option SetExpr} {extra : Condition}
    (h : baseCondition ctx f filter set extra = .ok c) {d : Document} (hd : c.Met d) :
    (ctx.access f).Met d := by
  obtain ⟨own, -, h⟩ := bind_eq_ok.1 h
  obtain ⟨given, -, h⟩ := bind_eq_ok.1 h
  cases h
  exact Condition.met_conj.1 hd _ (by simp)

/-- What meets a condition that implies access is the same among what may be read. -/
theorem filter_readable (hc : ∀ d, c.Met d → (ctx.access f).Met d) :
    (store.readable ctx f).filter c.met = (store.scan (ctx.collection f)).filter c.met := by
  rw [Store.readable, List.filter_filter]
  refine List.filter_congr fun d _ => ?_
  by_cases hd : c.met d = true
  · rw [Condition.met_iff.2 (hc d (Condition.met_iff.1 hd)), Bool.and_true]
  · rw [Bool.not_eq_true] at hd
    rw [hd, Bool.false_and]

/-- What is selected from a keyed store is told by what the requester may read. -/
theorem selection_eq_readable (hk : store.Keyed) (hc : ∀ d, c.Met d → (ctx.access f).Met d)
    (h : selection ctx store f c = .ok docs) :
    docs = ((store.readable ctx f).filter c.met).filter c.admits := by
  rw [selection_eq_filter hk h, filter_readable hc]

end Catalog
