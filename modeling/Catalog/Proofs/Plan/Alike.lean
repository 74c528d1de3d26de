import Catalog.Proofs.Agreement
import Catalog.Proofs.Plan.Join

/-!
# Stores that are alike for a requester

Two stores are *alike* for a requester if they hold the same relations and, of each other family,
the same records that the requester may read, in the same order; what may not be read may differ in
any way (`Alike`). The stores are keyed, and the ids of lists and entities are texts.

A plan gives the same on both (`Alike.query_agrees`, `Alike.count_agrees`). What it selects and what
relations are joined with depend on what may be read only (`selection_compatible`,
`joinSelect_compatible`), and so does what lookups and includes load; all else of a plan does not
read the store.
-/

namespace Catalog

/-- Two stores that hold the same for a requester: the same relations, and the same of what the
    requester may read. -/
structure Alike (ctx : Context) (s t : Store) : Prop where
  keyed_left : s.Keyed
  keyed_right : t.Keyed
  texts_left : ∀ f, f = .lists ∨ f = .entities → s.TextIds (ctx.collection f)
  texts_right : ∀ f, f = .lists ∨ f = .entities → t.TextIds (ctx.collection f)
  relations : s.scan (ctx.collection .relations) = t.scan (ctx.collection .relations)
  readable : ∀ f, f ≠ .relations → s.readable ctx f = t.readable ctx f

/-- What a plan selects depends on what may be read only. -/
theorem selection_compatible {ctx : Context} {s t : Store} {f : Family} {c : Condition}
    (hs : s.Keyed) (ht : t.Keyed) (hr : s.readable ctx f = t.readable ctx f)
    (hc : ∀ d, c.Met d → (ctx.access f).Met d) :
    Compatible (selection ctx s f c) (selection ctx t f c) := by
  intro docs docs' h h'
  rw [selection_eq_readable hs hc h, selection_eq_readable ht hc h', hr]

namespace Alike

variable {ctx : Context} {s t : Store} {f : Family} {c : Condition}

theorem readable_eq (h : Alike ctx s t) (f : Family) : s.readable ctx f = t.readable ctx f := by
  by_cases hf : f = .relations
  · rw [hf, Store.readable_relations, Store.readable_relations, h.relations]
  · exact h.readable f hf

/-! ## Selecting and joining -/

theorem recordsWith_compatible (h : Alike ctx s t) (f : Family) (scope : Filter) (field : String)
    (values : List Value) :
    Compatible (recordsWith ctx s f scope field values)
      (recordsWith ctx t f scope field values) := by
  rw [recordsWith_eq, recordsWith_eq]
  intro docs docs' hs ht
  obtain ⟨c, hc, hs⟩ := bind_eq_ok.1 hs
  obtain ⟨c', hc', ht⟩ := bind_eq_ok.1 ht
  cases hc.symm.trans hc'
  exact selection_compatible h.keyed_left h.keyed_right (h.readable_eq f)
    (fun d => access_of_baseCondition hc) docs docs' hs ht

theorem joinSelect_compatible (h : Alike ctx s t) (hf : f = .lists ∨ f = .entities)
    (hc : ∀ d, c.Met d → (ctx.access f).Met d) (docs : List Document) (field : String)
    {as : String} (hkey : '.' ∉ as.toList) :
    Compatible (joinSelect ctx s docs field f as c) (joinSelect ctx t docs field f as c) := by
  intro found found' hs ht
  rw [(joinSelect_eq h.keyed_left (h.texts_left f hf) hkey hs).2, ← filter_readable hc,
    (joinSelect_eq h.keyed_right (h.texts_right f hf) hkey ht).2, ← filter_readable hc,
    h.readable_eq f]

/-! ## Lookups and includes -/

theorem recordsOf_compatible (h : Alike ctx s t) (scope : Filter) (refs : List Reference) :
    Compatible (recordsOf ctx s scope refs) (recordsOf ctx t scope refs) := by
  refine .bind (.mapM _ fun f => ?_) fun _ => .refl _
  rw [recordsNamed, recordsNamed]
  split
  · exact .refl _
  · exact (h.recordsWith_compatible f scope _ _).bind fun _ => .refl _

theorem lookupSlots_compatible (h : Alike ctx s t) (path : String) (scope : Filter)
    (page : List Document) :
    Compatible (lookupSlots ctx s path scope page) (lookupSlots ctx t path scope page) :=
  (h.recordsOf_compatible scope _).bind fun _ => .refl _

theorem lookupWith_agrees (h : Alike ctx s t) {within within' : PageChange}
    (hw : ∀ page, Agrees (within page) (within' page)) (path : String) (scope : Filter)
    (page : List Document) :
    Agrees (lookupWith ctx s within path scope page)
      (lookupWith ctx t within' path scope page) := by
  refine .bind (.lift (h.lookupSlots_compatible path scope page)) fun slots => ?_
  split
  · exact .refl _
  · exact (hw _).bind fun _ => .refl _

mutual

/-- Lookups show the same. -/
theorem lookupAll_agrees (h : Alike ctx s t) : ∀ (ls : List (Scoped Filter)) (page : List Document),
    Agrees (lookupAll ctx s ls page) (lookupAll ctx t ls page)
  | [], page => .refl _
  | l :: ls, page => by
    rw [lookupAll, lookupAll]
    exact (lookupOne_agrees h l page).bind (lookupAll_agrees h ls)

theorem lookupOne_agrees (h : Alike ctx s t) : ∀ (l : Scoped Filter) (page : List Document),
    Agrees (lookupOne ctx s l page) (lookupOne ctx t l page)
  | ⟨path, scope⟩, page => by
    rw [lookupOne, lookupOne]
    exact h.lookupWith_agrees (lookupIn_agrees h scope) path scope page

theorem lookupIn_agrees (h : Alike ctx s t) : ∀ (scope : Filter) (page : List Document),
    Agrees (lookupIn ctx s scope page) (lookupIn ctx t scope page)
  | ⟨_, _, _, _, _, lookups, _, _⟩, page => by
    rw [lookupIn, lookupIn]
    exact lookupAll_agrees h lookups page

end

theorem includeGroups_agrees (h : Alike ctx s t) (f : Family) (name : String) (scope : Filter)
    (page : List Document) :
    Agrees (includeGroups ctx s f name scope page) (includeGroups ctx t f name scope page) := by
  rw [includeGroups, includeGroups]
  split
  · exact .refl _
  · refine .bind (.refl _) fun ids => ?_
    exact .bind (.lift (h.recordsWith_compatible _ scope _ _)) fun _ => .refl _

theorem includeWith_agrees (h : Alike ctx s t) {within within' : Family → PageChange}
    (hw : ∀ target page, Agrees (within target page) (within' target page)) (f : Family)
    (name : String) (scope : Filter) (page : List Document) :
    Agrees (includeWith ctx s within f name scope page)
      (includeWith ctx t within' f name scope page) :=
  (h.includeGroups_agrees f name scope page).bind fun _ =>
    (hw _ _).bind fun _ => .refl _

mutual

/-- Includes show the same. -/
theorem includeAll_agrees (h : Alike ctx s t) (f : Family) :
    ∀ (is : List (Scoped Filter)) (page : List Document),
      Agrees (includeAll ctx s f is page) (includeAll ctx t f is page)
  | [], page => .refl _
  | i :: is, page => by
    rw [includeAll, includeAll]
    split
    · exact (includeOne_agrees h f i page).bind (includeAll_agrees h f is)
    · exact .refl _

theorem includeOne_agrees (h : Alike ctx s t) (f : Family) :
    ∀ (i : Scoped Filter) (page : List Document),
      Agrees (includeOne ctx s f i page) (includeOne ctx t f i page)
  | ⟨name, scope⟩, page => by
    rw [includeOne, includeOne]
    exact h.includeWith_agrees (fun target => includeIn_agrees h target scope) f name scope page

theorem includeIn_agrees (h : Alike ctx s t) (f : Family) :
    ∀ (scope : Filter) (page : List Document),
      Agrees (includeIn ctx s f scope page) (includeIn ctx t f scope page)
  | ⟨_, _, _, _, _, lookups, includes, _⟩, page => by
    rw [includeIn, includeIn]
    exact (lookupAll_agrees h lookups page).bind (includeAll_agrees h f includes)

end

/-! ## Plans -/

/-- A stage that is no join makes the same of the same documents. -/
theorem stage_agrees (h : Alike ctx s t) {stage : Stage} (hj : stage.isJoin = false)
    (docs : List Document) : Agrees (stage.run ctx s docs) (stage.run ctx t docs) := by
  cases stage with
  | join field target as => exact nomatch hj
  | lookup lookups => exact lookupAll_agrees h lookups docs
  | includes f scopes => exact includeAll_agrees h f scopes docs
  | _ => exact .refl _

theorem runStages_agrees (h : Alike ctx s t) {stages : List Stage}
    (hj : ∀ stage ∈ stages, stage.isJoin = false) (docs : List Document) :
    Agrees (runStages ctx s docs stages) (runStages ctx t docs stages) := by
  induction stages generalizing docs with
  | nil => exact .refl _
  | cons stage stages ih =>
    rw [List.forall_mem_cons] at hj
    rw [runStages, runStages, List.foldlM_cons, List.foldlM_cons]
    exact (h.stage_agrees hj.1 docs).bind (ih hj.2)

/-- Relations are joined with the same, whatever agrees on what they are joined with. -/
theorem endStages_agrees (h : Alike ctx s t) (hf : f = .lists ∨ f = .entities) {field as : String}
    (hkey : '.' ∉ as.toList) {filter : Filter} {set : Option SetExpr} {stages rest : List Stage}
    (hs : endStages ctx field f as filter set = .ok stages)
    (hr : ∀ docs, Agrees (runStages ctx s docs rest) (runStages ctx t docs rest))
    (docs : List Document) :
    Agrees (runStages ctx s docs (stages ++ rest)) (runStages ctx t docs (stages ++ rest)) := by
  obtain ⟨c, hc, hrun⟩ := runStages_endStages hs
  rw [hrun, hrun]
  exact .bind (.lift (h.joinSelect_compatible hf (fun d => access_of_baseCondition hc) docs field
    hkey)) hr

theorem relationStages_agrees (h : Alike ctx s t) {scopes : RelationScopes}
    {stages rest : List Stage} (hs : relationStages ctx scopes = .ok stages)
    (hr : ∀ docs, Agrees (runStages ctx s docs rest) (runStages ctx t docs rest))
    (docs : List Document) :
    Agrees (runStages ctx s docs (stages ++ rest)) (runStages ctx t docs (stages ++ rest)) := by
  obtain ⟨lists, hl, hs⟩ := bind_eq_ok.1 hs
  obtain ⟨entities, he, hs⟩ := bind_eq_ok.1 hs
  cases hs
  rw [List.append_assoc, List.append_assoc]
  refine h.endStages_agrees (.inl rfl) (by decide) hl (fun docs => ?_) docs
  refine h.endStages_agrees (.inr rfl) (by decide) he (fun docs => ?_) docs
  exact hr _

/-- A plan that selects what the requester may read gives the same. -/
theorem run_agrees (h : Alike ctx s t) (hc : ∀ d, c.Met d → (ctx.access f).Met d)
    {stages : List Stage}
    (hr : ∀ docs, Agrees (runStages ctx s docs stages) (runStages ctx t docs stages)) :
    Agrees ((Plan.ofStages ctx f (.select c :: stages)).run ctx s)
      ((Plan.ofStages ctx f (.select c :: stages)).run ctx t) := by
  rw [run_ofStages, run_ofStages]
  exact .bind (.lift (selection_compatible h.keyed_left h.keyed_right (h.readable_eq f) hc)) hr

theorem joinStages_agrees (h : Alike ctx s t) {scopes : RelationScopes}
    {stages rest : List Stage} (hs : joinStages ctx f scopes = .ok stages)
    (hr : ∀ docs, Agrees (runStages ctx s docs rest) (runStages ctx t docs rest))
    (docs : List Document) :
    Agrees (runStages ctx s docs (stages ++ rest)) (runStages ctx t docs (stages ++ rest)) := by
  by_cases hf : f = .relations
  · subst hf
    rw [joinStages_relations] at hs
    exact h.relationStages_agrees hs hr docs
  · rw [joinStages_of_ne hf] at hs
    cases hs
    exact hr docs

theorem query_agrees (h : Alike ctx s t) {filter : Filter} {set : Option SetExpr}
    {extra : Condition} {scopes : Option RelationScopes} {plan : Plan}
    (hp : Plan.query ctx f filter set extra scopes = .ok plan) :
    Agrees (plan.run ctx s) (plan.run ctx t) := by
  obtain ⟨c, joins, tail, hc, hj, ht, rfl⟩ := Plan.query_eq_ok.1 hp
  exact h.run_agrees (fun d => access_of_baseCondition hc)
    (h.joinStages_agrees hj (h.runStages_agrees (isJoin_tailStages ht)))

theorem count_agrees (h : Alike ctx s t) {filter : Filter} {set : Option SetExpr}
    {extra : Condition} {scopes : Option RelationScopes} {plan : Plan}
    (hp : Plan.count ctx f filter set extra scopes = .ok plan) :
    Agrees (plan.run ctx s) (plan.run ctx t) := by
  obtain ⟨c, joins, hc, hj, hnone, rfl⟩ := Plan.count_eq_ok.1 hp
  refine h.run_agrees (fun d => access_of_baseCondition hc) fun docs => ?_
  cases scopes with
  | none =>
    rw [hnone rfl]
    exact .refl _
  | some scopes =>
    rw [← List.append_nil joins]
    exact h.joinStages_agrees (hj scopes rfl) (fun _ => .refl _) docs

end Alike

end Catalog
