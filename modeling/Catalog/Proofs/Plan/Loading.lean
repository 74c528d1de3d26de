import Catalog.Policy.Reading
import Catalog.Proofs.Plan.Selection
import Catalog.Proofs.Query.Leaves

/-!
# Loading by ids

If the condition of a plan says which ids a document can have, only documents with these ids are
loaded. For a store whose documents are kept under their own texts as ids this gives what the whole
collection would (`Plan.runScanned`), in the same order (`Plan.run_eq_runScanned`), under two
provisos:

* A list in the condition says its members as they are displayed. But a member may have been read as
  a number, a truth value or an instant, and is then displayed otherwise than it was given, while a
  document with the given text as its id still meets the condition. Members that are displayed as
  they were given keep their texts (`Plan.keepsIds`). The id `007` does not, and the document with
  it is not found (`run_ne_runScanned`).
* Matching the condition with the whole collection meets no fault (`Plan.Answered`). A document that
  is not loaded cannot cause one.

The ids are read off one leaf (`Condition.idLeaf?`), which the whole condition demands
(`Condition.Demands`).
-/

namespace Catalog

variable {ctx : Context} {s : Store} {plan : Plan} {c : Condition} {d : Document} {id : String}

/-! ## The leaf that says the ids -/

/-- Whether a leaf says which ids a document can have. -/
def Leaf.saysIds (l : Leaf) : Bool :=
  match l.ids? with
  | .ok none => false
  | _ => true

theorem Leaf.saysIds_eq_false {l : Leaf} : l.saysIds = false ↔ l.ids? = .ok none := by
  rw [saysIds]
  split
  · next h => exact ⟨fun _ => h, fun _ => rfl⟩
  · next h => exact ⟨nofun, fun hn => absurd hn h⟩

namespace Condition

mutual

/-- The leaf of a condition that says which ids a document can have. -/
def idLeaf? : Condition → Option Leaf
  | .leaf l => if l.saysIds then some l else none
  | .and cs => firstIdLeaf? cs
  | _ => none

/-- The leaf of the first of several conditions that says which ids a document can have. -/
def firstIdLeaf? : List Condition → Option Leaf
  | [] => none
  | c :: cs =>
    match c.idLeaf? with
    | some l => some l
    | none => firstIdLeaf? cs

end

/-- A condition demands a leaf: it is the leaf, or a conjunction with a member that demands it. -/
inductive Demands (l : Leaf) : Condition → Prop where
  | leaf : Demands l (.leaf l)
  | and {c : Condition} {cs : List Condition} (hc : c ∈ cs) (h : Demands l c) : Demands l (.and cs)

variable {l : Leaf} {P : Leaf → Prop}

/-- What holds of all leaves holds of one that is demanded. -/
theorem Demands.of_allLeaves (h : c.Demands l) (hc : c.AllLeaves P) : P l := by
  induction h with
  | leaf =>
    cases hc with
    | leaf h => exact h
  | and hmem _ ih =>
    cases hc with
    | and h => exact ih (h _ hmem)

/-- What is demanded holds where the condition is met. -/
theorem Demands.holds (h : c.Demands l) (hc : c.Met d) : l.holds (.object d) = .ok true := by
  induction h with
  | leaf => exact hc
  | and hmem _ ih =>
    rw [Met, Condition.holds, allHold_eq_true] at hc
    exact ih (hc _ hmem)

mutual

theorem demands_idLeaf : ∀ {c : Condition}, c.idLeaf? = some l → l.saysIds = true ∧ c.Demands l
  | .leaf l', h => by
    rw [idLeaf?] at h
    split at h
    · next hl =>
      cases h
      exact ⟨hl, .leaf⟩
    · exact nomatch h
  | .and cs, h => by
    rw [idLeaf?] at h
    obtain ⟨hl, c, hc, hd⟩ := demands_firstIdLeaf h
    exact ⟨hl, .and hc hd⟩
  | .always, h => nomatch h
  | .never, h => nomatch h
  | .or _, h => nomatch h

theorem demands_firstIdLeaf : ∀ {cs : List Condition}, firstIdLeaf? cs = some l →
    l.saysIds = true ∧ ∃ c ∈ cs, c.Demands l
  | [], h => nomatch h
  | c :: cs, h => by
    rw [firstIdLeaf?] at h
    split at h
    · next l' hl =>
      cases h
      obtain ⟨hs, hd⟩ := demands_idLeaf hl
      exact ⟨hs, c, List.mem_cons_self, hd⟩
    · obtain ⟨hs, c', hc', hd⟩ := demands_firstIdLeaf h
      exact ⟨hs, c', List.mem_cons_of_mem _ hc', hd⟩

end

mutual

/-- The ids that a condition says are those of its leaf that does. -/
theorem ids?_eq : ∀ c : Condition, c.ids? =
    match c.idLeaf? with
    | some l => l.ids?
    | none => .ok none
  | .leaf l => by
    rw [ids?, idLeaf?]
    cases hs : l.saysIds with
    | true => rfl
    | false => exact Leaf.saysIds_eq_false.1 hs
  | .and cs => by
    rw [ids?, idLeaf?]
    exact firstIds?_eq cs
  | .always => rfl
  | .never => rfl
  | .or _ => rfl

theorem firstIds?_eq : ∀ cs : List Condition, firstIds? cs =
    match firstIdLeaf? cs with
    | some l => l.ids?
    | none => .ok none
  | [] => rfl
  | c :: cs => by
    rw [firstIds?, firstIdLeaf?, ids?_eq c]
    cases hl : c.idLeaf? with
    | none => exact firstIds?_eq cs
    | some l =>
      have hsays := (demands_idLeaf hl).1
      dsimp only
      cases hids : l.ids? with
      | error e => rfl
      | ok ids =>
        cases ids with
        | some ids => rfl
        | none => exact nomatch hsays.symm.trans (Leaf.saysIds_eq_false.2 hids)

end

end Condition

/-! ## Texts that are kept -/

/-- Whether a member of an operand is displayed as the text that it was inferred from, if it was. An
    instant is not: it is equal to other texts, too. -/
def Value.keepsText (v : Value) (literal : Option String) : Bool :=
  match v with
  | .instant _ => false
  | v => literal.all fun t => t == v.display

/-- A text is equal to no other member that keeps its text than the one that is displayed so. -/
theorem display_of_scalarEquals {v : Value} {literal : Option String}
    (hv : v.keepsText literal = true) (h : scalarEquals (.text id) v literal = .ok true) :
    v.display = id := by
  have ofLiteral (hl : literal.all (fun t => t == v.display) = true)
      (hlit : isLiteral (.text id) literal = true) : v.display = id := by
    cases literal with
    | none => exact nomatch hlit
    | some t => exact (beq_iff_eq.1 hl).symm.trans (beq_iff_eq.1 hlit).symm
  cases v with
  | instant i => exact nomatch hv
  | null => exact nomatch h
  | text t =>
    rcases Bool.or_eq_true_iff.1 (Except.ok.inj h) with hsame | hlit
    · cases Value.text_same.1 hsame
      rfl
    · exact ofLiteral hv hlit
  | bool b => exact ofLiteral hv (Except.ok.inj h)
  | number n => exact ofLiteral hv (Except.ok.inj h)
  | array vs => exact ofLiteral hv (Except.ok.inj h)
  | object members => exact ofLiteral hv (Except.ok.inj h)

namespace Leaf

variable {l : Leaf}

/-- A leaf that says ids has a text to be equal to, or an array to be one of. -/
theorem Fitting.cases (hf : l.Fitting) (hs : l.saysIds = true) : l.path = "_id" ∧
    ((∃ t, l.operator = .eq ∧ l.operand = .text t ∧ l.literal = none ∧ l.ids? = .ok (some [t])) ∨
      ∃ vs, l.operator = .inq ∧ l.operand = .array vs ∧
        l.ids? = .ok (some (vs.map Value.display))) := by
  have hsays : l.ids? ≠ .ok none := fun h => nomatch hs.symm.trans (saysIds_eq_false.2 h)
  by_cases hp : l.path = "_id"
  · refine ⟨hp, ?_⟩
    rw [ids?, if_pos hp] at hsays ⊢
    split at hsays
    · next t he ht => exact .inl ⟨t, he, ht, hf.text he t ht, rfl⟩
    · next hi =>
      obtain ⟨vs, hvs⟩ := hf.array hi
      exact .inr ⟨vs, hi, hvs, by rw [hvs]; rfl⟩
    · exact absurd rfl hsays
  · rw [ids?, if_neg hp] at hsays
    exact absurd rfl hsays

/-- Whether each member of the operand of a leaf that lists values keeps its text. -/
def keepsTexts (l : Leaf) : Bool :=
  match l.operator, l.operand with
  | .inq, .array vs =>
    (vs.zip (literalsOf l.literal vs.length)).all fun (v, literal) => v.keepsText literal
  | _, _ => true

/-- A document that a leaf holds of has one of the ids that the leaf says. -/
theorem Fitting.exists_ids (hf : l.Fitting) (hs : l.saysIds = true) :
    ∃ ids, l.ids? = .ok (some ids) ∧ ∀ d : Document, ∀ id, d.get? "_id" = some (.text id) →
      l.keepsTexts = true → l.holds (.object d) = .ok true → id ∈ ids := by
  obtain ⟨hp, ⟨t, ho, hv, hl, hids⟩ | ⟨vs, ho, hv, hids⟩⟩ := hf.cases hs
  · refine ⟨_, hids, fun d id hd _ h => ?_⟩
    rw [holds, hp, Document.path?_key (by decide), hd, ho, hv, hl] at h
    have same : ((Value.text id).same (.text t) || false) = true := Except.ok.inj h
    rw [Bool.or_false, Value.text_same] at same
    cases same
    exact List.mem_singleton_self _
  · refine ⟨_, hids, fun d id hd hk h => ?_⟩
    rw [holds, hp, Document.path?_key (by decide), hd, ho, hv] at h
    obtain ⟨p, hp, h⟩ := Condition.exists_of_anyM h
    rw [keepsTexts, ho, hv] at hk
    exact List.mem_map.2 ⟨p.1, (List.of_mem_zip hp).1,
      display_of_scalarEquals (List.all_eq_true.1 hk p hp) h⟩

end Leaf

/-! ## Plans -/

namespace Condition

/-- If the leaf that says the ids keeps the texts of its operand, every document that has a text as
    its id and meets the condition is loaded. -/
theorem admits_of_met (hf : c.AllLeaves Leaf.Fitting)
    (hk : ∀ l, c.idLeaf? = some l → l.keepsTexts = true) (hd : d.get? "_id" = some (.text id))
    (hm : c.Met d) : c.admits d = true := by
  rw [admits, ids?_eq]
  cases hl : c.idLeaf? with
  | none => rfl
  | some l =>
    obtain ⟨hs, hdem⟩ := demands_idLeaf hl
    obtain ⟨ids, hids, hmem⟩ := (hdem.of_allLeaves hf).exists_ids hs
    dsimp only
    rw [hids]
    dsimp only
    rw [Document.idAmong, Document.id?_of_text hd, List.contains_iff_mem]
    exact hmem d id hd (hk l hl) (hdem.holds hm)

/-- Where operands fit, it can be told which ids a condition says. -/
theorem exists_ids? (hf : c.AllLeaves Leaf.Fitting) : ∃ ids, c.ids? = .ok ids := by
  rw [ids?_eq]
  cases hl : c.idLeaf? with
  | none => exact ⟨none, rfl⟩
  | some l =>
    obtain ⟨hs, hdem⟩ := demands_idLeaf hl
    obtain ⟨ids, hids, -⟩ := (hdem.of_allLeaves hf).exists_ids hs
    exact ⟨some ids, hids⟩

end Condition

namespace Plan

/-- The documents that the stages of a plan make of its whole collection. -/
def runScanned (ctx : Context) (s : Store) (plan : Plan) : Outcome (List Document) :=
  runStages ctx s (s.scan plan.collection) plan.stages

/-- A plan of a list of records, of their number, or of those with one of several values in a field,
    with a filter that was read. -/
inductive Compiled (ctx : Context) : Plan → Prop where
  | query {bounds : FilterBounds} {defaultLimit maximumLimit : Option Int} {levels : Nat}
      {v : Value} {f : Family} {filter : Filter} {set : Option SetExpr} {extra : Condition}
      {scopes : Option RelationScopes} {plan : Plan} :
      Filter.readLevels bounds defaultLimit maximumLimit levels v = .ok filter →
      extra.AllLeaves Leaf.Fitting → Plan.query ctx f filter set extra scopes = .ok plan →
      Compiled ctx plan
  | count {bounds : FilterBounds} {defaultLimit maximumLimit : Option Int} {levels : Nat}
      {v : Value} {f : Family} {filter : Filter} {set : Option SetExpr} {extra : Condition}
      {scopes : Option RelationScopes} {plan : Plan} :
      Filter.readLevels bounds defaultLimit maximumLimit levels v = .ok filter →
      extra.AllLeaves Leaf.Fitting → Plan.count ctx f filter set extra scopes = .ok plan →
      Compiled ctx plan
  | batch {bounds : FilterBounds} {defaultLimit maximumLimit : Option Int} {levels : Nat}
      {v : Value} {f : Family} {scope : Filter} {field : String} {values : List Value}
      {plan : Plan} :
      Filter.readLevels bounds defaultLimit maximumLimit levels v = .ok scope →
      Plan.batch ctx f scope field values = .ok plan → Compiled ctx plan

/-- The condition by which a plan selects. -/
def condition? (plan : Plan) : Option Condition :=
  match plan.stages with
  | .select c :: _ => some c
  | _ => none

/-- Whether the leaf of a plan's condition that says the ids, if any, keeps the texts of its
    operand. -/
def keepsIds (plan : Plan) : Bool :=
  (plan.condition?.bind Condition.idLeaf?).all Leaf.keepsTexts

/-- Matching the documents of the collection with the condition of a plan meets no fault. -/
def Answered (s : Store) (plan : Plan) : Prop :=
  ∀ c ∈ plan.condition?, ∀ d ∈ s.scan plan.collection, ∃ b, c.holds (.object d) = .ok b

end Plan

/-- The condition has an answer for all documents if the stages give anything for the whole
    collection. -/
theorem Plan.answered_of_runScanned {docs : List Document}
    (h : plan.runScanned ctx s = .ok docs) : plan.Answered s := by
  intro c hc d hd
  obtain ⟨stages, hstages⟩ : ∃ stages, plan.stages = .select c :: stages := by
    rw [Plan.condition?] at hc
    split at hc
    · next hs =>
      cases hc
      exact ⟨_, hs⟩
    · exact nomatch hc
  rw [Plan.runScanned, hstages, runStages, List.foldlM_cons] at h
  obtain ⟨found, hf, -⟩ := bind_eq_ok.1 h
  exact ⟨_, (selectDocuments_eq_ok.1 (lift_eq_ok.1 hf)).1 d hd⟩

/-- The operands of the condition of a plan fit. -/
theorem allLeaves_baseCondition {f : Family} {filter : Filter} {set : Option SetExpr}
    {extra : Condition} (hfilter : filter.condition.AllLeaves Leaf.Fitting)
    (hextra : extra.AllLeaves Leaf.Fitting) (h : baseCondition ctx f filter set extra = .ok c) :
    c.AllLeaves Leaf.Fitting := by
  obtain ⟨own, hown, h⟩ := bind_eq_ok.1 h
  obtain ⟨given, hgiven, h⟩ := bind_eq_ok.1 h
  cases h
  refine Condition.allLeaves_conj ?_
  simp only [List.forall_mem_cons]
  exact ⟨hfilter, (SetExpr.gives_conditionOf _ _ _ hown).mono fun _ => Leaf.OfField.fitting,
    (SetExpr.gives_conditionOf _ _ _ hgiven).mono fun _ => Leaf.OfField.fitting,
    (Requester.allLeaves_predicate _ _ _).mono fun _ => Leaf.OfField.fitting, hextra,
    List.forall_mem_nil _⟩

/-- A plan selects first, by a condition whose operands fit. -/
theorem Plan.Compiled.exists_ofStages (h : plan.Compiled ctx) :
    ∃ f c stages, plan = Plan.ofStages ctx f (.select c :: stages) ∧
      c.AllLeaves Leaf.Fitting := by
  cases h with
  | query hr hextra hp =>
    obtain ⟨c, joins, tail, hc, -, -, rfl⟩ := Plan.query_eq_ok.1 hp
    exact ⟨_, c, _, rfl, allLeaves_baseCondition (gives_readLevels _ _ _ _ _ _ hr) hextra hc⟩
  | count hr hextra hp =>
    obtain ⟨c, joins, hc, -, -, rfl⟩ := Plan.count_eq_ok.1 hp
    exact ⟨_, c, _, rfl, allLeaves_baseCondition (gives_readLevels _ _ _ _ _ _ hr) hextra hc⟩
  | @batch _ _ _ _ _ _ _ _ values _ hr hp =>
    obtain ⟨c, hc, hp⟩ := bind_eq_ok.1 hp
    cases hp
    exact ⟨_, c, [], rfl, allLeaves_baseCondition (gives_readLevels _ _ _ _ _ _ hr)
      (Condition.fitting_inq _ values) hc⟩

/-- What is selected after loading by ids is what is selected from the whole collection, if all that
    meets the condition is loaded. -/
theorem selection_eq_scanned (hk : s.Keyed) {f : Family} {ids : Option (List String)}
    (hids : c.ids? = .ok ids)
    (hc : ∀ d ∈ s.scan (ctx.collection f), ∃ b, c.holds (.object d) = .ok b)
    (ha : ∀ d ∈ s.scan (ctx.collection f), c.Met d → c.admits d = true) :
    selection ctx s f c = selectDocuments c (s.scan (ctx.collection f)) := by
  rw [selection_answered hk hc hids, selectDocuments_answered hc]
  refine congrArg Except.ok (List.filter_congr fun d hd => ?_)
  rw [Condition.selects, Bool.eq_iff_iff, Bool.and_eq_true, Condition.met_iff]
  exact ⟨And.left, fun hm => ⟨hm, ha d hd hm⟩⟩

/-- A plan gives what its stages make of the whole collection, if its condition keeps the texts of
    the ids and has an answer for all documents. -/
theorem Plan.run_eq_runScanned (hk : s.Keyed) (ht : s.TextIds plan.collection)
    (hp : plan.Compiled ctx) (hids : plan.keepsIds = true) (ha : plan.Answered s) :
    plan.run ctx s = plan.runScanned ctx s := by
  obtain ⟨f, c, stages, rfl, hf⟩ := hp.exists_ofStages
  obtain ⟨ids, h⟩ := Condition.exists_ids? hf
  rw [run_ofStages, selection_eq_scanned hk h (ha c rfl)]
  · rfl
  · intro d hd hm
    obtain ⟨id, hid⟩ := ht d hd
    refine Condition.admits_of_met hf (fun l hl => ?_) hid hm
    rw [Plan.keepsIds] at hids
    exact (Option.all_eq_true _ _).1 hids l hl

/-! ## Ids that are spelled otherwise -/

/-- A filter for the records with one of some ids. -/
def idsFilter (ids : List String) : Value :=
  .object [("where", .object [("_id", .object [("inq", .array (ids.map .text))])])]

/-- A request by nobody in particular. -/
def nobody : Context where
  config := .standard
  now := ⟨.first, 0⟩

/-- An entity with an id and nothing else but that everybody may read it. -/
def publicEntity (id : String) : Document := [("_id", .text id), ("_visibility", .text "public")]

/-- The store of public entities with some ids. -/
def entitiesWith (ids : List String) : Store where
  rows := ids.map fun id => ⟨"GenericEntity", id, publicEntity id⟩

theorem keyed_entitiesWith {ids : List String} (h : ids.Nodup) : (entitiesWith ids).Keyed where
  named := by
    intro r hr
    obtain ⟨id, -, rfl⟩ := List.mem_map.1 hr
    rfl
  unique := List.pairwise_map.2 (h.imp fun hne hat => hne hat.2)

theorem textIds_entitiesWith (ids : List String) (collection : String) :
    (entitiesWith ids).TextIds collection := by
  intro d hd
  obtain ⟨r, hr, -, rfl⟩ := Store.mem_scan.1 hd
  obtain ⟨id, -, rfl⟩ := List.mem_map.1 hr
  exact ⟨id, rfl⟩

/-- The ids `b` and `a` are asked for, and the plan gives the two entities in the order of the
    store, as the whole collection does. -/
theorem run_eq_runScanned_twoIds : ∃ filter plan,
    Filter.read {} (idsFilter ["b", "a"]) = .ok filter ∧
    Plan.query nobody .entities filter = .ok plan ∧
    plan.run nobody (entitiesWith ["a", "b", "c"]) =
      .ok [publicEntity "a", publicEntity "b"] ∧
    plan.run nobody (entitiesWith ["a", "b", "c"]) =
      plan.runScanned nobody (entitiesWith ["a", "b", "c"]) := by
  have same {filter : Filter} {plan : Plan} {docs : List Document}
      (hr : Filter.read {} (idsFilter ["b", "a"]) = .ok filter)
      (hp : Plan.query nobody .entities filter = .ok plan) (hids : plan.keepsIds = true)
      (hs : plan.runScanned nobody (entitiesWith ["a", "b", "c"]) = .ok docs) :
      plan.run nobody (entitiesWith ["a", "b", "c"]) =
        plan.runScanned nobody (entitiesWith ["a", "b", "c"]) :=
    Plan.run_eq_runScanned (keyed_entitiesWith (by decide)) (textIds_entitiesWith _ _)
      (.query hr .always hp) hids (Plan.answered_of_runScanned hs)
  exact ⟨_, _, rfl, rfl, rfl, same rfl rfl rfl rfl⟩

/-- The id `007` is asked for, which is also read as a number that is displayed as `7`: the entity
    with this id is not loaded, although it is equal to what is asked for. -/
theorem run_ne_runScanned : ∃ filter plan,
    Filter.read {} (idsFilter ["007"]) = .ok filter ∧
    Plan.query nobody .entities filter = .ok plan ∧
    (entitiesWith ["007"]).Keyed ∧ (entitiesWith ["007"]).TextIds plan.collection ∧
    plan.run nobody (entitiesWith ["007"]) = .ok [] ∧
    plan.runScanned nobody (entitiesWith ["007"]) = .ok [publicEntity "007"] :=
  ⟨_, _, rfl, rfl, keyed_entitiesWith (by decide), textIds_entitiesWith _ _, rfl, rfl⟩

end Catalog
