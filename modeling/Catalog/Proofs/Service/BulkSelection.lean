import Catalog.Proofs.Service.Paging
import Catalog.Proofs.Service.Step
import Mathlib.Data.List.Basic

/-!
# What bulk writes select

A bulk update and a deletion in a list select records by a condition and a set, like a listing does,
but read and plan them apart from it. They come to the same where the following does not interfere
(`bulkWrites_listed_iff`).

* A condition that is false as a value, like an empty array or zero, is *overlooked*
  (`isOverlooked`): a bulk write goes on as if no condition was given (`heeded`), where a listing is
  refused.
* A bulk update does not join relations with what they relate. So it also writes over those with an
  end that the requester may not read, which no listing shows.

So the writes of a request may go beyond what it is shown (`bulkWrites_beyond_listing`).
-/

namespace Catalog.Service

variable {ctx : Context} {s s' : Store} {f g : Family} {query w set : Value} {extra : Condition}
  {found docs : List Document}

/-! ## Conditions -/

/-- Whether a bulk write overlooks a condition: it is false as a value, but not blank. -/
def isOverlooked (w : Value) : Bool := !w.truthy && !w.isBlank

/-- The condition that a bulk write goes by: none instead of one that it overlooks. -/
def heeded (w : Value) : Value := if isOverlooked w then .null else w

theorem heeded_of_not_overlooked (h : isOverlooked w = false) : heeded w = w := by
  rw [heeded, h]
  rfl

/-- A filter that is not given is one with a blank condition. -/
theorem fullFilter_null (ctx : Context) (h : w.isBlank = true) :
    fullFilter ctx .null = fullFilter ctx (.object [("where", w)]) := by
  have blank : fullFilter ctx .null = fullFilter ctx (.object [("where", .null)]) := by
    rw [fullFilter, fullFilter, Filter.read, Filter.read]
    cases (ctx.config.maxLookupDepth + 1).toNat <;> rfl
  rw [blank, fullFilter_where, fullFilter_where, readWhere, readWhere, h]
  rfl

/-- What a bulk write reads of a condition is what a listing reads of the one that is heeded. -/
theorem fullFilter_heeded (ctx : Context) (w : Value) :
    fullFilter ctx (if w.truthy then .object [("where", w)] else .null) =
      fullFilter ctx (.object [("where", heeded w)]) := by
  rw [heeded, isOverlooked]
  by_cases ht : w.truthy = true
  · rw [ht]
    rfl
  · rw [eq_false_of_ne_true ht]
    cases hb : w.isBlank with
    | true => exact fullFilter_null ctx hb
    | false => exact fullFilter_null ctx rfl

/-- A bulk write selects by the condition that it heeds. -/
theorem selected_eq {whereKey setKey : String} (hw : (param query whereKey >>= unwrapped) = .ok w)
    (hset : param query setKey = .ok set) :
    selected ctx s f query extra whereKey setKey = selectedBy ctx s f (heeded w) set extra := by
  obtain ⟨v, hv, hw⟩ := bind_eq_ok.1 hw
  dsimp only [selected]
  rw [hv, ok_bind, hw, ok_bind, fullFilter_heeded, fullFilter_where, hset, selectedBy]
  cases readWhere ctx.config.maxLookupDepth (heeded w) with
  | error e => rfl
  | ok condition =>
    change SetExpr.read set >>= _ = SetExpr.read set >>= _
    cases SetExpr.read set with
    | error e => rfl
    | ok set =>
      change ((Plan.count ctx f { condition } set extra : Outcome _) >>= fun plan =>
        plan.run ctx s) = (baseCondition ctx f { condition } set extra : Outcome _) >>= _
      rw [Plan.count]
      cases baseCondition ctx f { condition } set extra with
      | error e => rfl
      | ok c =>
        change (Plan.ofStages ctx f [.select c]).run ctx s = _
        rw [run_ofStages]
        exact bind_pure _

/-- What is overlooked is neither an object nor text, so that a filter with it is refused. -/
theorem read_overlooked (h : isOverlooked w = true) :
    Condition.read w = refuseFilter .whereNotObject := by
  cases w with
  | object members =>
    cases members with
    | nil => cases h
    | cons m members => cases h
  | _ => rfl

theorem readWhere_overlooked (h : isOverlooked w = true) {depth : Int} (hd : ¬depth < 0) :
    readWhere depth w = refuseFilter .whereNotObject := by
  have said : w.isBlank = false := by
    rw [isOverlooked, Bool.and_eq_true, Bool.not_eq_true', Bool.not_eq_true'] at h
    exact h.2
  rw [readWhere, if_neg hd, said]
  exact read_overlooked h

/-- Where a bulk write selects records, the listing is refused exactly if the condition is
    overlooked. -/
theorem refused_iff_overlooked (h : selectedBy ctx s g (heeded w) set extra = .ok found) :
    (∃ e, find ctx s f (whereQuery w set) = .error (.refused (.filter e))) ↔
      isOverlooked w = true := by
  obtain ⟨condition, given, c, hcondition, hgiven, -, -⟩ := selectedBy_eq_ok.1 h
  rw [find_where, findAll_where, selectedBy]
  constructor
  · rintro ⟨e, he⟩
    by_cases ho : isOverlooked w = true
    · exact ho
    rw [heeded_of_not_overlooked (eq_false_of_ne_true ho)] at hcondition
    rw [hcondition, hgiven] at he
    -- All that follows may meet a fault, but refuses nothing.
    have unrefused : RefusesOnly (fun _ => False) (do
        let docs ← (do
          let docs ← (do
            let c ← baseCondition ctx f { condition } given .always
            selection ctx s f c : Outcome (List Document))
          joinedRecords ctx s f docs : Outcome (List Document))
        return takeLimit (ctx.config.policy f).responseLimit docs : Outcome (List Document)) :=
      .bind (.bind (.bind (.lift _) fun _ => .lift _) fun _ => .lift _) fun _ => .ok _
    exact (unrefused _ he).elim
  · intro ho
    have deep : ¬ctx.config.maxLookupDepth < 0 := by
      intro hd
      rw [readWhere, if_pos hd] at hcondition
      cases hcondition
    rw [readWhere_overlooked ho deep]
    exact ⟨_, rfl⟩

/-! ## Updates -/

/-- A query lists exactly some records: all that it lists are these, perhaps joined with what they
    relate. -/
def ListsExactly (ctx : Context) (s : Store) (f : Family) (query : Value)
    (found : List Document) : Prop :=
  ∃ docs, findAll ctx s f query = .ok docs ∧
    docs.map (Document.get? "_id") = found.map (Document.get? "_id")

theorem joinedRecords_exactly (hk : s.Keyed)
    (ht : ∀ f, f = .lists ∨ f = .entities → s.TextIds (ctx.collection f)) :
    (∃ docs, joinedRecords ctx s f found = .ok docs ∧
        docs.map (Document.get? "_id") = found.map (Document.get? "_id")) ↔
      (f = .relations → ∀ r ∈ found, EndsReadable ctx s r) := by
  by_cases hf : f = .relations
  · subst hf
    rw [joinedRecords, if_pos rfl]
    simp only [joinRelations_eq_ok hk ht, true_imp_iff, ← isSome_shownRelation?]
    constructor
    · rintro ⟨docs, ⟨-, rfl⟩, ids⟩
      refine List.filterMap_length_eq_length.1 ?_
      rw [← List.length_map, ids, List.length_map]
    · intro ends
      have keys : ∀ r ∈ found, (Value.orNull (r.get? "_listId")).isKey = true ∧
          (Value.orNull (r.get? "_entityId")).isKey = true := fun r hr =>
        have ends := isSome_shownRelation?.1 (ends r hr)
        ⟨isKey_of_endOf (ht _ (.inl rfl)) ends.list, isKey_of_endOf (ht _ (.inr rfl)) ends.entity⟩
      refine ⟨_, ⟨⟨fun r hr => (keys r hr).1, fun r hr _ => (keys r hr).2⟩, rfl⟩, ?_⟩
      have shown : ∀ r ∈ found, (shownRelation? ctx s r).map (Document.get? "_id") =
          some (Document.get? "_id" r) := by
        intro r hr
        obtain ⟨d, hd⟩ := Option.isSome_iff_exists.1 (ends r hr)
        rw [hd, Option.map_some, get?_id_shownRelation? hd]
      rw [List.map_filterMap, List.filterMap_congr shown]
      exact congrFun List.filterMap_eq_map' found
  · rw [joinedRecords, if_neg hf]
    exact ⟨fun _ h => absurd h hf, fun _ => ⟨found, rfl, rfl⟩⟩

/-- A payload is written over some records of a family, and all others stay as they were. -/
def WritesOver (ctx : Context) (f : Family) (payload : Value) (s : Store) (found : List Document)
    (s' : Store) : Prop :=
  ∃ (q : Document → Bool) (u : Document → Document),
    found = (s.scan (ctx.collection f)).filter q ∧
    (∀ d ∈ found, ∃ body now, members payload = .ok body ∧ ctx.instant = .ok now ∧
      Record.update (ctx.config.policy f) d body now = .ok (u d)) ∧
    s'.scan (ctx.collection f) =
      (s.scan (ctx.collection f)).map (fun d => if q d then u d else d) ∧
    ∀ c, c ≠ ctx.collection f → s'.scan c = s.scan c

/-- A bulk update that succeeds writes over what it selects. -/
theorem writesOver_updateAll (hk : s.Keyed) {payload : Value} {n : Nat}
    (h : (updateAll ctx f payload query extra).run s = (.ok n, s')) :
    ∃ found, selected ctx s f query extra "where" "set" = .ok found ∧ n = found.length ∧
      WritesOver ctx f payload s found s' := by
  obtain ⟨news, hnews, rfl, hrows⟩ := run_updateAll h
  obtain ⟨q, u, -, rfl, hsel, hu⟩ := updatedRecords_eq_ok hk hnews
  refine ⟨_, hsel, List.length_map _, q, u, rfl, fun d hd => ?_, ?_, fun c hc => ?_⟩
  · obtain ⟨hd, hq⟩ := List.mem_filter.1 hd
    exact hu d hd hq
  · refine hk.scan_rewritten (fun d hd hq => ?_) hrows
    obtain ⟨body, now, -, -, hupdate⟩ := hu d hd hq
    exact (Revised.updated hupdate).id?_eq
  · exact Store.scan_rewritten_of_ne hrows hc

/-! ## Values without repetition -/

theorem mem_eraseDupsBy_loop {v : Value} {vs acc : List Value}
    (h : v ∈ List.eraseDupsBy.loop Value.same vs acc) : v ∈ vs ∨ v ∈ acc := by
  induction vs generalizing acc with
  | nil => exact .inr (List.mem_reverse.1 h)
  | cons u vs ih =>
    rw [List.eraseDupsBy.loop] at h
    split at h
    · exact (ih h).imp_left (List.mem_cons_of_mem _)
    · rcases ih h with h | h
      · exact .inl (List.mem_cons_of_mem _ h)
      · exact (List.mem_cons.1 h).imp_left fun h => List.mem_cons.2 (.inl h)

theorem mem_eraseDupsBy_loop_of_mem {v : Value} {vs acc : List Value} (h : v ∈ acc) :
    v ∈ List.eraseDupsBy.loop Value.same vs acc := by
  induction vs generalizing acc with
  | nil => exact List.mem_reverse.2 h
  | cons u vs ih =>
    rw [List.eraseDupsBy.loop]
    split
    · exact ih h
    · exact ih (List.mem_cons_of_mem _ h)

theorem text_mem_eraseDupsBy_loop {t : String} {vs : List Value} (h : .text t ∈ vs)
    (acc : List Value) : .text t ∈ List.eraseDupsBy.loop Value.same vs acc := by
  induction vs generalizing acc with
  | nil => cases h
  | cons u vs ih =>
    rw [List.eraseDupsBy.loop]
    rcases List.mem_cons.1 h with rfl | h
    · split
      · next seen =>
        -- What is the same as a text that comes again is this text.
        obtain ⟨v, hv, same⟩ := List.any_eq_true.1 seen
        exact mem_eraseDupsBy_loop_of_mem (Value.text_same.1 same ▸ hv)
      · exact mem_eraseDupsBy_loop_of_mem List.mem_cons_self
    · split
      · exact ih h acc
      · exact ih h _

theorem mem_of_mem_distinctKeys {v : Value} {vs : List Value} (h : v ∈ distinctKeys vs) : v ∈ vs :=
  (mem_eraseDupsBy_loop h).resolve_right List.not_mem_nil

/-- A text is among values without repetition if it is among the values. -/
theorem text_mem_distinctKeys {t : String} {vs : List Value} :
    .text t ∈ distinctKeys vs ↔ .text t ∈ vs :=
  ⟨mem_of_mem_distinctKeys, fun h => text_mem_eraseDupsBy_loop h []⟩

theorem distinctKeys_ne_nil {vs : List Value} (h : vs ≠ []) : distinctKeys vs ≠ [] := by
  obtain ⟨v, vs, rfl⟩ := List.exists_cons_of_ne_nil h
  have first : v ∈ List.eraseDupsBy.loop Value.same vs [v] :=
    mem_eraseDupsBy_loop_of_mem List.mem_cons_self
  exact List.ne_nil_of_mem first

theorem any_same_text {t : String} {vs : List Value} :
    vs.any (Value.text t).same = true ↔ .text t ∈ vs := by
  rw [List.any_eq_true]
  constructor
  · rintro ⟨v, hv, same⟩
    exact Value.text_same.1 same ▸ hv
  · exact fun h => ⟨_, h, Value.text_same.2 rfl⟩

/-! ## Lists -/

/-- The values by which the relations of a list name its entities. -/
def entityNames (ctx : Context) (s : Store) (listId : String) : List Value :=
  trueValues "_entityId" ((s.scan (ctx.collection .relations)).filter
    (Condition.equals "_listId" (.text listId)).met)

/-- Whether an entity is in a list. -/
def inList (ctx : Context) (s : Store) (listId : String) (entity : Document) : Bool :=
  (entityNames ctx s listId).any (entity.field "_id").same

/-- The entities of a list are told by its relations. -/
theorem entityIdsIn_eq_ok (hk : s.Keyed) {listId : String} {ids : List Value}
    (hwhere : param query "whereThrough" = .ok .null) (hset : param query "setThrough" = .ok .null)
    (h : entityIdsIn ctx s listId query = .ok ids) :
    ids = distinctKeys (entityNames ctx s listId) := by
  dsimp only [entityIdsIn] at h
  obtain ⟨-, -, h⟩ := bind_eq_ok.1 h
  obtain ⟨relations, hrelations, h⟩ := bind_eq_ok.1 h
  -- Everything may be read, and nothing else is said of the relations.
  rw [selected_eq (bind_eq_ok.2 ⟨_, hwhere, rfl⟩) hset] at hrelations
  obtain ⟨condition, given, c, hcondition, hgiven, hc, found⟩ := selectedBy_eq_ok.1 hrelations
  have always : condition = .always := by
    rw [readWhere] at hcondition
    split at hcondition
    · cases hcondition
    · cases hcondition
      rfl
  subst always
  cases hgiven
  have access : ({ ctx with requester := {}, enforceAccess := false } : Context).access .relations =
      .always := access_unrestricted { ctx with requester := {} } .relations
  have base : baseCondition { ctx with requester := {}, enforceAccess := false } .relations {} none
      (.equals "_listId" (.text listId)) = .ok (.equals "_listId" (.text listId)) :=
    baseCondition_compare access rfl rfl _ _ _
  cases base.symm.trans hc
  have selects : relations = (s.scan (ctx.collection .relations)).filter
      (Condition.equals "_listId" (.text listId)).met :=
    (selection_eq_selects hk found).trans (List.filter_congr fun d _ =>
      selects_compare (by decide) .eq (.text listId) d)
  subst selects
  split at h
  · cases h
    rfl
  · cases h

/-- The condition that an entity is one of those in a list. -/
def memberCondition (ctx : Context) (s : Store) (listId : String) : Condition :=
  .compare "_id" .inq (.array (distinctKeys (entityNames ctx s listId)))

/-- No relation names an entity by an instant. -/
def NamesNoInstants (ctx : Context) (s : Store) : Prop :=
  ∀ r ∈ s.scan (ctx.collection .relations), ∀ i, r.field "_entityId" ≠ .instant i

section Members

variable {listId id : String} {d : Document}

theorem met_memberCondition (hi : NamesNoInstants ctx s) (hd : d.get? "_id" = some (.text id)) :
    (memberCondition ctx s listId).met d = inList ctx s listId d := by
  have plain : ∀ v ∈ distinctKeys (entityNames ctx s listId), ∀ i, v ≠ .instant i := by
    intro v hv i hvi
    obtain ⟨r, hr, hv⟩ := List.mem_map.1 (List.mem_filter.1 (mem_of_mem_distinctKeys hv)).1
    exact hi r (List.mem_filter.1 hr).1 i (hv.trans hvi)
  have own : d.field "_id" = .text id := Document.field_of_get? hd
  rw [memberCondition, Condition.met_inq (by decide) hd plain, inList, own, Bool.eq_iff_iff,
    any_same_text, any_same_text, text_mem_distinctKeys]

/-- An entity that is in a list is loaded for it. -/
theorem admits_memberCondition (hd : d.get? "_id" = some (.text id))
    (h : inList ctx s listId d = true) : (memberCondition ctx s listId).admits d = true := by
  have own : d.field "_id" = .text id := Document.field_of_get? hd
  rw [inList, own, any_same_text, ← text_mem_distinctKeys] at h
  have ids : (memberCondition ctx s listId).ids? =
      .ok (some ((distinctKeys (entityNames ctx s listId)).map Value.display)) := rfl
  rw [Condition.admits, ids]
  dsimp only
  rw [Document.idAmong_of_id? (Document.id?_of_text hd), List.contains_iff_mem]
  exact List.mem_map.2 ⟨_, h, rfl⟩

end Members

/-- With a further condition, what is selected without it and meets it is selected. -/
theorem selectedBy_extra (hk : s.Keyed) (h : selectedBy ctx s f w set extra = .ok found)
    (hall : selectedBy ctx s f w set .always = .ok docs)
    (hadmits : ∀ d ∈ s.scan (ctx.collection f), extra.met d = true → extra.admits d = true) :
    found = docs.filter extra.met := by
  obtain ⟨condition, given, c, hcondition, hgiven, hc, hfound⟩ := selectedBy_eq_ok.1 h
  obtain ⟨condition', given', c', hcondition', hgiven', hc', hdocs⟩ := selectedBy_eq_ok.1 hall
  cases hcondition.symm.trans hcondition'
  cases hgiven.symm.trans hgiven'
  obtain ⟨own, hown, hc⟩ := bind_eq_ok.1 hc
  obtain ⟨own', hown', hc'⟩ := bind_eq_ok.1 hc'
  cases hown.symm.trans hown'
  obtain ⟨scope, hscope, hc⟩ := bind_eq_ok.1 hc
  obtain ⟨scope', hscope', hc'⟩ := bind_eq_ok.1 hc'
  cases hscope.symm.trans hscope'
  cases hc
  cases hc'
  rw [selection_eq_selects hk hfound, selection_eq_selects hk hdocs, List.filter_filter]
  refine List.filter_congr fun d hd => ?_
  rw [Bool.and_comm]
  have split : (Condition.conj ([condition, own, scope, ctx.access f] ++ [extra])).selects d = _ :=
    Condition.selects_conj_snoc (hadmits d hd)
  exact split

/-! ## Deletions -/

/-- Some entities are removed, and all others stay as they were. -/
def RemovesEntities (ctx : Context) (s : Store) (found : List Document) (s' : Store) : Prop :=
  ∃ q : Document → Bool, found = (s.scan (ctx.collection .entities)).filter q ∧
    s'.scan (ctx.collection .entities) =
      (s.scan (ctx.collection .entities)).filter fun d => !q d

/-- Entities are removed by their ids, and no other ones with them, as no entity names a record. -/
theorem scan_withoutEntities (hc : ctx.config.Separate) (hk : s.Keyed) {ids : List Value}
    (h : withoutRecords ctx .entities ids s = .ok s') :
    s'.scan (ctx.collection .entities) = (s.scan (ctx.collection .entities)).filter fun d =>
      !d.idAmong (ids.map Value.display) := by
  have removed : (s.remove (ctx.collection .entities) (ids.map Value.display)).scan
      (ctx.collection .entities) = (s.scan (ctx.collection .entities)).filter fun d =>
        !d.idAmong (ids.map Value.display) := by
    rw [Store.scan_remove hk]
    refine List.filter_congr fun d _ => ?_
    rw [beq_self_eq_true, Bool.true_and]
  rw [← removed]
  rw [withoutRecords] at h
  split at h
  · next none =>
    cases h
    rw [removed, List.isEmpty_iff.1 none]
    refine (List.filter_eq_self.2 fun d hd => ?_).symm
    rw [Document.idAmong]
    split <;> rfl
  · refine foldlM_keeps (P := fun t => t.scan (ctx.collection .entities) =
      (s.remove (ctx.collection .entities) (ids.map Value.display)).scan (ctx.collection .entities))
      (fun dependent hd t t' ht hstep => ?_) rfl h
    obtain ⟨own, rfl⟩ := withoutDependents_eq_ok hstep
    have other : ctx.collection .entities ≠ ctx.collection dependent.1 := by
      intro same
      have references := mem_dependents.1 hd
      rw [← hc.collections _ _ same] at references
      cases references
    rw [Store.scan_remove_of_ne other, ht]

theorem run_deleteListEntities {listId : String} {n : Nat}
    (h : (deleteListEntities ctx listId query).run s = (.ok n, s')) :
    ∃ ids, doomedEntities ctx s listId query = .ok ids ∧ n = ids.length ∧
      withoutRecords ctx .entities ids s = .ok s' := by
  have work := Write.run_write (fun store => doomedEntities ctx store listId query)
    (withoutRecords ctx .entities) List.length s
  rw [deleteListEntities, work] at h
  split at h
  · cases h
  · next ids hids =>
    split at h
    · cases h
    · next s' hremoved =>
      cases h
      exact ⟨ids, hids, rfl, hremoved⟩

/-- The entities to remove are those that are selected in the list. -/
theorem doomedEntities_eq_ok (hk : s.Keyed) {listId : String} {ids : List Value}
    (hwhere : param query "whereThrough" = .ok .null) (hset : param query "setThrough" = .ok .null)
    (hnonempty : entityNames ctx s listId ≠ [])
    (h : doomedEntities ctx s listId query = .ok ids) :
    ∃ found, selected ctx s .entities query (memberCondition ctx s listId) "where" "set" =
        .ok found ∧ ids = found.map (Document.field "_id") := by
  obtain ⟨names, hnames, h⟩ := bind_eq_ok.1 h
  obtain rfl := entityIdsIn_eq_ok hk hwhere hset hnames
  split at h
  · next none => exact absurd none (distinctKeys_ne_nil hnonempty)
  · obtain ⟨found, hfound, h⟩ := bind_eq_ok.1 h
    refine ⟨found, hfound, ((mapM_eq_ok fun d v hv => ?_).1 h).2⟩
    rw [Document.field, orFault_eq_ok.1 (lift_eq_ok.1 hv)]
    rfl

/-- A deletion in a list that succeeds removes the entities that it selects. -/
theorem removesEntities_deleteListEntities (hc : ctx.config.Separate) (hk : s.Keyed)
    (ht : s.TextIds (ctx.collection .entities)) {listId : String} {n : Nat}
    (hwhere : param query "whereThrough" = .ok .null) (hset : param query "setThrough" = .ok .null)
    (hnonempty : entityNames ctx s listId ≠ [])
    (h : (deleteListEntities ctx listId query).run s = (.ok n, s')) :
    ∃ found, selected ctx s .entities query (memberCondition ctx s listId) "where" "set" =
        .ok found ∧ n = found.length ∧ RemovesEntities ctx s found s' := by
  obtain ⟨ids, hids, rfl, hremoved⟩ := run_deleteListEntities h
  obtain ⟨found, hfound, rfl⟩ := doomedEntities_eq_ok hk hwhere hset hnonempty hids
  refine ⟨found, hfound, List.length_map _, ?_⟩
  obtain ⟨c, hselection⟩ := selected_eq_ok hfound
  obtain rfl := selection_eq_selects hk hselection
  refine ⟨c.selects, rfl, (scan_withoutEntities hc hk hremoved).trans ?_⟩
  refine List.filter_congr fun d hd => congrArg _ ?_
  -- An entity has the id of one that is selected if it is selected itself.
  obtain ⟨id, hid⟩ := ht d hd
  rw [Document.idAmong_of_id? (Document.id?_of_text hid), Bool.eq_iff_iff, List.contains_iff_mem,
    List.map_map]
  constructor
  · intro hmem
    obtain ⟨e, he, heid⟩ := List.mem_map.1 hmem
    obtain ⟨he, hselects⟩ := List.mem_filter.1 he
    obtain ⟨id', hid'⟩ := ht e he
    have same : id' = id := by
      rw [Function.comp_apply, Document.field, hid'] at heid
      exact heid
    subst same
    rwa [hk.eq_of_text_id hd he hid hid']
  · intro hselects
    refine List.mem_map.2 ⟨d, List.mem_filter.2 ⟨hd, hselects⟩, ?_⟩
    rw [Function.comp_apply, Document.field, hid]
    rfl

/-! ## Both -/

theorem mem_scan_of_selectedBy (h : selectedBy ctx s f w set extra = .ok found) {d : Document}
    (hd : d ∈ found) : d ∈ s.scan (ctx.collection f) := by
  obtain ⟨-, -, c, -, -, -, hfound⟩ := selectedBy_eq_ok.1 h
  exact (of_mem_selection hfound hd).1

/-- A listing with the condition of a bulk write that succeeds is refused exactly if the condition
    is overlooked. With the condition that is heeded instead, a bulk update writes over just what is
    listed, unless it is about relations, one of which has an end that may not be read; and a
    deletion in a list removes just those entities of the list that are listed. -/
theorem bulkWrites_listed_iff (hk : s.Keyed)
    (ht : ∀ f, f = .lists ∨ f = .entities → s.TextIds (ctx.collection f))
    (hw : (param query "where" >>= unwrapped) = .ok w) (hset : param query "set" = .ok set) :
    (∀ f payload n s', (updateAll ctx f payload query).run s = (.ok n, s') →
      ∃ found, n = found.length ∧ WritesOver ctx f payload s found s' ∧
        ((∃ e, find ctx s f (whereQuery w set) = .error (.refused (.filter e))) ↔
          isOverlooked w = true) ∧
        (ListsExactly ctx s f (whereQuery (heeded w) set) found ↔
          (f = .relations → ∀ r ∈ found, EndsReadable ctx s r))) ∧
    ∀ listId n s', ctx.config.Separate → NamesNoInstants ctx s →
      param query "whereThrough" = .ok .null → param query "setThrough" = .ok .null →
      entityNames ctx s listId ≠ [] →
      (deleteListEntities ctx listId query).run s = (.ok n, s') →
      ∃ found, n = found.length ∧ RemovesEntities ctx s found s' ∧
        ((∃ e, find ctx s .entities (whereQuery w set) = .error (.refused (.filter e))) ↔
          isOverlooked w = true) ∧
        ∀ docs, findAll ctx s .entities (whereQuery (heeded w) set) = .ok docs →
          found = docs.filter (inList ctx s listId) := by
  constructor
  · intro f payload n s' h
    obtain ⟨found, hfound, rfl, hwrites⟩ := writesOver_updateAll hk h
    rw [selected_eq hw hset] at hfound
    refine ⟨found, rfl, hwrites, refused_iff_overlooked hfound, ?_⟩
    rw [ListsExactly, findAll_where, hfound]
    change (∃ docs, (joinedRecords ctx s f found : Outcome _) = .ok docs ∧ _) ↔ _
    simp only [lift_eq_ok]
    exact joinedRecords_exactly hk ht
  · intro listId n s' hc hi hwhere hthrough hnonempty h
    have texts := ht .entities (.inr rfl)
    obtain ⟨found, hfound, rfl, hremoves⟩ :=
      removesEntities_deleteListEntities hc hk texts hwhere hthrough hnonempty h
    rw [selected_eq hw hset] at hfound
    refine ⟨found, rfl, hremoves, refused_iff_overlooked hfound, fun docs hdocs => ?_⟩
    -- Entities are joined with nothing, so that all that is selected is listed.
    rw [findAll_where] at hdocs
    obtain ⟨all, hall, hdocs⟩ := bind_eq_ok.1 hdocs
    cases hdocs
    have members : found = docs.filter (memberCondition ctx s listId).met :=
      selectedBy_extra hk hfound hall fun d hd hm => by
        obtain ⟨id, hid⟩ := texts d hd
        exact admits_memberCondition hid (met_memberCondition hi hid ▸ hm)
    rw [members]
    refine List.filter_congr fun d hd => ?_
    obtain ⟨id, hid⟩ := texts d (mem_scan_of_selectedBy hall hd)
    exact met_memberCondition hi hid

/-! ## Writes beyond the listing -/

/-- Three entities, two of which everybody may read, and a list with one of these and the third. -/
def threeEntities : Store where
  rows := [
    ⟨"List", "l", [("_id", .text "l"), ("_name", .text "L"), ("_visibility", .text "public")]⟩,
    ⟨"GenericEntity", "a", [("_id", .text "a"), ("_name", .text "A"),
      ("_visibility", .text "public"), ("x", .int 1)]⟩,
    ⟨"GenericEntity", "b", [("_id", .text "b"), ("_name", .text "B"),
      ("_visibility", .text "public"), ("x", .int 1)]⟩,
    ⟨"GenericEntity", "c", [("_id", .text "c"), ("_name", .text "C"),
      ("_visibility", .text "private"), ("x", .int 1)]⟩,
    ⟨"ListToEntityRelation", "q",
      [("_id", .text "q"), ("_listId", .text "l"), ("_entityId", .text "a")]⟩,
    ⟨"ListToEntityRelation", "r",
      [("_id", .text "r"), ("_listId", .text "l"), ("_entityId", .text "c")]⟩]

/-- A request by nobody in particular. -/
def anonymous : Context where
  config := .standard
  now := ⟨.first, 0⟩

/-- The payload that sets the field `y`. -/
def givingY : Value := .object [("y", .int 2)]

/-- An empty array as the condition: the listing is refused, but all entities that may be read are
    written over, and those of them in a list removed. Without a condition one relation is listed,
    but two are written over. -/
theorem bulkWrites_beyond_listing :
    ((∃ e, find anonymous threeEntities .entities (whereQuery (.array []) .null) =
        .error (.refused (.filter e))) ∧
      (∃ s', (updateAll anonymous .entities givingY (.object [("where", .array [])])).run
        threeEntities = (.ok 2, s')) ∧
      ∃ s', (deleteListEntities anonymous "l" (.object [("where", .array [])])).run
        threeEntities = (.ok 1, s')) ∧
    (findAll anonymous threeEntities .relations (whereQuery .null .null)).toOption.map
        List.length = some 1 ∧
      ∃ s', (updateAll anonymous .relations givingY (.object [])).run threeEntities =
        (.ok 2, s') :=
  ⟨⟨⟨.whereNotObject, rfl⟩, Write.exists_run_eq (by decide +kernel),
    Write.exists_run_eq (by decide +kernel)⟩, by decide +kernel,
    Write.exists_run_eq (by decide +kernel)⟩

/-- The query for the records whose field `x` is one. -/
def onesQuery : Value := .object [("where", .object [("x", .int 1)])]

/-- With a condition that is heeded, the entities that are listed are written over, and the one of
    them that is in the list is removed from it. -/
theorem bulkWrites_listed_iff_threeEntities :
    (∃ found s', (updateAll anonymous .entities givingY onesQuery).run threeEntities = (.ok 2, s') ∧
      WritesOver anonymous .entities givingY threeEntities found s' ∧
      ListsExactly anonymous threeEntities .entities
        (whereQuery (.object [("x", .int 1)]) .null) found) ∧
    ∃ found docs s', (deleteListEntities anonymous "l" onesQuery).run threeEntities = (.ok 1, s') ∧
      RemovesEntities anonymous threeEntities found s' ∧
      findAll anonymous threeEntities .entities (whereQuery (.object [("x", .int 1)]) .null) =
        .ok docs ∧ found = docs.filter (inList anonymous threeEntities "l") := by
  have keyed : threeEntities.Keyed :=
    { named := by
        simp only [threeEntities, List.forall_mem_cons]
        exact ⟨rfl, rfl, rfl, rfl, rfl, rfl, List.forall_mem_nil _⟩
      unique := by decide }
  have texts : ∀ f, f = .lists ∨ f = .entities →
      threeEntities.TextIds (anonymous.collection f) := by
    rintro f (rfl | rfl)
    · exact List.forall_mem_singleton.2 ⟨"l", rfl⟩
    · exact List.forall_mem_cons.2 ⟨⟨"a", rfl⟩, List.forall_mem_cons.2 ⟨⟨"b", rfl⟩,
        List.forall_mem_singleton.2 ⟨"c", rfl⟩⟩⟩
  have plain : NamesNoInstants anonymous threeEntities :=
    List.forall_mem_cons.2 ⟨nofun, List.forall_mem_singleton.2 nofun⟩
  have hw : (param onesQuery "where" >>= unwrapped) = .ok (.object [("x", .int 1)]) := rfl
  have hset : param onesQuery "set" = .ok .null := rfl
  obtain ⟨updates, removals⟩ := bulkWrites_listed_iff keyed texts hw hset
  obtain ⟨s', hs'⟩ : ∃ s', (updateAll anonymous .entities givingY onesQuery).run threeEntities =
      (.ok 2, s') := Write.exists_run_eq (by decide +kernel)
  obtain ⟨found, -, writes, -, lists⟩ := updates _ _ _ _ hs'
  obtain ⟨t, ht⟩ : ∃ t, (deleteListEntities anonymous "l" onesQuery).run threeEntities =
      (.ok 1, t) := Write.exists_run_eq (by decide +kernel)
  have listed : (findAll anonymous threeEntities .entities
      (whereQuery (.object [("x", .int 1)]) .null)).toOption.isSome = true := by decide +kernel
  obtain ⟨docs, hdocs⟩ := Option.isSome_iff_exists.1 listed
  have hdocs := toOption_eq_some.1 hdocs
  obtain ⟨removed, -, removes, -, members⟩ := removals _ _ _ Configuration.separate_standard plain
    rfl rfl (by decide +kernel) ht
  exact ⟨⟨found, s', hs', writes, lists.2 nofun⟩, removed, docs, t, ht, removes, hdocs,
    members docs hdocs⟩

end Catalog.Service
