import Catalog.Proofs.Service.Finding
import Catalog.Proofs.Service.Picking

/-!
# What a deletion removes

A deletion removes some records of a family and, with them, what goes with them (`goes`): with an
entity or a list its relations and the reactions to it, with any other record nothing. All other
documents stay as they are and where they are (`Removes`). A request to delete a record removes the
one that it names, and a request to delete entities in a list those that it picks there by their own
condition and set and by those of their relations (`doomed`); both cascade by the same table of
families and fields (`removes_withoutRecords`).

All of this is about documents whose ids are texts (`deletion_exact`). A relation that is kept under
another id outlives its entity, and an entity with an empty id is in no list
(`remains_after_deletion`).
-/

namespace Catalog.Service

variable {ctx : Context} {s s' : Store} {f g : Family} {ids : List Value} {query : Value}
  {listId field : String} {d : Document}

/-! ## What goes with what -/

/-- The field by which a record of a family says that it goes with one of another family: a
    relation or reaction by its reference to an entity or a list, and each record with itself. -/
def goesBy? : Family → Family → Option String
  | .entities, .relations => some "_entityId"
  | .entities, .entityReactions => some "_entityId"
  | .lists, .relations => some "_listId"
  | .lists, .listReactions => some "_listId"
  | f, g => if f = g then some "_id" else none

/-- Whether a record of the family `g` goes with the records of the family `f` with some ids. -/
def goes (f : Family) (ids : List Value) (g : Family) (doc : Document) : Bool :=
  (goesBy? f g).any fun field => ids.any (doc.field field).same

/-- Exactly what goes with the records of a family with some ids is removed. -/
structure Removes (ctx : Context) (f : Family) (ids : List Value) (s s' : Store) : Prop where
  left : ∀ g, s'.scan (ctx.collection g) =
    (s.scan (ctx.collection g)).filter fun d => !goes f ids g d
  others : ∀ c, (∀ g, c ≠ ctx.collection g) → s'.scan c = s.scan c

/-- All references to other records are texts. -/
def TextReferences (ctx : Context) (s : Store) : Prop :=
  ∀ f, ∀ d ∈ s.scan (ctx.collection f), ∀ r ∈ f.references, ∃ t, d.get? r.1 = some (.text t)

theorem goesBy?_eq_some :
    goesBy? f g = some field ↔ (g = f ∧ field = "_id") ∨ (field, f) ∈ g.references := by
  cases f <;> cases g <;> simp [goesBy?, Family.references, eq_comm]

theorem goes_iff : goes f ids g d = true ↔
    (g = f ∧ ids.any (d.field "_id").same = true) ∨
      ∃ field, (field, f) ∈ g.references ∧ ids.any (d.field field).same = true := by
  simp only [goes, Option.any_eq_true, goesBy?_eq_some]
  constructor
  · rintro ⟨field, ⟨rfl, rfl⟩ | href, h⟩
    · exact .inl ⟨rfl, h⟩
    · exact .inr ⟨field, href, h⟩
  · rintro (⟨rfl, h⟩ | ⟨field, href, h⟩)
    · exact ⟨"_id", .inl ⟨rfl, rfl⟩, h⟩
    · exact ⟨field, .inr href, h⟩

/-- The cascade removes a record if it goes with those that are removed. -/
theorem isRemoved_eq_goes (hc : ctx.config.Separate) (hs : s.Sound) (ht : TextReferences ctx s)
    (hids : ∀ v ∈ ids, ∃ t, v = .text t) (hd : d ∈ s.scan (ctx.collection g)) :
    isRemoved ctx f ids (ctx.collection g) d = goes f ids g d := by
  obtain ⟨id, hid⟩ := hs.textIds _ d hd
  have own : d.idAmong (ids.map Value.display) = true ↔ ids.any (d.field "_id").same = true := by
    obtain ⟨texts, rfl⟩ := exists_texts hids
    rw [Document.idAmong_of_id? (Document.id?_of_text hid), Document.field_of_get? hid,
      any_same_text, List.contains_iff_mem, List.map_map]
    simp [Function.comp_def, Value.display]
  have named {field : String} (h : (field, f) ∈ g.references) :
      namesOne ids field d = true ↔ ids.any (d.field field).same = true := by
    obtain ⟨t, hname⟩ := ht g d hd (field, f) h
    rw [namesOne_iff_mem (plain_of_mem_references h) hids hname, Document.field_of_get? hname,
      any_same_text]
  rw [Bool.eq_iff_iff, isRemoved_iff, goes_iff, own]
  refine or_congr (and_congr_left fun _ => ⟨hc.collections g f, congrArg _⟩) ⟨?_, ?_⟩
  · rintro ⟨g', field, href, hcollection, h⟩
    obtain rfl := hc.collections g g' hcollection
    exact ⟨field, href, (named href).1 h⟩
  · rintro ⟨field, href, h⟩
    exact ⟨g, field, href, rfl, (named href).2 h⟩

/-- Removing records by texts removes exactly what goes with them. -/
theorem removes_withoutRecords (hc : ctx.config.Separate) (hs : s.Sound)
    (ht : TextReferences ctx s) (hids : ∀ v ∈ ids, ∃ t, v = .text t)
    (h : withoutRecords ctx f ids s = .ok s') : Removes ctx f ids s s' := by
  by_cases hnone : ids = []
  · subst hnone
    cases h
    refine ⟨fun g => (List.filter_eq_self.2 fun d _ => ?_).symm, fun c _ => rfl⟩
    rw [goes, Bool.not_eq_true', Option.any_eq_false]
    exact fun _ _ => rfl
  · have scan := scan_withoutRecords hs hnone h
    refine ⟨fun g => ?_, fun c hother => ?_⟩
    · rw [scan]
      exact List.filter_congr fun d hd => by rw [isRemoved_eq_goes hc hs ht hids hd]
    · rw [scan]
      refine List.filter_eq_self.2 fun d _ => ?_
      rw [Bool.not_eq_true', Bool.eq_false_iff, ne_eq, isRemoved_iff]
      rintro (⟨rfl, -⟩ | ⟨g, -, -, rfl, -⟩)
      · exact hother _ rfl
      · exact hother _ rfl

/-! ## One record -/

/-- A record that is stored under its id can be removed, and only such a record. -/
theorem exists_run_delete (hs : s.Sound) {id : String} :
    (∃ s', (delete ctx f id).run s = (.ok (), s')) ↔
      ∃ d ∈ s.scan (ctx.collection f), d.get? "_id" = some (.text id) := by
  have run : (delete ctx f id).run s = _ := Write.run_change _ s
  rw [run, stored]
  cases hf : s.fetch? (ctx.collection f) id with
  | none =>
    refine iff_of_false (fun h => ?_) (fun h => ?_)
    · obtain ⟨s', h⟩ := h
      cases h
    · obtain ⟨d, hd, hid⟩ := h
      rw [hs.toKeyed.fetch?_of_mem_scan hd (Document.id?_of_text hid)] at hf
      cases hf
  | some d =>
    obtain ⟨s', hs'⟩ : ∃ s', withoutRecords ctx f [.text id] s = .ok s' :=
      exists_withoutRecords hs (List.forall_mem_singleton.2 ⟨id, rfl⟩)
    refine iff_of_true ⟨s', ?_⟩ ⟨d, Store.mem_scan_of_fetch? hf, hs.get?_id_of_fetch? hf⟩
    dsimp only
    rw [ok_bind, hs']

theorem removes_delete (hc : ctx.config.Separate) (hs : s.Sound) (ht : TextReferences ctx s)
    {id : String} (h : (delete ctx f id).run s = (.ok (), s')) :
    Removes ctx f [.text id] s s' := by
  have run : (delete ctx f id).run s = _ := Write.run_change _ s
  rw [run] at h
  split at h
  · next t hwork =>
    obtain ⟨d, -, hwork⟩ := bind_eq_ok.1 hwork
    cases h
    exact removes_withoutRecords hc hs ht (List.forall_mem_singleton.2 ⟨id, rfl⟩) hwork
  · cases h

/-! ## Entities in a list -/

/-- The relations of a list that a request picks. -/
def pickedRelations (ctx : Context) (s : Store) (listId : String) (relations : Pick) :
    List Document :=
  (s.scan (ctx.collection .relations)).filter fun r =>
    relations.picks r && (r.field "_listId").same (.text listId)

/-- The entities that a request picks among those that the requester may read and that a relation in
    the list names, which it picks too. No relation names an entity by an empty text. -/
def doomed (ctx : Context) (s : Store) (listId : String) (entities relations : Pick) :
    List Document :=
  (s.readable ctx .entities).filter fun e =>
    entities.picks e && ((e.field "_id").truthy &&
      (pickedRelations ctx s listId relations).any fun r =>
        (r.field "_entityId").same (e.field "_id"))

section Doomed

variable {entities relations : Pick}

/-- What a request demands of the relations of a list, with what it picks of them, is what is picked
    of the relations of the list. -/
theorem filter_relations (ht : TextReferences ctx s) :
    (s.readable { ctx with requester := {}, enforceAccess := false } .relations).filter
        (fun r => relations.picks r && (Condition.equals "_listId" (.text listId)).met r) =
      pickedRelations ctx s listId relations := by
  rw [Store.readable_relations]
  refine List.filter_congr fun r hr => congrArg _ ?_
  exact Condition.met_equals_same (by decide)
    (ht .relations r hr ("_listId", .lists) List.mem_cons_self)

/-- What the relations that are picked name are texts, those that are not empty. -/
theorem exists_texts_pickedRelations (ht : TextReferences ctx s) : ∃ texts : List String,
    trueValues "_entityId" (pickedRelations ctx s listId relations) = texts.map .text ∧
      ∀ t, t ∈ texts ↔ t ≠ "" ∧
        ∃ r ∈ pickedRelations ctx s listId relations, r.get? "_entityId" = some (.text t) :=
  exists_texts_trueValues fun r hr =>
    ht .relations r (List.mem_filter.1 hr).1 ("_entityId", .entities)
      (List.mem_cons_of_mem _ List.mem_cons_self)

/-- The names of the entities whose relations are picked, each once. What is picked of the entities
    with these names are the doomed ones. -/
theorem exists_names (hs : s.Sound) (ht : TextReferences ctx s) (listId : String)
    (entities relations : Pick) : ∃ texts : List String,
    distinctKeys (trueValues "_entityId" (pickedRelations ctx s listId relations)) =
      texts.map .text ∧
    (s.readable ctx .entities).filter (fun e => entities.picks e &&
        (Condition.compare "_id" .inq (.array (texts.map .text))).met e) =
      doomed ctx s listId entities relations := by
  obtain ⟨names, hnames, mem⟩ := exists_texts_pickedRelations ht
  obtain ⟨texts, htexts⟩ : ∃ texts : List String,
      distinctKeys (names.map Value.text) = texts.map .text := by
    refine exists_texts fun v hv => ?_
    obtain ⟨t, -, rfl⟩ := List.mem_map.1 (mem_of_mem_distinctKeys hv)
    exact ⟨t, rfl⟩
  have named : ∀ t, t ∈ texts ↔ t ≠ "" ∧
      ∃ r ∈ pickedRelations ctx s listId relations, r.get? "_entityId" = some (.text t) := by
    intro t
    rw [← Value.text_mem_map, ← htexts, text_mem_distinctKeys, Value.text_mem_map, mem]
  refine ⟨texts, by rw [hnames, htexts], List.filter_congr fun e he => congrArg _ ?_⟩
  obtain ⟨id, hid⟩ := hs.textIds _ e (List.mem_filter.1 he).1
  exact met_inq_names named hid

/-- Nothing is doomed if nothing is named. -/
theorem doomed_eq_nil (hs : s.Sound)
    (members : (s.readable ctx .entities).filter (fun e => entities.picks e &&
        (Condition.compare "_id" .inq (.array ([].map .text))).met e) =
      doomed ctx s listId entities relations) : doomed ctx s listId entities relations = [] := by
  rw [← members]
  refine List.filter_eq_nil_iff.2 fun e he h => ?_
  obtain ⟨id, hid⟩ := hs.textIds _ e (List.mem_filter.1 he).1
  rw [Condition.met_inq_texts (by decide) hid, Bool.and_eq_true] at h
  cases h.2

/-- All that is one of some texts by its id is loaded for them. -/
theorem admits_of_met_inq (hs : s.Sound) (texts : List String) :
    ∀ e ∈ s.scan (ctx.collection f),
      (Condition.compare "_id" .inq (.array (texts.map .text))).met e = true →
        (Condition.compare "_id" .inq (.array (texts.map .text))).admits e = true := by
  intro e he hm
  obtain ⟨id, hid⟩ := hs.textIds _ e he
  rw [← Condition.selects_inq_eq_met hid] at hm
  exact (Bool.and_eq_true_iff.1 hm).2

theorem mapM_ids_doomed (hs : s.Sound) : ((doomed ctx s listId entities relations).mapM fun d =>
    liftM (orFault .noId (d.get? "_id")) : Outcome (List Value)) =
      .ok ((doomed ctx s listId entities relations).map (Document.field "_id")) :=
  mapM_ids hs.toKeyed fun _ hd => (List.mem_filter.1 (List.mem_filter.1 hd).1).1

variable (hs : s.Sound) (ht : TextReferences ctx s)
  (hrelations : relations.Said ctx query "whereThrough" "setThrough") (hrids : relations.KeepsIds)

include hs ht hrelations hrids

/-- The entities of a list are named by its relations that are picked. -/
theorem entityIdsIn_said (h : entityIdsIn ctx s listId query = .ok ids) :
    ids = distinctKeys (trueValues "_entityId" (pickedRelations ctx s listId relations)) := by
  dsimp only [entityIdsIn] at h
  obtain ⟨-, -, h⟩ := bind_eq_ok.1 h
  obtain ⟨found, hfound, h⟩ := bind_eq_ok.1 h
  have said : relations.Said { ctx with requester := {}, enforceAccess := false } query
      "whereThrough" "setThrough" := ⟨hrelations.condition, hrelations.scope⟩
  have picked := said.selected_eq (hs.textIds _) hrids (fun r _ _ => rfl) hs.toKeyed hfound
  rw [filter_relations ht] at picked
  subst picked
  split at h
  · cases h
    rfl
  · cases h

theorem exists_entityIdsIn (hlist : demand ctx s .lists listId = .ok ())
    (hanswers : relations.Answers (s.scan (ctx.collection .relations))) :
    entityIdsIn ctx s listId query =
      .ok (distinctKeys (trueValues "_entityId" (pickedRelations ctx s listId relations))) := by
  have said : relations.Said { ctx with requester := {}, enforceAccess := false } query
      "whereThrough" "setThrough" := ⟨hrelations.condition, hrelations.scope⟩
  have fitting : (Condition.equals "_listId" (.text listId)).AllLeaves Leaf.Fitting :=
    (Condition.allLeaves_compare "_listId" .eq (.text listId) (by decide) (by decide)).mono
      fun _ h => h.ofField.fitting
  have found := said.exists_selected (hs.textIds _) hrids (fun r _ _ => rfl) hs.toKeyed hanswers
    (Condition.total_equals_text "_listId" listId) fitting
  rw [filter_relations ht] at found
  have keys : (trueValues "_entityId"
      (pickedRelations ctx s listId relations)).all Value.isKey = true := by
    obtain ⟨texts, htexts, -⟩ := exists_texts_pickedRelations ht
    rw [htexts, List.all_eq_true, List.forall_mem_map]
    exact fun _ _ => rfl
  dsimp only [entityIdsIn]
  rw [hlist, ok_bind, found, ok_bind, if_pos keys]
  rfl

variable (hentities : entities.Said ctx query "where" "set") (heids : entities.KeepsIds)

include hentities heids

/-- The ids of the entities to remove are those of the doomed ones. -/
theorem doomedEntities_said (h : doomedEntities ctx s listId query = .ok ids) :
    ids = (doomed ctx s listId entities relations).map (Document.field "_id") := by
  obtain ⟨names, hnames, h⟩ := bind_eq_ok.1 h
  obtain rfl := entityIdsIn_said hs ht hrelations hrids hnames
  obtain ⟨texts, htexts, members⟩ := exists_names hs ht listId entities relations
  rw [htexts] at h
  cases texts with
  | nil =>
    cases h
    rw [doomed_eq_nil hs members]
    rfl
  | cons t texts =>
    obtain ⟨found, hfound, h⟩ := bind_eq_ok.1 h
    have picked := hentities.selected_eq (hs.textIds _) heids (admits_of_met_inq hs (t :: texts))
      hs.toKeyed hfound
    rw [members] at picked
    subst picked
    exact Except.ok.inj (h.symm.trans (mapM_ids_doomed hs))

theorem exists_doomedEntities (hlist : demand ctx s .lists listId = .ok ())
    (hanswers : relations.Answers (s.scan (ctx.collection .relations)))
    (hanswers' : entities.Answers (s.scan (ctx.collection .entities))) :
    doomedEntities ctx s listId query =
      .ok ((doomed ctx s listId entities relations).map (Document.field "_id")) := by
  obtain ⟨texts, htexts, members⟩ := exists_names hs ht listId entities relations
  rw [doomedEntities, exists_entityIdsIn hs ht hrelations hrids hlist hanswers, ok_bind, htexts]
  cases texts with
  | nil =>
    rw [doomed_eq_nil hs members]
    rfl
  | cons t texts =>
    have found := hentities.exists_selected (hs.textIds _) heids
      (admits_of_met_inq hs (t :: texts)) hs.toKeyed hanswers'
      (Condition.total_inq_texts "_id" (t :: texts)) (Condition.fitting_inq _ _)
    rw [members] at found
    exact bind_eq_ok.2 ⟨_, found, mapM_ids_doomed hs⟩

end Doomed

/-- The ids of the doomed entities are texts. -/
theorem exists_texts_doomed (hs : s.Sound) (ctx : Context) (listId : String)
    (entities relations : Pick) :
    ∀ v ∈ (doomed ctx s listId entities relations).map (Document.field "_id"),
      ∃ t, v = .text t := by
  refine List.forall_mem_map.2 fun e he => ?_
  obtain ⟨id, hid⟩ := hs.textIds _ e (List.mem_filter.1 (List.mem_filter.1 he).1).1
  exact ⟨id, Document.field_of_get? hid⟩

theorem run_deleteListEntities_eq (hids : doomedEntities ctx s listId query = .ok ids)
    (h : withoutRecords ctx .entities ids s = .ok s') :
    (deleteListEntities ctx listId query).run s = (.ok ids.length, s') := by
  have work := Write.run_write (fun store => doomedEntities ctx store listId query)
    (withoutRecords ctx .entities) List.length s
  rw [hids] at work
  dsimp only at work
  rwa [h] at work

/-- In a store whose documents have texts as ids and references, a record can be deleted if and only
    if it is there, and this removes exactly what goes with it. A deletion in a list removes exactly
    what goes with the entities that are picked there, and gives their number. If it can be told of
    all records whether they are picked, it is answered for all lists that may be demanded. -/
theorem deletion_exact (hc : ctx.config.Separate) (hs : s.Sound) (ht : TextReferences ctx s) :
    (∀ f id, ((∃ s', (delete ctx f id).run s = (.ok (), s')) ↔
        ∃ d ∈ s.scan (ctx.collection f), d.get? "_id" = some (.text id)) ∧
      ∀ s', (delete ctx f id).run s = (.ok (), s') → Removes ctx f [.text id] s s') ∧
    ∀ listId query entities relations, entities.Said ctx query "where" "set" →
      entities.KeepsIds → relations.Said ctx query "whereThrough" "setThrough" →
      relations.KeepsIds →
      let found := doomed ctx s listId entities relations
      (∀ n s', (deleteListEntities ctx listId query).run s = (.ok n, s') →
        n = found.length ∧ (found.Pairwise fun e e' => e.get? "_id" ≠ e'.get? "_id") ∧
          Removes ctx .entities (found.map (Document.field "_id")) s s') ∧
      (relations.Answers (s.scan (ctx.collection .relations)) →
        entities.Answers (s.scan (ctx.collection .entities)) →
          ((∃ n s', (deleteListEntities ctx listId query).run s = (.ok n, s')) ↔
            demand ctx s .lists listId = .ok ())) := by
  refine ⟨fun f id => ⟨exists_run_delete hs, fun s' => removes_delete hc hs ht⟩,
    fun listId query entities relations hentities heids hrelations hrids => ⟨fun n s' h => ?_,
      fun hranswers heanswers => ⟨fun h => ?_, fun hlist => ?_⟩⟩⟩
  · obtain ⟨ids, hids, rfl, hremoved⟩ := run_deleteListEntities h
    obtain rfl := doomedEntities_said hs ht hrelations hrids hentities heids hids
    exact ⟨List.length_map _, hs.toKeyed.pairwise_readable _,
      removes_withoutRecords hc hs ht (exists_texts_doomed hs _ _ _ _) hremoved⟩
  · obtain ⟨n, s', h⟩ := h
    obtain ⟨ids, hids, -, -⟩ := run_deleteListEntities h
    obtain ⟨names, hnames, -⟩ := bind_eq_ok.1 hids
    obtain ⟨⟨⟩, hlist, -⟩ := bind_eq_ok.1 hnames
    exact hlist
  · obtain ⟨s', hs'⟩ : ∃ s', withoutRecords ctx .entities
        ((doomed ctx s listId entities relations).map (Document.field "_id")) s = .ok s' :=
      exists_withoutRecords hs (exists_texts_doomed hs _ _ _ _)
    have hids := exists_doomedEntities hs ht hrelations hrids hentities heids hlist hranswers
      heanswers
    exact ⟨_, s', run_deleteListEntities_eq hids hs'⟩

/-! ## Deletions in a small catalog -/

/-- Two lists of entities, with reactions. In the first list two entities are drafts and two are
    pinned, one of them both. -/
def pinnedLists : Store where
  rows := [
    ⟨"List", "l", publicEntity "l"⟩,
    ⟨"List", "m", publicEntity "m"⟩,
    ⟨"GenericEntity", "a", publicEntity "a" ++ [("draft", .bool true)]⟩,
    ⟨"GenericEntity", "b", publicEntity "b" ++ [("draft", .bool true)]⟩,
    ⟨"GenericEntity", "c", publicEntity "c"⟩,
    ⟨"ListToEntityRelation", "p", [("_id", .text "p"), ("_listId", .text "l"),
      ("_entityId", .text "a"), ("pinned", .bool true)]⟩,
    ⟨"ListToEntityRelation", "q", [("_id", .text "q"), ("_listId", .text "l"),
      ("_entityId", .text "b")]⟩,
    ⟨"ListToEntityRelation", "r", [("_id", .text "r"), ("_listId", .text "l"),
      ("_entityId", .text "c"), ("pinned", .bool true)]⟩,
    ⟨"ListToEntityRelation", "t", [("_id", .text "t"), ("_listId", .text "m"),
      ("_entityId", .text "a")]⟩,
    ⟨"EntityReaction", "u", [("_id", .text "u"), ("_entityId", .text "a")]⟩,
    ⟨"EntityReaction", "v", [("_id", .text "v"), ("_entityId", .text "b")]⟩,
    ⟨"ListReaction", "w", [("_id", .text "w"), ("_listId", .text "l")]⟩]

/-- The query for drafts that are pinned. -/
def pinnedDrafts : Value :=
  .object [("where", .object [("draft", .bool true)]),
    ("whereThrough", .object [("pinned", .bool true)])]

/-- What it picks of the entities. -/
def draftsPick : Pick := ⟨.leaf ⟨"draft", .eq, .bool true, none⟩, .always⟩

/-- What it picks of their relations. -/
def pinnedPick : Pick := ⟨.leaf ⟨"pinned", .eq, .bool true, none⟩, .always⟩

/-- The ids of what is stored for a family. -/
def idsOf (ctx : Context) (s : Store) (f : Family) : List String :=
  (s.scan (ctx.collection f)).map fun d => (d.field "_id").display

/-- With the first list, its relations and the reaction to it go. With the draft that is pinned in
    it, its relations to both lists and the reaction to it go. -/
theorem deletion_exact_pinnedLists :
    (pinnedLists.Sound ∧ TextReferences anonymous pinnedLists ∧
      draftsPick.Said anonymous pinnedDrafts "where" "set" ∧ draftsPick.KeepsIds ∧
      pinnedPick.Said anonymous pinnedDrafts "whereThrough" "setThrough" ∧ pinnedPick.KeepsIds) ∧
    (∃ s', (delete anonymous .lists "l").run pinnedLists = (.ok (), s') ∧
      Removes anonymous .lists [.text "l"] pinnedLists s' ∧
      Family.all.map (idsOf anonymous s') = [["a", "b", "c"], ["m"], ["u", "v"], [], ["t"]]) ∧
    ∃ s', (deleteListEntities anonymous "l" pinnedDrafts).run pinnedLists = (.ok 1, s') ∧
      Removes anonymous .entities [.text "a"] pinnedLists s' ∧
      Family.all.map (idsOf anonymous s') = [["b", "c"], ["l", "m"], ["v"], ["w"], ["q", "r"]] := by
  have sound : pinnedLists.Sound := {
    named := by
      simp only [pinnedLists, List.forall_mem_cons]
      exact ⟨rfl, rfl, rfl, rfl, rfl, rfl, rfl, rfl, rfl, rfl, rfl, rfl, List.forall_mem_nil _⟩
    unique := by simp [pinnedLists]
    texts := by
      simp only [pinnedLists, List.forall_mem_cons]
      exact ⟨⟨_, rfl⟩, ⟨_, rfl⟩, ⟨_, rfl⟩, ⟨_, rfl⟩, ⟨_, rfl⟩, ⟨_, rfl⟩, ⟨_, rfl⟩, ⟨_, rfl⟩,
        ⟨_, rfl⟩, ⟨_, rfl⟩, ⟨_, rfl⟩, ⟨_, rfl⟩, List.forall_mem_nil _⟩ }
  have references : TextReferences anonymous pinnedLists := by
    intro f
    cases f with
    | entities => exact fun _ _ _ hr => absurd hr List.not_mem_nil
    | lists => exact fun _ _ _ hr => absurd hr List.not_mem_nil
    | entityReactions =>
      exact List.forall_mem_cons.2 ⟨List.forall_mem_singleton.2 ⟨_, rfl⟩,
        List.forall_mem_singleton.2 (List.forall_mem_singleton.2 ⟨_, rfl⟩)⟩
    | listReactions =>
      exact List.forall_mem_singleton.2 (List.forall_mem_singleton.2 ⟨_, rfl⟩)
    | relations =>
      have ends {d : Document} (hl : ∃ t, d.get? "_listId" = some (.text t))
          (he : ∃ t, d.get? "_entityId" = some (.text t)) :
          ∀ r ∈ Family.relations.references, ∃ t, d.get? r.1 = some (.text t) :=
        List.forall_mem_cons.2 ⟨hl, List.forall_mem_singleton.2 he⟩
      exact List.forall_mem_cons.2 ⟨ends ⟨_, rfl⟩ ⟨_, rfl⟩, List.forall_mem_cons.2
        ⟨ends ⟨_, rfl⟩ ⟨_, rfl⟩, List.forall_mem_cons.2 ⟨ends ⟨_, rfl⟩ ⟨_, rfl⟩,
          List.forall_mem_singleton.2 (ends ⟨_, rfl⟩ ⟨_, rfl⟩)⟩⟩⟩
  have drafts : draftsPick.Said anonymous pinnedDrafts "where" "set" :=
    ⟨⟨_, rfl, rfl, rfl⟩, ⟨_, _, rfl, rfl, rfl⟩⟩
  have pinned : pinnedPick.Said anonymous pinnedDrafts "whereThrough" "setThrough" :=
    ⟨⟨_, rfl, rfl, rfl⟩, ⟨_, _, rfl, rfl, rfl⟩⟩
  have draftsKept : draftsPick.KeepsIds := fun l hl => by cases hl
  have pinnedKept : pinnedPick.KeepsIds := fun l hl => by cases hl
  obtain ⟨records, entities⟩ := deletion_exact Configuration.separate_standard sound references
  obtain ⟨removal, -⟩ := entities "l" pinnedDrafts _ _ drafts draftsKept pinned pinnedKept
  have deleted : (delete anonymous .lists "l").run pinnedLists = (.ok (), _) :=
    Write.run_eq_of_answer (by decide)
  have removed : (deleteListEntities anonymous "l" pinnedDrafts).run pinnedLists = (.ok 1, _) :=
    Write.run_eq_of_answer (by decide)
  have found : (doomed anonymous pinnedLists "l" draftsPick pinnedPick).map (Document.field "_id") =
      [.text "a"] := rfl
  have removes := (removal 1 _ removed).2.2
  rw [found] at removes
  exact ⟨⟨sound, references, drafts, draftsKept, pinned, pinnedKept⟩,
    ⟨_, deleted, (records .lists "l").2 _ deleted, by decide⟩,
    ⟨_, removed, removes, by decide⟩⟩

/-- A relation that is kept under the number of a truth value, and an entity with an empty id. -/
def keptOtherwise : Store where
  rows := [
    ⟨"List", "l", publicEntity "l"⟩,
    ⟨"GenericEntity", "e", publicEntity "e"⟩,
    ⟨"GenericEntity", "", publicEntity ""⟩,
    ⟨"ListToEntityRelation", "1", [("_id", .bool true), ("_listId", .text "l"),
      ("_entityId", .text "e")]⟩,
    ⟨"ListToEntityRelation", "r", [("_id", .text "r"), ("_listId", .text "l"),
      ("_entityId", .text "")]⟩]

/-- The relation is left without its entity, and the entity with an empty id is not removed with the
    list's entities. -/
theorem remains_after_deletion :
    (∃ s', (delete anonymous .entities "e").run keptOtherwise = (.ok (), s') ∧
      Family.all.map (idsOf anonymous s') = [[""], ["l"], [], [], ["True", "r"]]) ∧
    ∃ s', (deleteListEntities anonymous "l" (.object [])).run keptOtherwise = (.ok 1, s') ∧
      Family.all.map (idsOf anonymous s') = [[""], ["l"], [], [], ["True", "r"]] :=
  ⟨⟨_, Write.run_eq_of_answer (by decide), by decide⟩,
    _, Write.run_eq_of_answer (by decide), by decide⟩

end Catalog.Service
