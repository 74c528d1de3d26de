import Catalog.Proofs.Rule.Kept
import Catalog.Proofs.Service.Sound

/-!
# Removing records and what names them

Removing records removes, family by family, those that name one of them in a field. Since all
removed records are left out by their own ids, what remains is told by the documents alone: those
that are neither among the removed records nor name one of them (`scan_withoutRecords`).
-/

namespace Catalog.Service

variable {ctx : Context} {s s' : Store} {f g : Family} {field : String} {ids : List Value}

/-- A family and a field are dependents of a family if the field names records of it. -/
theorem mem_dependents : (g, field) ∈ dependents f ↔ (field, f) ∈ g.references := by
  simp only [dependents, List.mem_flatMap, List.mem_filterMap]
  constructor
  · rintro ⟨g', -, ⟨field', target⟩, hr, h⟩
    dsimp only at h
    split at h
    · next ht =>
      cases h
      rwa [← ht]
    · cases h
  · intro hr
    exact ⟨g, Family.mem_all g, (field, f), hr, if_pos rfl⟩

/-- No record names another one by its own id. -/
theorem ne_id_of_mem_references {r : String × Family} (h : r ∈ g.references) : r.1 ≠ "_id" := by
  revert r
  cases g <;> decide

/-- A single comparison is looked for among all records of a family. -/
theorem matching_compare (ctx : Context) (s : Store) (g : Family) (field : String)
    (operator : Operator) (operand : Value) :
    matching ctx s g (.compare field operator operand) =
      (selection ctx s g (.compare field operator operand) : Outcome _) := by
  have access : ({ ctx with requester := {}, enforceAccess := false } : Context).access g =
      .always := access_unrestricted { ctx with requester := {} } g
  have base : baseCondition { ctx with requester := {}, enforceAccess := false } g {} none
      (.compare field operator operand) = _ := baseCondition_compare access rfl rfl _ _ _
  have plan : Plan.count { ctx with requester := {}, enforceAccess := false } g {} none
      (.compare field operator operand) = .ok _ :=
    Plan.count_eq_ok.2 ⟨_, [], base, (fun _ h => by cases h), fun _ => rfl, rfl⟩
  rw [matching, plan]
  change (Plan.ofStages _ g [.select _]).run _ s = _
  rw [run_ofStages]
  change ((selection ctx s g _ : Outcome _) >>= fun docs => pure docs) = _
  rw [bind_pure]

/-- A comparison of another field than the id says no ids. -/
theorem ids?_compare (h : field ≠ "_id") (operator : Operator) (operand : Value) :
    (Condition.compare field operator operand).ids? = .ok none := by
  rw [Condition.compare, Condition.ids?, Leaf.ids?, if_neg h]

theorem selects_compare (h : field ≠ "_id") (operator : Operator) (operand : Value)
    (d : Document) : (Condition.compare field operator operand).selects d =
      (Condition.compare field operator operand).met d := by
  rw [Condition.selects, Condition.admits, ids?_compare h, Bool.and_true]

/-- What is found by a field are the records that meet the comparison. -/
theorem matching_eq_ok (hk : s.Keyed) (hfield : field ≠ "_id") {operator : Operator}
    {operand : Value} {docs : List Document}
    (h : matching ctx s g (.compare field operator operand) = .ok docs) :
    docs = (s.scan (ctx.collection g)).filter (Condition.compare field operator operand).met := by
  rw [matching_compare, lift_eq_ok] at h
  rw [selection_eq_selects hk h]
  exact List.filter_congr fun d _ => selects_compare hfield operator operand d

/-- Whether a record names one of the given ones in a field. -/
def namesOne (ids : List Value) (field : String) (doc : Document) : Bool :=
  (Condition.compare field .inq (.array ids)).met doc

theorem plain_of_mem_references {r : String × Family} (h : r ∈ g.references) :
    '.' ∉ r.1.toList := by
  revert r
  cases g <;> decide

theorem exists_texts (h : ∀ v ∈ ids, ∃ t, v = .text t) :
    ∃ texts : List String, ids = texts.map .text := by
  induction ids with
  | nil => exact ⟨[], rfl⟩
  | cons v ids ih =>
    rw [List.forall_mem_cons] at h
    obtain ⟨⟨t, rfl⟩, h⟩ := h
    obtain ⟨texts, rfl⟩ := ih h
    exact ⟨t :: texts, rfl⟩

/-- A field with a text names one of several records with texts as ids if the text is the id of
    one. -/
theorem namesOne_iff_mem (hfield : '.' ∉ field.toList) (hids : ∀ v ∈ ids, ∃ t, v = .text t)
    {d : Document} {id : String} (hd : d.get? field = some (.text id)) :
    namesOne ids field d = true ↔ .text id ∈ ids := by
  obtain ⟨texts, rfl⟩ := exists_texts hids
  rw [namesOne, Condition.met_inq_texts hfield hd, List.contains_iff_mem, Value.text_mem_map]

/-- Of a family only the records are removed that name one of the given ones in a field. -/
theorem scan_withoutDependents (hs : s.Sound) (hfield : field ≠ "_id")
    (h : withoutDependents ctx ids s (g, field) = .ok s') (c : String) :
    s'.scan c = (s.scan c).filter fun d => !(c == ctx.collection g && namesOne ids field d) := by
  obtain ⟨docs, hdocs, h⟩ := bind_eq_ok.1 h
  obtain ⟨own, hown, h⟩ := bind_eq_ok.1 h
  cases h
  have found := matching_eq_ok hs.toKeyed hfield hdocs
  rw [Store.scan_remove hs.toKeyed]
  refine List.filter_congr fun d hd => ?_
  by_cases hc : c = ctx.collection g
  · subst hc
    rw [beq_self_eq_true, Bool.true_and, Bool.true_and]
    congr 1
    obtain ⟨id, hid⟩ := hs.textIds _ d hd
    rw [Document.idAmong_of_id? (Document.id?_of_text hid), Bool.eq_iff_iff,
      List.contains_iff_mem, List.mem_map]
    constructor
    · -- The id is that of a record that was found, and no other record has it.
      rintro ⟨v, hv, hdisplay⟩
      obtain ⟨e, he, hve⟩ := mem_of_mapM hown hv
      rw [found] at he
      obtain ⟨he, hnames⟩ := List.mem_filter.1 he
      obtain ⟨id', hid'⟩ := hs.textIds _ e he
      cases (orFault_eq_ok.1 (lift_eq_ok.1 hve)).symm.trans hid'
      cases hdisplay
      rwa [hs.toKeyed.eq_of_text_id hd he hid hid']
    · intro hnames
      refine ⟨.text id, ?_, rfl⟩
      obtain ⟨own', hown', rfl⟩ := exists_map_of_mapM hown
      have hm : d ∈ docs := by
        rw [found]
        exact List.mem_filter.2 ⟨hd, hnames⟩
      refine List.mem_map.2 ⟨d, hm, ?_⟩
      have := orFault_eq_ok.1 (lift_eq_ok.1 (hown' d hm))
      exact Option.some.inj (this.symm.trans hid)
  · rw [beq_false_of_ne hc, Bool.false_and, Bool.false_and]

/-- Dependents are removed by their ids. -/
theorem withoutDependents_eq_ok {dependent : Family × String}
    (h : withoutDependents ctx ids s dependent = .ok s') :
    ∃ own, s' = s.remove (ctx.collection dependent.1) own := by
  obtain ⟨docs, -, h⟩ := bind_eq_ok.1 h
  obtain ⟨own, -, h⟩ := bind_eq_ok.1 h
  cases h
  exact ⟨_, rfl⟩

theorem sound_withoutDependents (hs : s.Sound) {dependent : Family × String}
    (h : withoutDependents ctx ids s dependent = .ok s') : s'.Sound := by
  obtain ⟨own, rfl⟩ := withoutDependents_eq_ok h
  exact hs.remove _ _

/-- Removing keeps what removing documents by their ids keeps. -/
theorem withoutRecords_keeps {P : Store → Prop}
    (hremove : ∀ s collection ids, P s → P (s.remove collection ids)) (hs : P s)
    (h : withoutRecords ctx f ids s = .ok s') : P s' := by
  rw [withoutRecords] at h
  split at h
  · cases h
    exact hs
  · refine foldlM_keeps (fun dependent _ s s' hs hd => ?_) (hremove _ _ _ hs) h
    obtain ⟨own, rfl⟩ := withoutDependents_eq_ok hd
    exact hremove _ _ _ hs

/-- Of several families in turn, just those records are removed. -/
theorem scan_withoutAll {ds : List (Family × String)} (hs : s.Sound)
    (hfields : ∀ d ∈ ds, d.2 ≠ "_id")
    (h : ds.foldlM (withoutDependents ctx ids) s = .ok s') (c : String) :
    s'.scan c = (s.scan c).filter fun d =>
      !ds.any fun (g, field) => c == ctx.collection g && namesOne ids field d := by
  induction ds generalizing s with
  | nil =>
    cases h
    exact (List.filter_eq_self.2 fun d _ => rfl).symm
  | cons dependent ds ih =>
    rw [List.forall_mem_cons] at hfields
    rw [List.foldlM_cons] at h
    obtain ⟨t, ht, h⟩ := bind_eq_ok.1 h
    rw [ih (sound_withoutDependents hs ht) hfields.2 h, scan_withoutDependents hs hfields.1 ht,
      List.filter_filter]
    refine List.filter_congr fun d _ => ?_
    rw [List.any_cons, Bool.not_or, Bool.and_comm]

/-- Stored records say what their ids are. -/
theorem mapM_ids (hk : s.Keyed) {collection : String} {docs : List Document}
    (hdocs : ∀ d ∈ docs, d ∈ s.scan collection) :
    (docs.mapM fun d => liftM (orFault .noId (d.get? "_id")) : Outcome (List Value)) =
      .ok (docs.map (Document.field "_id")) := by
  refine (mapM_eq_ok fun d v hv => ?_).2 ⟨fun d hd => ?_, rfl⟩
  · rw [lift_eq_ok, orFault_eq_ok] at hv
    rw [Document.field, hv]
    rfl
  · obtain ⟨id, hid⟩ := hk.exists_id? (hdocs d hd)
    obtain ⟨v, hv, -⟩ := Option.bind_eq_some_iff.1 (orFault_eq_ok.1 hid)
    rw [Document.field, hv]
    rfl

/-- Records that name one of several texts can always be removed. -/
theorem exists_withoutDependents (hs : s.Sound) (hfield : field ≠ "_id")
    (hids : ∀ v ∈ ids, ∃ t, v = .text t) :
    ∃ s', withoutDependents ctx ids s (g, field) = .ok s' := by
  obtain ⟨texts, rfl⟩ := exists_texts hids
  have found : selection ctx s g (.compare field .inq (.array (texts.map .text))) = _ :=
    selection_total hs.toKeyed (Condition.total_inq_texts field texts) (ids?_compare hfield _ _)
  have stored : ∀ d ∈ (s.scan (ctx.collection g)).filter
      (Condition.compare field .inq (.array (texts.map .text))).selects,
      d ∈ s.scan (ctx.collection g) := fun d hd => (List.mem_filter.1 hd).1
  refine ⟨_, bind_eq_ok.2 ⟨_, ?_, bind_eq_ok.2 ⟨_, mapM_ids hs.toKeyed stored, rfl⟩⟩⟩
  rw [matching_compare, found, lift_ok]

/-- Records whose ids are texts can always be removed, with those that name them. -/
theorem exists_withoutRecords (hs : s.Sound) (hids : ∀ v ∈ ids, ∃ t, v = .text t) :
    ∃ s', withoutRecords ctx f ids s = .ok s' := by
  have all {ds : List (Family × String)} (hds : ∀ d ∈ ds, d.2 ≠ "_id") {s : Store}
      (hs : s.Sound) : ∃ s', ds.foldlM (withoutDependents ctx ids) s = .ok s' := by
    induction ds generalizing s with
    | nil => exact ⟨s, rfl⟩
    | cons d ds ih =>
      rw [List.forall_mem_cons] at hds
      obtain ⟨t, ht⟩ : ∃ t, withoutDependents ctx ids s d = .ok t :=
        exists_withoutDependents hs hds.1 hids
      obtain ⟨s', hs'⟩ := ih hds.2 (sound_withoutDependents hs ht)
      exact ⟨s', bind_eq_ok.2 ⟨t, ht, hs'⟩⟩
  rw [withoutRecords]
  split
  · exact ⟨s, rfl⟩
  · exact all (fun d hd => ne_id_of_mem_references (mem_dependents.1 hd)) (hs.remove _ _)

/-- Whether a document of a collection is removed with records of a family. -/
def isRemoved (ctx : Context) (f : Family) (ids : List Value) (collection : String)
    (doc : Document) : Bool :=
  (collection == ctx.collection f && doc.idAmong (ids.map Value.display)) ||
    (dependents f).any fun (g, field) => collection == ctx.collection g && namesOne ids field doc

theorem isRemoved_iff {c : String} {d : Document} :
    isRemoved ctx f ids c d = true ↔
      (c = ctx.collection f ∧ d.idAmong (ids.map Value.display) = true) ∨
        ∃ g field, (field, f) ∈ g.references ∧ c = ctx.collection g ∧
          namesOne ids field d = true := by
  rw [isRemoved, Bool.or_eq_true, Bool.and_eq_true, beq_iff_eq, List.any_eq_true]
  refine or_congr_right ⟨?_, ?_⟩
  · rintro ⟨⟨g, field⟩, hg, h⟩
    rw [Bool.and_eq_true, beq_iff_eq] at h
    exact ⟨g, field, mem_dependents.1 hg, h⟩
  · rintro ⟨g, field, hg, h⟩
    refine ⟨(g, field), mem_dependents.2 hg, ?_⟩
    rw [Bool.and_eq_true, beq_iff_eq]
    exact h

/-- Removing records leaves all that are neither among them nor name one of them. -/
theorem scan_withoutRecords (hs : s.Sound) (hids : ids ≠ [])
    (h : withoutRecords ctx f ids s = .ok s') (c : String) :
    s'.scan c = (s.scan c).filter fun d => !isRemoved ctx f ids c d := by
  rw [withoutRecords, if_neg (mt List.isEmpty_iff.1 hids)] at h
  have fields : ∀ d ∈ dependents f, d.2 ≠ "_id" :=
    fun d hd => ne_id_of_mem_references (mem_dependents.1 hd)
  rw [scan_withoutAll (hs.remove _ _) fields h, Store.scan_remove hs.toKeyed, List.filter_filter]
  refine List.filter_congr fun d _ => ?_
  rw [isRemoved, Bool.not_or, Bool.and_comm]

theorem mem_scan_withoutRecords (hs : s.Sound) (hids : ids ≠ [])
    (h : withoutRecords ctx f ids s = .ok s') {c : String} {d : Document} :
    d ∈ s'.scan c ↔ d ∈ s.scan c ∧ ¬isRemoved ctx f ids c d = true := by
  rw [scan_withoutRecords hs hids h, List.mem_filter, Bool.not_eq_true', Bool.not_eq_true]

end Catalog.Service
