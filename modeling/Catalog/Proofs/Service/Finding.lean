import Catalog.Proofs.Policy
import Catalog.Proofs.Rule.Apart
import Catalog.Proofs.Service.Removal
import Catalog.Proofs.Service.Showing

/-!
# Finding records by a field

A request that demands one comparison finds, of what the requester may read, what the comparison
selects, up to the limit of the family (`find_compare`). So a record is demanded without a fault if
it is there and may be read (`demand_of_mem`), and what is at the other end of the relations of a
record are those of the records that may be read which these relations name, as long as a page has
room for all of them (`through_eq`).
-/

namespace Catalog

variable {ctx : Context} {s : Store} {f : Family}

/-- Without access control everything may be read. -/
theorem Context.access_of_open (h : ctx.config.accessControl = false) (f : Family) :
    ctx.access f = .always := by
  rw [access, h]
  rfl

namespace Condition

variable {id : String} {d : Document}

theorem selects_id_equals (hd : d.get? "_id" = some (.text id)) :
    (equals "_id" (.text id)).selects d = true := by
  have admits : (equals "_id" (.text id)).admits d = d.idAmong [id] := rfl
  rw [selects, met_equals_text (by decide) hd, admits,
    Document.idAmong_of_id? (Document.id?_of_text hd)]
  simp

theorem selects_id_inq (hd : d.get? "_id" = some (.text id)) {texts : List String}
    (h : id ∈ texts) : (compare "_id" .inq (.array (texts.map .text))).selects d = true := by
  have ids : (compare "_id" .inq (.array (texts.map .text))).ids? = .ok (some texts) := by
    change Except.ok (some ((texts.map Value.text).map Value.display)) = _
    rw [List.map_map]
    exact congrArg (fun ts => Except.ok (some ts)) (List.map_id texts)
  rw [selects, met_inq_texts (by decide) hd, admits, ids]
  dsimp only
  rw [Document.idAmong_of_id? (Document.id?_of_text hd), List.contains_iff_mem.2 h]
  rfl

/-- A field with a text is equal to a text if it is the same. -/
theorem met_equals_same {field : String} (hfield : '.' ∉ field.toList)
    (hd : ∃ t, d.get? field = some (.text t)) :
    (equals field (.text id)).met d = (d.field field).same (.text id) := by
  obtain ⟨t, ht⟩ := hd
  rw [met_equals_text hfield ht, Document.field_of_get? ht]
  rfl

/-- What has a text as id and is one of some texts by it, is loaded for them. -/
theorem selects_inq_eq_met (hd : d.get? "_id" = some (.text id)) (texts : List String) :
    (compare "_id" .inq (.array (texts.map .text))).selects d =
      (compare "_id" .inq (.array (texts.map .text))).met d := by
  rw [Bool.eq_iff_iff]
  constructor
  · exact fun h => (Bool.and_eq_true_iff.1 h).1
  · intro h
    rw [met_inq_texts (by decide) hd, List.contains_iff_mem] at h
    exact selects_id_inq hd h

/-- An id that is no text is not one of some texts. -/
theorem text_of_selects_inq (hid : d.id? = .ok id) {texts : List String}
    (h : (compare "_id" .inq (.array (texts.map .text))).selects d = true) :
    ∃ t, d.get? "_id" = some (.text t) ∧ t ∈ texts := by
  obtain ⟨v, hv, hkept⟩ := exists_id hid
  have hmet : (compare "_id" .inq (.array (texts.map .text))).met d = true :=
    (Bool.and_eq_true_iff.1 h).1
  let pairs : List (Value × Option String) :=
    (texts.map Value.text).zip (literalsOf none (texts.map Value.text).length)
  have compared : equalToOne v (.array (texts.map .text)) none = .ok true := by
    have held := met_iff.1 hmet
    rw [compare, Met, holds, Leaf.holds, Document.path?_key (by simp), hv] at held
    exact held
  -- A number or a truth value is not equal to a text.
  have differs : ∀ w : Value, (∀ t l, scalarEquals w (.text t) l = .ok false) →
      pairs.anyM (fun p => scalarEquals w p.1 p.2) ≠ .ok true := by
    intro w hw hany
    have each : ∀ p ∈ pairs, scalarEquals w p.1 p.2 = .ok false := by
      intro p hp
      obtain ⟨t, -, ht⟩ := List.mem_map.1 (List.of_mem_zip hp).1
      rw [← ht]
      exact hw t p.2
    rw [anyM_eq_ok each, List.any_eq_false.2 fun _ _ => Bool.false_ne_true] at hany
    cases hany
  rcases idText?_cases hkept with rfl | ⟨n, rfl⟩ | ⟨b, rfl⟩
  · rw [met_inq_texts (by decide) hv] at hmet
    exact ⟨id, hv, List.contains_iff_mem.1 hmet⟩
  · exact absurd compared (differs (.number n) fun _ _ => rfl)
  · exact absurd compared (differs (.bool b) fun _ _ => rfl)

end Condition

namespace Service

/-- A request where everything may be read. -/
def openContext : Context where
  config := { Configuration.standard with accessControl := false }
  now := ⟨.first, 0⟩

theorem separate_openContext : openContext.config.Separate where
  family := Configuration.separate_standard.family
  collections := Configuration.separate_standard.collections

/-- Of a query for ids only, the limit of the family is left, and the id. -/
theorem pageFilter_idOnly (h : 0 ≤ ctx.config.maxLookupDepth) :
    (param idOnly "filter" >>= pageFilter ctx f) =
      .ok { limit := some (ctx.config.policy f).responseLimit,
            fields := some (.keep ["_id"]) } := by
  obtain ⟨n, hn⟩ : ∃ n, (ctx.config.maxLookupDepth + 1).toNat = n + 1 :=
    ⟨ctx.config.maxLookupDepth.toNat, by omega⟩
  change pageFilter ctx f (.object [("fields", .object [("_id", .bool true)])]) = _
  rw [pageFilter, Filter.read, hn]
  change (readLimit .null (some (ctx.config.policy f).responseLimit)
    (some (ctx.config.policy f).responseLimit) >>= fun limit =>
      Except.ok ({ limit, fields := some (.keep ["_id"]) } : Filter)) = _
  rw [readLimit_null]
  rfl

/-- No collection has more records than a request is shown at once. -/
def FitsPages (ctx : Context) (s : Store) : Prop :=
  ∀ f, ((s.scan (ctx.collection f)).length : Int) ≤ (ctx.config.policy f).responseLimit

theorem FitsPages.takeLimit (h : FitsPages ctx s) {docs : List Document}
    (hdocs : docs.Sublist (s.scan (ctx.collection f))) :
    takeLimit (ctx.config.policy f).responseLimit docs = docs := by
  have fewer := hdocs.length_le
  have room := h f
  exact takeLimit_of_length_le (by omega)

/-- Where a field has texts in all documents, its true values are those that are not empty. -/
theorem exists_texts_trueValues {field : String} {docs : List Document}
    (h : ∀ d ∈ docs, ∃ t, d.get? field = some (.text t)) :
    ∃ texts : List String, trueValues field docs = texts.map .text ∧
      ∀ t, t ∈ texts ↔ t ≠ "" ∧ ∃ d ∈ docs, d.get? field = some (.text t) := by
  obtain ⟨texts, htexts⟩ : ∃ texts : List String, trueValues field docs = texts.map .text := by
    refine exists_texts fun v hv => ?_
    obtain ⟨d, hd, rfl⟩ := List.mem_map.1 (List.mem_filter.1 hv).1
    obtain ⟨t, ht⟩ := h d hd
    exact ⟨t, Document.field_of_get? ht⟩
  refine ⟨texts, htexts, fun t => ?_⟩
  rw [← Value.text_mem_map, ← htexts, trueValues, List.mem_filter, List.mem_map, and_comm,
    Value.truthy_text]
  refine and_congr_right fun _ => exists_congr fun d => and_congr_right fun hd => ?_
  obtain ⟨t', ht'⟩ := h d hd
  rw [Document.field, ht', Value.orNull, Option.getD_some, Option.some.injEq]

section Named

variable {field : String} {docs : List Document} {texts : List String} {e : Document}
  (htexts : ∀ t, t ∈ texts ↔ t ≠ "" ∧ ∃ d ∈ docs, d.get? field = some (.text t))

include htexts

/-- A record is among what documents name if its id is not empty and one of them names it. -/
theorem met_inq_names {id : String} (he : e.get? "_id" = some (.text id)) :
    (Condition.compare "_id" .inq (.array (texts.map .text))).met e =
      ((e.field "_id").truthy && docs.any fun d => (d.field field).same (e.field "_id")) := by
  rw [Condition.met_inq_texts (by decide) he, Document.field_of_get? he, Bool.eq_iff_iff,
    List.contains_iff_mem, htexts, Bool.and_eq_true, Value.truthy_text, List.any_eq_true]
  refine and_congr_right fun _ => exists_congr fun d => and_congr_right fun _ => ?_
  rw [Value.same_text]
  exact ⟨Document.field_of_get?, Document.get?_of_field⟩

/-- A stored record is found among what documents name by texts if its id is not empty and one of
    them names it. -/
theorem selects_inq_names (hnames : ∀ d ∈ docs, ∃ t, d.get? field = some (.text t)) {id : String}
    (he : e.id? = .ok id) :
    (Condition.compare "_id" .inq (.array (texts.map .text))).selects e =
      ((e.field "_id").truthy && docs.any fun d => (d.field field).same (e.field "_id")) := by
  by_cases htext : ∃ eid, e.get? "_id" = some (.text eid)
  · obtain ⟨eid, heid⟩ := htext
    rw [Condition.selects_inq_eq_met heid, met_inq_names htexts heid]
  · -- Only a text is one of the texts, or named by a text.
    rw [Bool.eq_iff_iff]
    refine iff_of_false (fun h => ?_) (fun h => ?_)
    · obtain ⟨eid, heid, -⟩ := Condition.text_of_selects_inq he h
      exact htext ⟨eid, heid⟩
    · obtain ⟨d, hd, hsame⟩ := List.any_eq_true.1 (Bool.and_eq_true_iff.1 h).2
      obtain ⟨t, ht⟩ := hnames d hd
      rw [Document.field_of_get? ht] at hsame
      exact htext ⟨t, Document.get?_of_field (Value.text_same.1 hsame)⟩

end Named

section Found

variable (hk : s.Keyed) (hfit : FitsPages ctx s)

include hk hfit

/-- A request for records that demands one comparison finds, of what the requester may read, what
    this selects, and shows of it what the filter asks for. -/
theorem find_compare (hf : f ≠ .relations) {query : Value} {fields : Option Projection}
    (hfilter : (param query "filter" >>= pageFilter ctx f) =
      .ok { limit := some (ctx.config.policy f).responseLimit, fields })
    (hset : (param query "set" >>= SetExpr.read) = .ok none) {path : String} {operator : Operator}
    {operand : Value} (htotal : (Condition.compare path operator operand).Total)
    {ids : Option (List String)} (hids : (Condition.compare path operator operand).ids? = .ok ids) :
    find ctx s f query (.compare path operator operand) =
      .ok (((s.readable ctx f).filter
        (Condition.compare path operator operand).selects).map (Filter.shown { fields })) := by
  let filter : Filter := { limit := some (ctx.config.policy f).responseLimit, fields }
  let tail : List Stage :=
    .limit (ctx.config.policy f).responseLimit :: (fields.map Stage.project).toList
  have tailed : tailStages f filter = .ok tail := by
    change Except.ok (tail ++ [] ++ []) = _
    rw [List.append_nil, List.append_nil]
  have base : baseCondition ctx f filter none (.compare path operator operand) =
      .ok (.conj [.always, .always, .always, ctx.access f, .compare path operator operand]) := rfl
  have planned : findPlan ctx f query (.compare path operator operand) =
      .ok (Plan.ofStages ctx f (.select (.conj [.always, .always, .always, ctx.access f,
        .compare path operator operand]) :: tail)) := by
    obtain ⟨v, hv, hfilter⟩ := bind_eq_ok.1 hfilter
    obtain ⟨w, hw, hset⟩ := bind_eq_ok.1 hset
    have query := Plan.query_eq_ok.2
      ⟨_, _, _, base, joinStages_of_ne hf (Option.getD none {}), tailed, rfl⟩
    exact bind_eq_ok.2 ⟨v, hv, bind_eq_ok.2 ⟨filter, hfilter, bind_eq_ok.2 ⟨none, if_neg hf,
      bind_eq_ok.2 ⟨w, hw, bind_eq_ok.2 ⟨none, hset, query⟩⟩⟩⟩⟩
  rw [find, planned, ok_bind, run_ofStages, selection_compare hk htotal hids, lift_ok,
    ok_bind]
  -- A page has room for all that is selected.
  have few : ((s.readable ctx f).filter (Condition.compare path operator operand).selects).Sublist
      (s.scan (ctx.collection f)) := List.filter_sublist.trans List.filter_sublist
  have limited : runStages ctx s ((s.readable ctx f).filter
      (Condition.compare path operator operand).selects) tail = _ :=
    congrArg (fun docs => runStages ctx s docs (fields.map Stage.project).toList)
      (hfit.takeLimit few)
  rw [limited]
  cases fields with
  | none => exact congrArg Except.ok (List.map_id _).symm
  | some p => rfl

/-- A record that is there and may be read may be demanded. -/
theorem demand_of_mem (hdepth : 0 ≤ ctx.config.maxLookupDepth) (hf : f ≠ .relations)
    {id : String} {d : Document} (hd : d ∈ s.readable ctx f)
    (hid : d.get? "_id" = some (.text id)) : demand ctx s f id = .ok () := by
  have found := find_compare hk hfit hf (pageFilter_idOnly hdepth) rfl
    (Condition.total_equals_text "_id" id) rfl
  -- The record itself is among those that are found.
  have mem : d ∈ (s.readable ctx f).filter (Condition.equals "_id" (.text id)).selects :=
    List.mem_filter.2 ⟨hd, Condition.selects_id_equals hid⟩
  obtain ⟨e, rest, hrest⟩ := List.exists_cons_of_ne_nil (List.ne_nil_of_mem mem)
  rw [Condition.equals] at hrest
  rw [hrest] at found
  rw [demand, findById, Condition.equals, found]
  rfl

/-- A request without a query finds, of what the requester may read, what a further comparison
    selects. -/
theorem find_compare_all (hdepth : 0 ≤ ctx.config.maxLookupDepth) (hf : f ≠ .relations)
    {path : String} {operator : Operator} {operand : Value}
    (htotal : (Condition.compare path operator operand).Total) {ids : Option (List String)}
    (hids : (Condition.compare path operator operand).ids? = .ok ids) :
    find ctx s f (.object []) (.compare path operator operand) =
      .ok ((s.readable ctx f).filter (Condition.compare path operator operand).selects) := by
  have page : (param (.object []) "filter" >>= pageFilter ctx f) =
      .ok { limit := some (ctx.config.policy f).responseLimit, fields := none } :=
    pageFilter_null hdepth
  rw [find_compare hk hfit hf page rfl htotal hids]
  exact congrArg Except.ok (List.map_id _)

/-- A record that may be read is found by its id. -/
theorem findById_of_mem (hdepth : 0 ≤ ctx.config.maxLookupDepth) (hf : f ≠ .relations)
    {id : String} {d : Document} (hd : d ∈ s.readable ctx f)
    (hid : d.get? "_id" = some (.text id)) : findById ctx s f id = .ok d := by
  have found := find_compare_all hk hfit hdepth hf (Condition.total_equals_text "_id" id) rfl
  have mem : d ∈ (s.readable ctx f).filter (Condition.equals "_id" (.text id)).selects :=
    List.mem_filter.2 ⟨hd, Condition.selects_id_equals hid⟩
  obtain ⟨e, rest, hrest⟩ := List.exists_cons_of_ne_nil (List.ne_nil_of_mem mem)
  -- No other record has the id, so that the first one is the one.
  obtain ⟨he, hselects⟩ : e ∈ s.readable ctx f ∧
      (Condition.equals "_id" (.text id)).selects e = true :=
    List.mem_filter.1 (hrest ▸ List.mem_cons_self)
  rw [Condition.selects, Bool.and_eq_true] at hselects
  have same : e.id? = .ok id := Document.idAmong_singleton.1 hselects.2
  obtain rfl := hk.eq_of_id?_eq (List.mem_filter.1 he).1 (List.mem_filter.1 hd).1
    (same.trans (Document.id?_of_text hid).symm)
  rw [Condition.equals] at hrest
  rw [findById, Condition.equals, found, hrest]
  rfl

omit hfit in
/-- Whoever asks, the relations that are gone through are all that name a record. -/
theorem matching_relations {sourceField : String} (hplain : '.' ∉ sourceField.toList)
    (hfield : sourceField ≠ "_id")
    (hsources : ∀ r ∈ s.scan (ctx.collection .relations),
      ∃ t, r.get? sourceField = some (.text t)) (id : String) :
    matching ctx s .relations (.equals sourceField (.text id)) =
      .ok ((s.scan (ctx.collection .relations)).filter fun r =>
        (r.field sourceField).same (.text id)) := by
  have selected : selection ctx s .relations (.compare sourceField .eq (.text id)) = .ok _ :=
    selection_total hk (Condition.total_equals_text _ _) (ids?_compare hfield _ _)
  rw [Condition.equals, matching_compare, selected, lift_ok]
  refine congrArg Except.ok (List.filter_congr fun r hr => ?_)
  rw [selects_compare hfield]
  exact Condition.met_equals_same hplain (hsources r hr)

/-- At the other end of the relations of a record that may be read are those of the records that may
    be read which these relations name, but for one with an empty id. -/
theorem through_eq (hdepth : 0 ≤ ctx.config.maxLookupDepth) (source target : Family)
    (hsource : source ≠ .relations) (htarget : target ≠ .relations)
    {sourceField targetField : String} (hplain : '.' ∉ sourceField.toList)
    (hfield : sourceField ≠ "_id")
    (hsources : ∀ r ∈ s.scan (ctx.collection .relations),
      ∃ t, r.get? sourceField = some (.text t))
    (htargets : ∀ r ∈ s.scan (ctx.collection .relations),
      ∃ t, r.get? targetField = some (.text t))
    {id : String} {d : Document} (hd : d ∈ s.readable ctx source)
    (hid : d.get? "_id" = some (.text id)) :
    through ctx s source sourceField id target targetField (.object []) =
      .ok ((s.readable ctx target).filter fun e => (e.field "_id").truthy &&
        (s.scan (ctx.collection .relations)).any fun r =>
          (r.field sourceField).same (.text id) &&
            (r.field targetField).same (e.field "_id")) := by
  let relations := (s.scan (ctx.collection .relations)).filter fun r =>
    (r.field sourceField).same (.text id)
  have hnames : ∀ r ∈ relations, ∃ t, r.get? targetField = some (.text t) :=
    fun r hr => htargets r (List.mem_filter.1 hr).1
  obtain ⟨texts, hvalues, htexts⟩ := exists_texts_trueValues hnames
  have selected : (s.readable ctx target).filter
      (Condition.compare "_id" .inq (.array (texts.map .text))).selects =
        (s.readable ctx target).filter fun e => (e.field "_id").truthy &&
          (s.scan (ctx.collection .relations)).any fun r =>
            (r.field sourceField).same (.text id) &&
              (r.field targetField).same (e.field "_id") := by
    refine List.filter_congr fun e he => ?_
    obtain ⟨key, hkey⟩ := hk.exists_id? (List.mem_filter.1 he).1
    rw [selects_inq_names htexts hnames hkey, List.any_filter]
  rw [through, demand_of_mem hk hfit hdepth hsource hd hid, ok_bind,
    matching_relations hk hplain hfield hsources id, ok_bind, hvalues, ← selected]
  cases texts with
  | nil =>
    refine congrArg Except.ok (List.filter_eq_nil_iff.2 fun e he h => ?_).symm
    obtain ⟨key, hkey⟩ := hk.exists_id? (List.mem_filter.1 he).1
    obtain ⟨eid, -, hmem⟩ := Condition.text_of_selects_inq hkey h
    cases hmem
  | cons t rest =>
    exact find_compare_all hk hfit hdepth htarget (Condition.total_inq_texts "_id" (t :: rest)) rfl

end Found

end Service

end Catalog
