import Catalog.Proofs.Plan.Selection

/-!
# What relations are joined with

A relation names its list and its entity by their ids. It is shown with both of them, and only if
the requester may read both. In a keyed store whose lists and entities have texts as ids, the record
that a field names is the only one with that id (`endOf`), so joining relations with the records of
a family and keeping those that meet a condition comes to looking each of them up among the records
that meet the condition (`joinSelect_eq`); what the requester may not read has no part in it.
-/

namespace Catalog

variable {ctx : Context} {store : Store} {docs found : List Document} {field as : String}
  {target : Family} {c : Condition}

/-- Whether the value of a field of a document is the id of a record. -/
def names (field : String) (doc record : Document) : Bool :=
  (Value.orNull (record.get? "_id")).same (Value.orNull (doc.get? field))

/-- The record that a field of a document names, among some records. -/
def endOf (records : List Document) (field : String) (doc : Document) : Option Document :=
  records.find? (names field doc)

/-- What is joined under another key does not change what a field names. -/
theorem endOf_put (h : field ≠ as) (records : List Document) (doc : Document) (v : Value) :
    endOf records field (doc.put as v) = endOf records field doc := by
  have same : names field (doc.put as v) = names field doc := by
    funext t
    rw [names, names, Document.get?_put, if_neg h]
  rw [endOf, endOf, same]

/-- Relations joined with the records that a field names, where these meet a condition. -/
def joinSelect (ctx : Context) (store : Store) (docs : List Document) (field : String)
    (target : Family) (as : String) (c : Condition) : Except Fault (List Document) := do
  let targets := joinTargets store (ctx.collection target) field docs
  selectDocuments (c.prefixed as) (← docs.filterMapM (joined targets field as))

theorem runStages_join (ctx : Context) (store : Store) (docs : List Document) (field : String)
    (target : Family) (as : String) (c : Condition) (stages : List Stage) :
    runStages ctx store docs (.join field target as :: .select (c.prefixed as) :: stages) =
      (joinSelect ctx store docs field target as c : Outcome _) >>= fun docs =>
        runStages ctx store docs stages := by
  rw [runStages, List.foldlM_cons, Stage.run, joinSelect]
  cases docs.filterMapM
    (joined (joinTargets store (ctx.collection target) field docs) field as) with
  | error e => rfl
  | ok js =>
    change runStages ctx store js (.select (c.prefixed as) :: stages) = _
    rw [runStages, List.foldlM_cons, Stage.run]
    rfl

/-- Every document meets the empty condition. -/
theorem selectDocuments_always (docs : List Document) :
    selectDocuments .always docs = .ok docs := by
  refine selectDocuments_eq_ok.2 ⟨fun d _ => rfl, ?_⟩
  exact (List.filter_eq_self.2 fun d _ => rfl).symm

/-- The stages for one of the two records of a relation join it and demand of it what the plan
    demands of records of its family. -/
theorem runStages_endStages {filter : Filter} {set : Option SetExpr} {stages : List Stage}
    (h : endStages ctx field target as filter set = .ok stages) :
    ∃ c, baseCondition ctx target filter set .always = .ok c ∧
      ∀ (store : Store) (docs : List Document) (rest : List Stage),
        runStages ctx store docs (stages ++ rest) =
          (joinSelect ctx store docs field target as c : Outcome _) >>= fun docs =>
            runStages ctx store docs rest := by
  obtain ⟨c, hc, h⟩ := bind_eq_ok.1 h
  refine ⟨c, hc, fun store docs rest => ?_⟩
  split at h
  · cases h
    -- Nothing is demanded, so that there is no stage that selects; selecting by the neutral
    -- condition is the same.
    rw [List.singleton_append, runStages, List.foldlM_cons, Stage.run, joinSelect]
    cases docs.filterMapM
      (joined (joinTargets store (ctx.collection target) field docs) field as) with
    | error e => rfl
    | ok js =>
      change runStages ctx store js rest =
        ((selectDocuments .always js : Except Fault _) : Outcome _) >>= _
      rw [selectDocuments_always]
      rfl
  · cases h
    exact runStages_join ctx store docs field target as c rest

/-! ## One relation -/

/-- A condition on what a relation is joined with is a condition on the record joined. -/
theorem holds_prefixed_put (hkey : '.' ∉ as.toList) (doc t : Document) :
    (c.prefixed as).holds (.object (doc.put as (.object t))) = c.holds (.object t) :=
  Condition.holds_prefixed hkey (by rw [Document.get?_put, if_pos rfl]) c

theorem met_prefixed_put (hkey : '.' ∉ as.toList) (doc t : Document) :
    (c.prefixed as).met (doc.put as (.object t)) = c.met t := by
  rw [Condition.met, Condition.met, holds_prefixed_put hkey]

/-- Where at most one member passes a test, it is the one that is found. -/
theorem find?_eq_some_of_unique {α : Type} {p : α → Bool} {xs : List α} {a : α}
    (hu : ∀ x ∈ xs, p x = true → x = a) (ha : a ∈ xs) (hp : p a = true) :
    xs.find? p = some a := by
  cases hf : xs.find? p with
  | none => exact absurd hp (List.find?_eq_none.1 hf a ha)
  | some b => rw [hu b (List.mem_of_find?_eq_some hf) (List.find?_some hf)]

/-- The targets of a join are a part of the collection, looked through from the last one. Where the
    record that a field names is among them and the only such, the order does not matter. -/
theorem find?_joinTargets {doc : Document}
    (hu : ∀ t ∈ store.scan (ctx.collection target), ∀ t' ∈ store.scan (ctx.collection target),
      names field doc t = true → names field doc t' = true → t = t')
    (hmem : ∀ t ∈ store.scan (ctx.collection target), names field doc t = true →
      t ∈ joinTargets store (ctx.collection target) field docs) :
    (joinTargets store (ctx.collection target) field docs).reverse.find? (names field doc) =
      endOf (store.scan (ctx.collection target)) field doc := by
  have stored {t : Document} (hm : t ∈ (joinTargets store (ctx.collection target) field
      docs).reverse) : t ∈ store.scan (ctx.collection target) :=
    Store.mem_scan_of_mem_fetchMany (List.mem_reverse.1 hm)
  cases he : endOf (store.scan (ctx.collection target)) field doc with
  | none => exact List.find?_eq_none.2 fun t hm => List.find?_eq_none.1 he t (stored hm)
  | some t =>
    have hm := List.mem_of_find?_eq_some he
    have hn := List.find?_some he
    exact find?_eq_some_of_unique (fun t' hm' hn' => hu t' (stored hm') t hm hn' hn)
      (List.mem_reverse.2 (hmem t hm hn)) hn

/-- A document whose field can be a key is joined with the record that the field names. -/
theorem joined_eq {doc : Document} (targets : List Document)
    (hkey : (Value.orNull (doc.get? field)).isKey = true) :
    joined targets field as doc =
      .ok ((targets.reverse.find? (names field doc)).map fun t => doc.put as (.object t)) := by
  rw [joined, keyAt]
  dsimp only
  rw [if_pos hkey]
  rfl

section Keyed

variable (hk : store.Keyed) (ht : store.TextIds (ctx.collection target))

include hk ht

theorem eq_of_names {doc t t' : Document} (hm : t ∈ store.scan (ctx.collection target))
    (hm' : t' ∈ store.scan (ctx.collection target)) (hn : names field doc t = true)
    (hn' : names field doc t' = true) : t = t' :=
  hk.eq_of_same_id ht hm hm' hn hn'

/-- The record that a field names among those that pass a test. -/
theorem endOf_filter (p : Document → Bool) (doc : Document) :
    endOf ((store.scan (ctx.collection target)).filter p) field doc =
      (endOf (store.scan (ctx.collection target)) field doc).filter p := by
  -- No other record is named by the field, so leaving some out does not bring another to light.
  cases he : endOf (store.scan (ctx.collection target)) field doc with
  | none =>
    refine List.find?_eq_none.2 fun t hm => ?_
    exact List.find?_eq_none.1 he t (List.mem_filter.1 hm).1
  | some t =>
    have hm := List.mem_of_find?_eq_some he
    have hn := List.find?_some he
    by_cases hp : p t = true
    · rw [Option.filter_some, if_pos hp]
      exact find?_eq_some_of_unique
        (fun t' hm' hn' => eq_of_names hk ht (List.mem_filter.1 hm').1 hm hn' hn)
        (List.mem_filter.2 ⟨hm, hp⟩) hn
    · rw [Option.filter_some, if_neg hp]
      refine List.find?_eq_none.2 fun t' hm' hn' => hp ?_
      rw [← eq_of_names hk ht (List.mem_filter.1 hm').1 hm hn' hn]
      exact (List.mem_filter.1 hm').2

/-- The record that a field of one of several documents names is among the targets of a join. -/
theorem mem_joinTargets {doc t : Document} (hd : doc ∈ docs)
    (hm : t ∈ store.scan (ctx.collection target)) (hn : names field doc t = true) :
    t ∈ joinTargets store (ctx.collection target) field docs := by
  obtain ⟨id, hid⟩ := ht t hm
  -- The record has a text as its id, so only that text can name it.
  have named : doc.get? field = some (.text id) := by
    rw [names, hid] at hn
    have hv := Value.text_same.1 hn
    cases hg : doc.get? field with
    | none =>
      rw [hg] at hv
      exact nomatch hv
    | some v =>
      rw [hg] at hv
      exact congrArg some hv
  rw [joinTargets, hk.fetchMany_eq_filter, List.mem_filter, Document.idAmong,
    Document.id?_of_text hid]
  refine ⟨hm, List.contains_iff_mem.2 (List.mem_filterMap.2 ⟨doc, hd, ?_⟩)⟩
  rw [named]

/-- A relation is joined with the record that its field names, if the field can be a key. -/
theorem joined_eq_ok {doc : Document} (hd : doc ∈ docs) {o : Option Document} :
    joined (joinTargets store (ctx.collection target) field docs) field as doc = .ok o ↔
      (Value.orNull (doc.get? field)).isKey = true ∧
        o = (endOf (store.scan (ctx.collection target)) field doc).map fun t =>
          doc.put as (.object t) := by
  have ends : (joinTargets store (ctx.collection target) field docs).reverse.find?
      (names field doc) = endOf (store.scan (ctx.collection target)) field doc :=
    find?_joinTargets (fun _ hm _ hm' hn hn' => eq_of_names hk ht hm hm' hn hn')
      fun _ hm hn => mem_joinTargets hk ht hd hm hn
  rw [← ends]
  by_cases hkey : (Value.orNull (doc.get? field)).isKey = true
  · rw [joined_eq _ hkey, Except.ok.injEq, eq_comm]
    exact (and_iff_right hkey).symm
  · rw [joined, keyAt]
    dsimp only
    rw [if_neg hkey]
    exact iff_of_false (fun h => by cases h) fun h => hkey h.1

/-! ## All relations -/

/-- Joining and keeping what meets a condition is looking up each end among what meets it. -/
theorem joinSelect_eq (hkey : '.' ∉ as.toList)
    (h : joinSelect ctx store docs field target as c = .ok found) :
    (∀ doc ∈ docs, (Value.orNull (doc.get? field)).isKey = true) ∧
      found = docs.filterMap fun doc =>
        (endOf ((store.scan (ctx.collection target)).filter c.met) field doc).map fun t =>
          doc.put as (.object t) := by
  obtain ⟨js, hj, hs⟩ := bind_eq_ok.1 h
  obtain ⟨-, rfl⟩ := selectDocuments_eq_ok.1 hs
  obtain ⟨hkeys, rfl⟩ :=
    (filterMapM_eq_ok fun doc hd o ho => ((joined_eq_ok hk ht hd).1 ho).2.symm).1 hj
  refine ⟨fun doc hd => ((joined_eq_ok hk ht hd).1 (hkeys doc hd)).1, ?_⟩
  -- Selecting among the joined relations is filtering the records they are joined with.
  rw [List.filter_filterMap]
  congr 1
  funext doc
  rw [endOf_filter hk ht]
  cases endOf (store.scan (ctx.collection target)) field doc with
  | none => rfl
  | some t =>
    rw [Option.map_some, Option.filter_some, Option.filter_some, met_prefixed_put hkey]
    split <;> rfl

/-- Joining meets no fault if the fields can be keys and the condition always has an answer. -/
theorem joinSelect_total (hkey : '.' ∉ as.toList) (hc : c.Total)
    (hkeys : ∀ doc ∈ docs, (Value.orNull (doc.get? field)).isKey = true) :
    ∃ found, joinSelect ctx store docs field target as c = .ok found := by
  have hj : docs.filterMapM
      (joined (joinTargets store (ctx.collection target) field docs) field as) = .ok _ :=
    (filterMapM_eq_ok fun doc hd o ho => ((joined_eq_ok hk ht hd).1 ho).2.symm).2
      ⟨fun doc hd => (joined_eq_ok hk ht hd).2 ⟨hkeys doc hd, rfl⟩, rfl⟩
  refine ⟨_, bind_eq_ok.2 ⟨_, hj, selectDocuments_eq_ok.2 ⟨fun d hd => ?_, rfl⟩⟩⟩
  obtain ⟨doc, -, hd⟩ := List.mem_filterMap.1 hd
  obtain ⟨t, -, rfl⟩ := Option.map_eq_some_iff.1 hd
  obtain ⟨b, hb⟩ := hc t
  have hb : (c.prefixed as).holds (.object (doc.put as (.object t))) = .ok b :=
    (holds_prefixed_put hkey doc t).trans hb
  rw [Condition.met, hb]

theorem joinSelect_eq_ok (hkey : '.' ∉ as.toList) (hc : c.Total) :
    joinSelect ctx store docs field target as c = .ok found ↔
      (∀ doc ∈ docs, (Value.orNull (doc.get? field)).isKey = true) ∧
        found = docs.filterMap fun doc =>
          (endOf ((store.scan (ctx.collection target)).filter c.met) field doc).map fun t =>
            doc.put as (.object t) := by
  refine ⟨joinSelect_eq hk ht hkey, ?_⟩
  rintro ⟨hkeys, rfl⟩
  obtain ⟨found, h⟩ := joinSelect_total hk ht hkey hc hkeys
  rw [h, (joinSelect_eq hk ht hkey h).2]

end Keyed

/-! ## What is no join -/

/-- Whether a stage joins. -/
def Stage.isJoin : Stage → Bool
  | .join _ _ _ => true
  | _ => false

/-- Relations are joined before the stages that follow the selection. -/
theorem isJoin_tailStages {f : Family} {filter : Filter} {stages : List Stage}
    (h : tailStages f filter = .ok stages) : ∀ stage ∈ stages, stage.isJoin = false := by
  -- A stage is there if the filter asks for it, be it by a value or by not being empty.
  have given (missing : Bool) {stage : Stage} (h : stage.isJoin = false) :
      ∀ x ∈ if missing then [] else [stage], x.isJoin = false := by
    cases missing with
    | true => exact fun _ hx => nomatch hx
    | false => exact List.forall_mem_singleton.2 h
  have asked {α : Type} (o : Option α) {stage : α → Stage} (h : ∀ a, (stage a).isJoin = false) :
      ∀ x ∈ (o.map stage).toList, x.isJoin = false := by
    cases o with
    | none => exact fun _ hx => nomatch hx
    | some a => exact List.forall_mem_singleton.2 (h a)
  obtain ⟨-, -, h⟩ := bind_eq_ok.1 h
  cases h
  simp only [List.forall_mem_append]
  exact ⟨⟨⟨⟨⟨given _ rfl, given _ rfl⟩, asked _ fun _ => rfl⟩, asked _ fun _ => rfl⟩,
    given _ rfl⟩, given _ rfl⟩

end Catalog
