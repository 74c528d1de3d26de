import Catalog.Proofs.Outcome
import Catalog.Store
import Catalog.Value.Sameness

/-!
# Keyed stores

A store is *keyed* if each document is kept under the id that its own `_id` says, and no two
documents of a collection under one id. What a keyed store has in a collection is then told by the
documents alone: fetching by ids is filtering the collection by what the documents say
(`fetchMany_eq_filter`), and documents that say the same are the same document (`eq_of_id?_eq`).

Ids that are texts can be told apart as values, too: of two documents with such ids at most one has
the same id as a given value (`eq_of_same_id`).
-/

namespace Catalog

instance (doc : Document) : Decidable doc.Distinct := inferInstanceAs (Decidable doc.keys.Nodup)

/-- Where one element of a list has been replaced, each is the new one, or was there before. -/
theorem eq_or_mem_of_replaced {α : Type} {before after : List α} {old new x : α}
    (h : x ∈ before ++ new :: after) : x = new ∨ x ∈ before ++ old :: after := by
  rw [List.mem_append, List.mem_cons] at h
  rcases h with h | rfl | h
  · exact .inr (List.mem_append_left _ h)
  · exact .inl rfl
  · exact .inr (List.mem_append_right _ (List.mem_cons_of_mem _ h))

theorem Document.mem_of_get? {doc : Document} {key : String} {v : Value}
    (h : doc.get? key = some v) : (key, v) ∈ doc := by
  induction doc with
  | nil => cases h
  | cons m rest ih =>
    obtain ⟨k, w⟩ := m
    rw [get?] at h
    split at h
    · next hk =>
      cases h
      exact hk ▸ List.mem_cons_self
    · exact List.mem_cons_of_mem _ (ih h)

theorem Document.Distinct.get?_of_mem {doc : Document} (hd : doc.Distinct) {key : String}
    {v : Value} (h : (key, v) ∈ doc) : doc.get? key = some v := by
  induction doc with
  | nil => cases h
  | cons m rest ih =>
    obtain ⟨k, w⟩ := m
    rw [Distinct, keys, List.map_cons, List.nodup_cons] at hd
    rw [get?]
    rcases List.mem_cons.1 h with h | h
    · cases h
      rw [if_pos rfl]
    · have hne : k ≠ key := fun hk => hd.1 (List.mem_map.2 ⟨(key, v), h, hk.symm⟩)
      rw [if_neg hne, ih hd.2 h]

theorem Document.mem_of_mem_put {doc : Document} {key key' : String} {v w : Value}
    (h : (key', v) ∈ doc.put key w) : (key' = key ∧ v = w) ∨ (key', v) ∈ doc := by
  induction doc with
  | nil => exact .inl (Prod.mk.injEq .. ▸ List.mem_singleton.1 h)
  | cons m rest ih =>
    obtain ⟨k, u⟩ := m
    rw [put] at h
    split at h
    · next hk =>
      rcases List.mem_cons.1 h with h | h
      · cases h
        exact .inl ⟨hk, rfl⟩
      · exact .inr (List.mem_cons_of_mem _ h)
    · rcases List.mem_cons.1 h with h | h
      · exact .inr (h ▸ List.mem_cons_self)
      · exact (ih h).imp_right (List.mem_cons_of_mem _)

/-- Whether a document says that its id is one of the given ones. -/
def Document.idAmong (ids : List String) (doc : Document) : Bool :=
  match doc.id? with
  | .ok id => ids.contains id
  | .error _ => false

theorem Document.idAmong_singleton {doc : Document} {id : String} :
    doc.idAmong [id] = true ↔ doc.id? = .ok id := by
  rw [idAmong]
  split
  · next id' hid' =>
    rw [List.contains_iff_mem, List.mem_singleton, hid', Except.ok.injEq]
  · next e he =>
    rw [he]
    exact ⟨fun h => (nomatch h), fun h => (nomatch h)⟩

theorem Document.id?_of_text {doc : Document} {id : String}
    (h : doc.get? "_id" = some (.text id)) : doc.id? = .ok id := by
  rw [id?, h]
  rfl

theorem Value.text_same {s : String} {v : Value} : (text s).same v = true ↔ v = .text s := by
  cases v with
  | text t =>
    rw [same, beq_iff_eq, Value.text.injEq]
    exact eq_comm
  | _ => exact ⟨fun h => (nomatch h), fun h => (nomatch h)⟩

theorem Value.same_text {v : Value} {s : String} : v.same (.text s) = true ↔ v = .text s := by
  cases v with
  | text t => rw [same, beq_iff_eq, Value.text.injEq]
  | _ => constructor <;> intro h <;> cases h

/-- Of the texts only the empty one does not count as true. -/
theorem Value.truthy_text {t : String} : (text t).truthy = true ↔ t ≠ "" := by
  simp [truthy]

theorem Value.text_mem_map {t : String} {ts : List String} :
    text t ∈ ts.map text ↔ t ∈ ts := by
  simp

namespace Store

/-- Each document is kept under its own id, and no two of a collection under one id. -/
structure Keyed (s : Store) : Prop where
  /-- The id of a document is what its own `_id` says. -/
  named : ∀ r ∈ s.rows, r.document.id? = .ok r.id
  /-- The rows of a collection have different ids. -/
  unique : s.rows.Pairwise fun r r' => ¬(r.collection = r'.collection ∧ r.id = r'.id)

/-- All ids in a collection are texts. -/
def TextIds (s : Store) (collection : String) : Prop :=
  ∀ d ∈ s.scan collection, ∃ id, d.get? "_id" = some (.text id)

variable {s : Store} {collection : String}

theorem mem_scan {d : Document} :
    d ∈ s.scan collection ↔ ∃ r ∈ s.rows, r.collection = collection ∧ r.document = d := by
  simp [scan, and_assoc]

theorem mem_scan_of_mem_fetchMany {d : Document} {ids : List String}
    (h : d ∈ s.fetchMany collection ids) : d ∈ s.scan collection := by
  obtain ⟨r, hr, rfl⟩ := List.mem_map.1 h
  obtain ⟨hr, hc⟩ := List.mem_filter.1 hr
  rw [Bool.and_eq_true, beq_iff_eq] at hc
  exact mem_scan.2 ⟨r, hr, hc.1, rfl⟩

/-- A document is stored as the last one, under its own id, which was free. -/
theorem insert_eq_ok {s' : Store} {doc : Document} {id : String} (hid : doc.id? = .ok id)
    (h : s.insert collection doc = .ok s') :
    (∀ r ∈ s.rows, ¬(r.collection = collection ∧ r.id = id)) ∧
      s'.rows = s.rows ++ [⟨collection, id, doc⟩] := by
  rw [insert, hid] at h
  obtain ⟨_, hi, h⟩ := bind_eq_ok.1 h
  cases hi
  obtain ⟨-, -, h⟩ := bind_eq_ok.1 h
  split at h
  · exact nomatch h
  · next free =>
    cases h
    refine ⟨fun r hr hat => free (List.any_eq_true.2 ⟨r, hr, ?_⟩), rfl⟩
    rw [Row.isAt, hat.1, hat.2, beq_self_eq_true, beq_self_eq_true]
    rfl

namespace Keyed

variable (h : s.Keyed)

include h

theorem row_eq {r r' : Row} (hr : r ∈ s.rows) (hr' : r' ∈ s.rows)
    (hc : r.collection = r'.collection) (hid : r.id = r'.id) : r = r' := by
  -- `Pairwise` only speaks of rows in their order, so the statement is made symmetric first.
  have same : ∀ x ∈ s.rows, ∀ y ∈ s.rows, x.collection = y.collection → x.id = y.id → x = y :=
    List.Pairwise.forall_of_forall_of_flip (fun _ _ _ _ => rfl)
      (h.unique.imp fun hne hc hid => absurd ⟨hc, hid⟩ hne)
      (h.unique.imp fun hne hc hid => absurd ⟨hc.symm, hid.symm⟩ hne)
  exact same r hr r' hr' hc hid

/-- A stored document has an id. -/
theorem exists_id? {d : Document} (hd : d ∈ s.scan collection) : ∃ id, d.id? = .ok id := by
  obtain ⟨r, hr, -, rfl⟩ := mem_scan.1 hd
  exact ⟨r.id, h.named r hr⟩

/-- What is fetched by ids is what says so of itself. -/
theorem fetchMany_eq_filter (ids : List String) :
    s.fetchMany collection ids = (s.scan collection).filter (Document.idAmong ids) := by
  rw [fetchMany, scan, List.filter_map, List.filter_filter]
  congr 1
  refine List.filter_congr fun r hr => ?_
  rw [Function.comp_apply, Document.idAmong, h.named r hr, Bool.and_comm]

/-- The documents of a collection have different ids. -/
theorem pairwise_id? : (s.scan collection).Pairwise fun d d' => d.id? ≠ d'.id? := by
  rw [scan, List.pairwise_map, List.pairwise_filter]
  refine h.unique.imp_of_mem fun hr hr' hne hc hc' hid => hne ?_
  rw [h.named _ hr, h.named _ hr', Except.ok.injEq] at hid
  exact ⟨(beq_iff_eq.1 hc).trans (beq_iff_eq.1 hc').symm, hid⟩

/-- The documents around one of a collection have other ids. -/
theorem id?_ne_of_scan_eq {before after : List Document} {d : Document}
    (hs : s.scan collection = before ++ d :: after) : ∀ e ∈ before ++ after, e.id? ≠ d.id? := by
  have ids : (s.scan collection).Pairwise fun d d' => d.id? ≠ d'.id? := h.pairwise_id?
  rw [hs, List.pairwise_append, List.pairwise_cons] at ids
  obtain ⟨-, ⟨later, -⟩, earlier⟩ := ids
  intro e he
  rcases List.mem_append.1 he with hb | ha
  · exact earlier e hb d List.mem_cons_self
  · exact (later e ha).symm

/-- Of a collection only one document says the id of a stored one. -/
theorem filter_idAmong {d : Document} (hd : d ∈ s.scan collection) {id : String}
    (hid : d.id? = .ok id) : (s.scan collection).filter (Document.idAmong [id]) = [d] := by
  obtain ⟨before, after, hs⟩ := List.append_of_mem hd
  have others : ∀ e ∈ before ++ after, ¬e.idAmong [id] = true := fun e he hamong =>
    h.id?_ne_of_scan_eq hs e he ((Document.idAmong_singleton.1 hamong).trans hid.symm)
  have own := Document.idAmong_singleton.2 hid
  rw [List.forall_mem_append] at others
  rw [hs, List.filter_append, List.filter_cons_of_pos own, List.filter_eq_nil_iff.2 others.1,
    List.filter_eq_nil_iff.2 others.2, List.nil_append]

/-- Documents that say the same id are the same. -/
theorem eq_of_id?_eq {d d' : Document} (hd : d ∈ s.scan collection)
    (hd' : d' ∈ s.scan collection) (hid : d.id? = d'.id?) : d = d' := by
  obtain ⟨r, hr, hc, rfl⟩ := mem_scan.1 hd
  obtain ⟨r', hr', hc', rfl⟩ := mem_scan.1 hd'
  rw [h.named r hr, h.named r' hr', Except.ok.injEq] at hid
  rw [h.row_eq hr hr' (hc.trans hc'.symm) hid]

/-- Documents that have the same text as their id are the same. -/
theorem eq_of_text_id {d d' : Document} (hd : d ∈ s.scan collection)
    (hd' : d' ∈ s.scan collection) {id : String} (hid : d.get? "_id" = some (.text id))
    (hid' : d'.get? "_id" = some (.text id)) : d = d' :=
  h.eq_of_id?_eq hd hd' ((Document.id?_of_text hid).trans (Document.id?_of_text hid').symm)

/-- Of documents whose ids are texts at most one has the same id as a value. -/
theorem eq_of_same_id (ht : s.TextIds collection) {d d' : Document} {v : Value}
    (hd : d ∈ s.scan collection) (hd' : d' ∈ s.scan collection)
    (hv : (Value.orNull (d.get? "_id")).same v = true)
    (hv' : (Value.orNull (d'.get? "_id")).same v = true) : d = d' := by
  obtain ⟨id, hid⟩ := ht d hd
  obtain ⟨id', hid'⟩ := ht d' hd'
  rw [hid] at hv
  rw [hid'] at hv'
  have hv := Value.text_same.1 hv
  have hv' := Value.text_same.1 hv'
  cases hv.symm.trans hv'
  exact h.eq_of_text_id hd hd' hid hid'

end Keyed

end Store

end Catalog
