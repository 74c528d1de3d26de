import Catalog.Proofs.Keyed

/-!
# What a write makes of a collection

The three ways of writing to a keyed store, as what they make of its collections: inserting adds a
document at the end (`scan_insert`), replacing puts one in the place of the document with its id
(`scan_replace`), and removing leaves out the documents with the given ids (`scan_remove`). Other
collections stay as they are, and the store stays keyed.
-/

namespace Catalog

theorem Document.idAmong_of_id? {doc : Document} {id : String} (h : doc.id? = .ok id)
    (ids : List String) : doc.idAmong ids = ids.contains id := by
  rw [idAmong, h]

namespace Store

variable {s s' : Store} {collection : String} {doc old new : Document}

theorem scan_append (rows rows' : List Row) (collection : String) :
    scan ⟨rows ++ rows'⟩ collection = scan ⟨rows⟩ collection ++ scan ⟨rows'⟩ collection := by
  simp only [scan, List.filter_append, List.map_append]

/-- A collection holds the documents of its own rows. -/
theorem scan_singleton (r : Row) (collection : String) :
    scan ⟨[r]⟩ collection = if r.collection = collection then [r.document] else [] := by
  by_cases h : r.collection = collection
  · simp [scan, h]
  · simp [scan, h]

/-- A document is added at the end of its collection. -/
theorem scan_insert {id : String} (hid : doc.id? = .ok id)
    (h : s.insert collection doc = .ok s') (c : String) :
    s'.scan c = s.scan c ++ if collection = c then [doc] else [] := by
  have rows : s' = ⟨s.rows ++ [⟨collection, id, doc⟩]⟩ := by
    rw [← (insert_eq_ok hid h).2]
  rw [rows, scan_append, scan_singleton]

/-- Only the given documents are left out, and only of their collection. -/
theorem scan_remove (hk : s.Keyed) (ids : List String) (c : String) :
    (s.remove collection ids).scan c =
      (s.scan c).filter fun d => !(c == collection && d.idAmong ids) := by
  rw [scan, scan, remove, List.filter_map, List.filter_filter, List.filter_filter]
  congr 1
  refine List.filter_congr fun r hr => ?_
  rw [Function.comp_apply, Document.idAmong_of_id? (hk.named r hr)]
  by_cases hc : r.collection = c
  · subst hc
    rw [Bool.and_comm]
  · rw [beq_false_of_ne hc, Bool.false_and, Bool.and_false]

/-- Removing from one collection leaves the others as they are. -/
theorem scan_remove_of_ne {c : String} (hc : c ≠ collection) (ids : List String) (s : Store) :
    (s.remove collection ids).scan c = s.scan c := by
  rw [scan, scan, remove, List.filter_filter]
  congr 1
  refine List.filter_congr fun r _ => ?_
  by_cases hr : r.collection = c
  · rw [beq_false_of_ne fun h => hc (hr.symm.trans h), Bool.false_and, Bool.not_false,
      Bool.and_true]
  · rw [beq_false_of_ne hr, Bool.false_and]

theorem fetch?_eq_some {id : String} (h : s.fetch? collection id = some doc) :
    ∃ r ∈ s.rows, r.collection = collection ∧ r.id = id ∧ r.document = doc := by
  obtain ⟨r, hr, rfl⟩ := Option.map_eq_some_iff.1 h
  have hat := List.find?_some hr
  rw [Row.isAt, Bool.and_eq_true, beq_iff_eq, beq_iff_eq] at hat
  exact ⟨r, List.mem_of_find?_eq_some hr, hat.1, hat.2, rfl⟩

theorem mem_scan_of_fetch? {id : String} (h : s.fetch? collection id = some doc) :
    doc ∈ s.scan collection := by
  obtain ⟨r, hr, hc, -, hd⟩ := fetch?_eq_some h
  exact mem_scan.2 ⟨r, hr, hc, hd⟩

namespace Keyed

variable (h : s.Keyed)

include h

theorem insert {id : String} (hid : doc.id? = .ok id)
    (hi : s.insert collection doc = .ok s') : s'.Keyed := by
  obtain ⟨free, rows⟩ := insert_eq_ok hid hi
  refine ⟨?_, ?_⟩
  · rw [rows, List.forall_mem_append, List.forall_mem_singleton]
    exact ⟨h.named, hid⟩
  · rw [rows, List.pairwise_append]
    refine ⟨h.unique, List.pairwise_singleton _ _, fun r hr r' hr' => ?_⟩
    rw [List.mem_singleton.1 hr']
    exact free r hr

/-- What is fetched under an id says this id. -/
theorem id?_of_fetch? {id : String} (hf : s.fetch? collection id = some doc) :
    doc.id? = .ok id := by
  obtain ⟨r, hr, -, rfl, rfl⟩ := fetch?_eq_some hf
  exact h.named r hr

/-- A stored document is fetched under its id. -/
theorem fetch?_of_mem_scan (hd : doc ∈ s.scan collection) {id : String} (hid : doc.id? = .ok id) :
    s.fetch? collection id = some doc := by
  obtain ⟨r, hr, rfl, rfl⟩ := mem_scan.1 hd
  obtain rfl : r.id = id := Except.ok.inj ((h.named r hr).symm.trans hid)
  cases hf : s.fetch? r.collection r.id with
  | none =>
    rw [fetch?, Option.map_eq_none_iff, List.find?_eq_none] at hf
    exact absurd (by simp [Row.isAt]) (hf r hr)
  | some e =>
    rw [h.eq_of_id?_eq (mem_scan_of_fetch? hf) hd ((h.id?_of_fetch? hf).trans hid.symm)]

theorem remove (collection : String) (ids : List String) : (s.remove collection ids).Keyed where
  named r hr := h.named r (List.mem_filter.1 hr).1
  unique := h.unique.filter _

/-- The row of a stored document, and the rows before and after it, which are others. -/
theorem rows_eq (hold : old ∈ s.scan collection) {id : String} (hid : old.id? = .ok id) :
    ∃ before after, s.rows = before ++ ⟨collection, id, old⟩ :: after ∧
      ∀ r ∈ before ++ after, r.isAt collection id = false := by
  obtain ⟨r, hr, rfl, rfl⟩ := mem_scan.1 hold
  obtain rfl : r.id = id := Except.ok.inj ((h.named r hr).symm.trans hid)
  obtain ⟨before, after, rows⟩ := List.append_of_mem hr
  refine ⟨before, after, rows, fun r' hr' => ?_⟩
  have unique := h.unique
  rw [rows, List.pairwise_append, List.pairwise_cons] at unique
  obtain ⟨-, ⟨later, -⟩, earlier⟩ := unique
  rw [Row.isAt, Bool.and_eq_false_iff, beq_eq_false_iff_ne, beq_eq_false_iff_ne,
    ← Decidable.not_and_iff_or_not]
  rcases List.mem_append.1 hr' with hb | ha
  · exact earlier r' hb r List.mem_cons_self
  · exact fun hat => later r' ha ⟨hat.1.symm, hat.2.symm⟩

/-- A new version with the id of a stored document takes the row of this document. -/
theorem replace_rows (hold : old ∈ s.scan collection) (hid : new.id? = old.id?)
    (hr : s.replace collection new = .ok s') :
    ∃ before after id, old.id? = .ok id ∧ s.rows = before ++ ⟨collection, id, old⟩ :: after ∧
      s'.rows = before ++ ⟨collection, id, new⟩ :: after := by
  obtain ⟨id, hnew, hr⟩ := bind_eq_ok.1 hr
  obtain ⟨-, -, hr⟩ := bind_eq_ok.1 hr
  cases hr
  obtain ⟨before, after, rows, others⟩ := h.rows_eq hold (hid.symm.trans hnew)
  rw [List.forall_mem_append] at others
  have stays (rs : List Row) (hrs : ∀ r ∈ rs, r.isAt collection id = false) :
      rs.map (fun r => if r.isAt collection id then { r with document := new } else r) = rs := by
    rw [List.map_congr_left fun r hr => if_neg (by rw [hrs r hr]; exact Bool.false_ne_true),
      List.map_id']
  refine ⟨before, after, id, hid.symm.trans hnew, rows, ?_⟩
  rw [rows, List.map_append, List.map_cons, stays before others.1, stays after others.2, Row.isAt,
    beq_self_eq_true, beq_self_eq_true]
  rfl

/-- A new version takes the place of the document with its id, and nothing else changes. -/
theorem scan_replace (hold : old ∈ s.scan collection) (hid : new.id? = old.id?)
    (hr : s.replace collection new = .ok s') :
    (∃ before after, s.scan collection = before ++ old :: after ∧
      s'.scan collection = before ++ new :: after) ∧
      ∀ c, c ≠ collection → s'.scan c = s.scan c := by
  obtain ⟨before, after, id, -, rows, rows'⟩ := h.replace_rows hold hid hr
  have split (d : Document) (c : String) :
      scan ⟨before ++ ⟨collection, id, d⟩ :: after⟩ c =
        scan ⟨before⟩ c ++ ((if collection = c then [d] else []) ++ scan ⟨after⟩ c) := by
    rw [scan_append, ← List.singleton_append, scan_append, scan_singleton]
  have was (c : String) : s.scan c = scan ⟨before ++ ⟨collection, id, old⟩ :: after⟩ c := by
    rw [← rows]
  have is (c : String) : s'.scan c = scan ⟨before ++ ⟨collection, id, new⟩ :: after⟩ c := by
    rw [← rows']
  refine ⟨⟨scan ⟨before⟩ collection, scan ⟨after⟩ collection, ?_, ?_⟩, fun c hc => ?_⟩
  · rw [was, split, if_pos rfl, List.singleton_append]
  · rw [is, split, if_pos rfl, List.singleton_append]
  · rw [was, is, split, split, if_neg (Ne.symm hc), if_neg (Ne.symm hc)]

theorem mem_scan_of_mem_replace (hold : old ∈ s.scan collection) (hid : new.id? = old.id?)
    (hr : s.replace collection new = .ok s') {c : String} {d : Document} (hd : d ∈ s'.scan c) :
    d ∈ s.scan c ∨ c = collection ∧ d = new := by
  obtain ⟨⟨before, after, was, is⟩, others⟩ := h.scan_replace hold hid hr
  by_cases hc : c = collection
  · subst hc
    rw [is, List.mem_append, List.mem_cons] at hd
    rw [was, List.mem_append, List.mem_cons]
    rcases hd with hd | rfl | hd
    · exact .inl (.inl hd)
    · exact .inr ⟨rfl, rfl⟩
    · exact .inl (.inr (.inr hd))
  · rw [others c hc] at hd
    exact .inl hd

/-- A stored document stays, or it is the one whose place the new version takes. -/
theorem mem_replace_of_mem_scan (hold : old ∈ s.scan collection) (hid : new.id? = old.id?)
    (hr : s.replace collection new = .ok s') {c : String} {d : Document} (hd : d ∈ s.scan c) :
    d ∈ s'.scan c ∨ d = old ∧ new ∈ s'.scan c := by
  obtain ⟨⟨before, after, was, is⟩, others⟩ := h.scan_replace hold hid hr
  by_cases hc : c = collection
  · subst hc
    rw [was, List.mem_append, List.mem_cons] at hd
    rw [is, List.mem_append, List.mem_append, List.mem_cons, List.mem_cons]
    rcases hd with hd | rfl | hd
    · exact .inl (.inl hd)
    · exact .inr ⟨rfl, .inr (.inl rfl)⟩
    · exact .inl (.inr (.inr hd))
  · rw [others c hc]
    exact .inl hd

theorem replace (hold : old ∈ s.scan collection) (hid : new.id? = old.id?)
    (hr : s.replace collection new = .ok s') : s'.Keyed := by
  obtain ⟨before, after, id, hold, rows, rows'⟩ := h.replace_rows hold hid hr
  obtain ⟨named, unique⟩ := h
  rw [rows, List.forall_mem_append, List.forall_mem_cons] at named
  rw [rows, List.pairwise_append, List.pairwise_cons] at unique
  refine ⟨?_, ?_⟩
  · rw [rows', List.forall_mem_append, List.forall_mem_cons]
    exact ⟨named.1, hid.trans hold, named.2.2⟩
  · -- Rows are told apart by their places, which do not change.
    rw [rows', List.pairwise_append, List.pairwise_cons]
    obtain ⟨first, last, across⟩ := unique
    refine ⟨first, last, fun r hr r' hr' => ?_⟩
    rcases List.mem_cons.1 hr' with rfl | hr'
    · exact across r hr ⟨collection, id, old⟩ List.mem_cons_self
    · exact across r hr r' (List.mem_cons_of_mem _ hr')

end Keyed

end Store

end Catalog
