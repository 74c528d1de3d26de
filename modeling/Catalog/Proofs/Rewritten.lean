import Catalog.Proofs.Keyed

/-!
# Rewritten collections

What becomes of a collection of a keyed store when documents are put in the places of stored ones,
one after the other: each stored document with one of the ids is replaced, and the others stay
(`scan_rewritten`). How many documents have a property afterwards is what it was, with those that
get the property and without those that lose it (`countP_map_update`).
-/

namespace Catalog

/-- The row with the document that is put in its place, if it is one of the given ones; of several
    the last counts. -/
def Row.rewritten (collection : String) (docs : List Document) (r : Row) : Row :=
  docs.foldl (fun r doc =>
    if r.collection = collection ∧ doc.id?.toOption = some r.id then { r with document := doc }
    else r) r

namespace Row

variable {collection : String} {docs : List Document} {r : Row}

theorem rewritten_cons (doc : Document) :
    r.rewritten collection (doc :: docs) =
      (if r.collection = collection ∧ doc.id?.toOption = some r.id then { r with document := doc }
        else r).rewritten collection docs := rfl

/-- A row keeps its place. -/
theorem place_rewritten : (r.rewritten collection docs).collection = r.collection ∧
    (r.rewritten collection docs).id = r.id := by
  induction docs generalizing r with
  | nil => exact ⟨rfl, rfl⟩
  | cons doc docs ih =>
    rw [rewritten_cons]
    split
    · exact ih
    · exact ih

/-- A row that no document belongs to stays. -/
theorem rewritten_of_forall (h : ∀ doc ∈ docs, doc.id? ≠ .ok r.id) :
    r.rewritten collection docs = r := by
  induction docs with
  | nil => rfl
  | cons doc docs ih =>
    rw [List.forall_mem_cons] at h
    rw [rewritten_cons, if_neg fun hr => h.1 (toOption_eq_some.1 hr.2)]
    exact ih h.2

/-- A row of another collection stays. -/
theorem rewritten_of_ne (h : r.collection ≠ collection) : r.rewritten collection docs = r := by
  induction docs with
  | nil => rfl
  | cons doc docs ih => rw [rewritten_cons, if_neg fun hr => h hr.1, ih]

/-- A row that one document belongs to gets this document. -/
theorem rewritten_of_mem (hc : r.collection = collection) {doc : Document} (hd : doc ∈ docs)
    (hid : doc.id? = .ok r.id) (h : ∀ doc' ∈ docs, doc'.id? = .ok r.id → doc' = doc) :
    (r.rewritten collection docs).document = doc := by
  induction docs generalizing r with
  | nil => exact nomatch hd
  | cons first docs ih =>
    rw [List.forall_mem_cons] at h
    rw [rewritten_cons]
    by_cases hf : first.id? = .ok r.id
    · rw [if_pos ⟨hc, toOption_eq_some.2 hf⟩]
      obtain rfl := h.1 hf
      by_cases hm : first ∈ docs
      · exact ih hc hm hid h.2
      · -- No later document belongs to the row, so the first one remains.
        have alone : ∀ doc' ∈ docs, doc'.id? ≠ .ok r.id :=
          fun doc' hd' hid' => hm (h.2 doc' hd' hid' ▸ hd')
        exact congrArg document (rewritten_of_forall (r := { r with document := first }) alone)
    · rw [if_neg fun hr => hf (toOption_eq_some.1 hr.2)]
      rcases List.mem_cons.1 hd with rfl | hm
      · exact absurd hid hf
      · exact ih hc hm hid h.2

end Row

namespace Store

variable {s s' : Store} {collection : String}

/-- Replacing a document rewrites the rows with it. -/
theorem replace_eq_ok {doc : Document} (h : s.replace collection doc = .ok s') :
    s'.rows = s.rows.map (Row.rewritten collection [doc]) := by
  obtain ⟨id, hid, h⟩ := bind_eq_ok.1 h
  obtain ⟨⟨⟩, -, h⟩ := bind_eq_ok.1 h
  cases h
  refine List.map_congr_left fun r _ => ?_
  rw [Row.rewritten_cons]
  have place : r.isAt collection id = true ↔
      r.collection = collection ∧ doc.id?.toOption = some r.id := by
    rw [Row.isAt, Bool.and_eq_true, beq_iff_eq, beq_iff_eq, hid]
    exact and_congr_right fun _ => ⟨fun h => congrArg some h.symm, fun h => by cases h; rfl⟩
  by_cases hr : r.isAt collection id = true
  · rw [if_pos hr, if_pos (place.1 hr)]
    rfl
  · rw [if_neg hr, if_neg fun h => hr (place.2 h)]
    rfl

/-- Rewriting one collection leaves the others as they are. -/
theorem scan_rewritten_of_ne {docs : List Document}
    (hr : s'.rows = s.rows.map (Row.rewritten collection docs)) {c : String}
    (hc : c ≠ collection) : s'.scan c = s.scan c := by
  have place : ((fun r : Row => r.collection == c) ∘ Row.rewritten collection docs) =
      fun r => r.collection == c := by
    funext r
    rw [Function.comp_apply, Row.place_rewritten.1]
  rw [scan, hr, List.filter_map, place, List.map_map, scan]
  refine List.map_congr_left fun r hr => ?_
  have hcollection := beq_iff_eq.1 (List.mem_filter.1 hr).2
  rw [Function.comp_apply, Row.rewritten_of_ne fun h => hc (hcollection.symm.trans h)]

namespace Keyed

variable (h : s.Keyed)

include h

/-- The document with an id is the one that says so. -/
theorem fetch?_eq {d : Document} (hd : d ∈ s.scan collection) {id : String}
    (hid : d.id? = .ok id) : s.fetch? collection id = some d := by
  obtain ⟨r, hr, rfl, rfl⟩ := mem_scan.1 hd
  rw [h.named r hr, Except.ok.injEq] at hid
  subst hid
  cases hf : s.rows.find? (Row.isAt r.collection r.id) with
  | none =>
    refine absurd (List.find?_eq_none.1 hf r hr) ?_
    rw [Row.isAt, beq_self_eq_true, beq_self_eq_true]
    exact fun h => h rfl
  | some r' =>
    have hat := List.find?_some hf
    rw [Row.isAt, Bool.and_eq_true, beq_iff_eq, beq_iff_eq] at hat
    rw [fetch?, hf, h.row_eq (List.mem_of_find?_eq_some hf) hr hat.1 hat.2]
    rfl

/-- Documents that keep the ids of stored ones take their places, and the other documents stay. -/
theorem scan_rewritten {q : Document → Bool} {u : Document → Document}
    (hu : ∀ d ∈ s.scan collection, q d = true → (u d).id? = d.id?)
    (hr : s'.rows = s.rows.map (Row.rewritten collection
      (((s.scan collection).filter q).map u))) :
    s'.scan collection = (s.scan collection).map fun d => if q d then u d else d := by
  -- A document that belongs to a row was made of the document in this row, since ids are unique.
  have updated {r : Row} (hr : r ∈ s.rows) (hc : r.collection = collection) {doc : Document}
      (hd : doc ∈ ((s.scan collection).filter q).map u) (hid : doc.id? = .ok r.id) :
      q r.document = true ∧ doc = u r.document := by
    obtain ⟨d, hm, rfl⟩ := List.mem_map.1 hd
    obtain ⟨hd, hq⟩ := List.mem_filter.1 hm
    have same := h.eq_of_id?_eq hd (mem_scan.2 ⟨r, hr, hc, rfl⟩)
      (((hu d hd hq).symm.trans hid).trans (h.named r hr).symm)
    exact ⟨same ▸ hq, congrArg u same⟩
  have place : ((fun r : Row => r.collection == collection) ∘
      Row.rewritten collection (((s.scan collection).filter q).map u)) =
        fun r => r.collection == collection := by
    funext r
    rw [Function.comp_apply, Row.place_rewritten.1]
  rw [scan, hr, List.filter_map, place, List.map_map]
  conv => rhs; rw [scan, List.map_map]
  refine List.map_congr_left fun r hr => ?_
  obtain ⟨hr, hc⟩ := List.mem_filter.1 hr
  have hc := beq_iff_eq.1 hc
  have hd : r.document ∈ s.scan collection := mem_scan.2 ⟨r, hr, hc, rfl⟩
  rw [Function.comp_apply, Function.comp_apply]
  by_cases hq : q r.document = true
  · rw [if_pos hq]
    refine Row.rewritten_of_mem hc ?_ ((hu _ hd hq).trans (h.named r hr))
      fun doc hdoc hid => (updated hr hc hdoc hid).2
    exact List.mem_map.2 ⟨_, List.mem_filter.2 ⟨hd, hq⟩, rfl⟩
  · rw [if_neg hq, Row.rewritten_of_forall fun doc hdoc hid => hq (updated hr hc hdoc hid).1]

end Keyed

end Store

/-- What has a property after some elements are changed had it before or gets it, and does not lose
    it. -/
theorem countP_map_update {α : Type} (q p : α → Bool) (u : α → α) (xs : List α) :
    (xs.map fun x => if q x then u x else x).countP p +
        (xs.filter q).countP (fun x => p x && !p (u x)) =
      xs.countP p + (xs.filter q).countP (fun x => p (u x) && !p x) := by
  induction xs with
  | nil => rfl
  | cons x xs ih =>
    rw [List.map_cons, List.countP_cons, List.countP_cons, List.filter_cons]
    by_cases hq : q x = true
    · rw [if_pos hq, if_pos hq, List.countP_cons, List.countP_cons]
      cases p x <;> cases p (u x) <;>
        simp only [Bool.not_true, Bool.not_false, Bool.and_true, Bool.and_false, reduceIte,
          Bool.false_eq_true] <;> omega
    · rw [if_neg hq, if_neg hq]
      omega

end Catalog
