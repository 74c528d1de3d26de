import Catalog.Proofs.Rule.Checks

/-!
# Records told apart by their ids

A record that is written again is left out of counts by its id, as a condition compares it. That
leaves out this record alone if the ids in the collection are *told apart*: those that a condition
takes for equal are the same id (`ToldApart`). Texts are, and a new record, whose id is a text, does
not change that. Numbers need not be: `5` and `5.0` are equal, but kept as two different ids.
-/

namespace Catalog

/-- Ids that a condition takes for equal are the same id. -/
def ToldApart (docs : List Document) : Prop :=
  ∀ d ∈ docs, ∀ e ∈ docs,
    equalTo (Value.orNull (d.get? "_id")) (Value.orNull (e.get? "_id")) none = .ok true →
      d.id? = e.id?

variable {docs before after : List Document} {doc old new d : Document} {id : String} {v w : Value}

/-- Only some values are ids. -/
theorem exists_id (h : d.id? = .ok id) : ∃ v, d.get? "_id" = some v ∧ idText? v = some id :=
  Option.bind_eq_some_iff.1 (orFault_eq_ok.1 h)

/-- An id is a text, a number or a truth value. -/
theorem idText?_cases (h : idText? v = some id) :
    v = .text id ∨ (∃ n, v = .number n) ∨ ∃ b, v = .bool b := by
  cases v with
  | text s =>
    cases h
    exact .inl rfl
  | number n => exact .inr (.inl ⟨n, rfl⟩)
  | bool b => exact .inr (.inr ⟨b, rfl⟩)
  | _ => cases h

/-- Comparing with an id always has an answer. -/
theorem equalTo_id (h : idText? w = some id) (v : Value) : ∃ b, equalTo v w none = .ok b := by
  rcases idText?_cases h with rfl | ⟨n, rfl⟩ | ⟨b, rfl⟩
  · exact Condition.equalTo_text v id
  · have items : equalTo v (.number n) none =
        anyItem (fun v => scalarEquals v (.number n) none) v := by cases v <;> rfl
    rw [items]
    exact Condition.anyItem_total (fun v => by cases v <;> exact ⟨_, rfl⟩) v
  · have items : equalTo v (.bool b) none =
        anyItem (fun v => scalarEquals v (.bool b) none) v := by cases v <;> rfl
    rw [items]
    exact Condition.anyItem_total (fun v => by cases v <;> exact ⟨_, rfl⟩) v

/-- Only the text itself is an id that is equal to a text. -/
theorem eq_text_of_equalTo (h : idText? v = some id) {t : String}
    (he : equalTo v (.text t) none = .ok true) : id = t := by
  rcases idText?_cases h with rfl | ⟨n, rfl⟩ | ⟨b, rfl⟩
  · have same : (id == t || false) = true := Except.ok.inj he
    rwa [Bool.or_false, beq_iff_eq] at same
  · cases he
  · cases he

theorem eq_text_of_equalTo_text (h : idText? v = some id) {t : String}
    (he : equalTo (.text t) v none = .ok true) : id = t := by
  rcases idText?_cases h with rfl | ⟨n, rfl⟩ | ⟨b, rfl⟩
  · have same : (t == id || false) = true := Except.ok.inj he
    rw [Bool.or_false, beq_iff_eq] at same
    exact same.symm
  · cases he
  · cases he

namespace ToldApart

/-- A record with a text as its id is told apart from what is there. -/
theorem added (h : ToldApart docs) (hdocs : ∀ d ∈ docs, ∃ id, d.id? = .ok id)
    (hid : doc.get? "_id" = some (.text id)) : ToldApart (docs ++ [doc]) := by
  have hdoc := Document.id?_of_text hid
  intro d hd e he heq
  rcases List.mem_append.1 hd with hd | hd
  · obtain ⟨i, hi⟩ := hdocs d hd
    rcases List.mem_append.1 he with he | he
    · exact h d hd e he heq
    · obtain rfl := List.mem_singleton.1 he
      obtain ⟨v, hv, hvi⟩ := exists_id hi
      rw [hv, hid] at heq
      rw [hi, hdoc, eq_text_of_equalTo hvi heq]
  · obtain rfl := List.mem_singleton.1 hd
    rcases List.mem_append.1 he with he | he
    · obtain ⟨i, hi⟩ := hdocs e he
      obtain ⟨v, hv, hvi⟩ := exists_id hi
      rw [hv, hid] at heq
      rw [hi, hdoc, eq_text_of_equalTo_text hvi heq]
    · rw [List.mem_singleton.1 he]

/-- A new version has the id of the old one. -/
theorem revised (h : ToldApart (before ++ old :: after))
    (hid : new.get? "_id" = old.get? "_id") : ToldApart (before ++ new :: after) := by
  have was {d : Document} (hd : d ∈ before ++ new :: after) :
      ∃ d' ∈ before ++ old :: after, d.get? "_id" = d'.get? "_id" := by
    rcases eq_or_mem_of_replaced hd with rfl | hd
    · exact ⟨old, List.mem_append_right _ List.mem_cons_self, hid⟩
    · exact ⟨d, hd, rfl⟩
  intro d hd e he heq
  obtain ⟨d', hd', hdid⟩ := was hd
  obtain ⟨e', he', heid⟩ := was he
  rw [hdid, heid] at heq
  rw [Document.id?, Document.id?, hdid, heid]
  exact h d' hd' e' he' heq

theorem fewer {docs' : List Document} (h : ToldApart docs) (hs : docs'.Sublist docs) :
    ToldApart docs' :=
  fun d hd e he heq => h d (hs.subset hd) e (hs.subset he) heq

/-- Texts are told apart. -/
theorem of_texts (h : ∀ d ∈ docs, ∃ id, d.get? "_id" = some (.text id)) : ToldApart docs := by
  intro d hd e he heq
  obtain ⟨i, hi⟩ := h d hd
  obtain ⟨j, hj⟩ := h e he
  rw [hi, hj] at heq
  rw [Document.id?_of_text hi, Document.id?_of_text hj, eq_text_of_equalTo (v := .text i) rfl heq]

/-- Leaving out a record by its id leaves out no other one. -/
theorem leavingOut (h : ToldApart docs) (hd : d ∈ docs) (hold : old ∈ docs)
    (hid : old.id? = .ok id) (hne : d.id? ≠ old.id?) :
    (leavingOut (Value.orNull (old.get? "_id"))).Met d := by
  obtain ⟨v, hv, hvi⟩ := exists_id hid
  obtain ⟨b, hb⟩ := equalTo_id hvi (Value.orNull (d.get? "_id"))
  have differs : b = false := by
    cases b with
    | false => rfl
    | true => exact absurd (h d hd old hold (by rw [hv]; exact hb)) hne
  rw [hv, Catalog.leavingOut]
  split
  · have key : '.' ∉ "_id".toList := by decide
    rw [Condition.compare, Condition.Met, Condition.holds, Leaf.holds, Document.path?_key key]
    change (do return !(← equalTo (Value.orNull (d.get? "_id")) v none)) = _
    rw [hb, differs]
    rfl
  · rfl

end ToldApart

end Catalog
