import Catalog.Proofs.Keyed
import Catalog.Proofs.Query.Met
import Catalog.Proofs.Record.Shape
import Catalog.Proofs.Record.Spelling
import Catalog.Rule.References

/-!
# The parents that a record names

A record names its parents by texts. Where it has passed the constraint that they are of its family
(`LookupConstraint.sameFamily`), these are the references to records of the family, perhaps with
padding (`NamesParents.spelled`): the check reads a text without the blanks around it, and demands
the host of the text as it is. So a text that is found by its spelling is also found by what it
reads as, but not the other way round (`NamesParents.reads_iff`).
-/

namespace Catalog

open Text

/-- The constraint that the parents of a record are of its family. -/
def LookupConstraint.sameFamily (f : Family) : LookupConstraint :=
  { path := "_parents", family := some f }

/-- A record has a text among its parents. -/
def Document.NamesParent (doc : Document) (t : String) : Prop :=
  ∃ items, doc.get? "_parents" = some (.array items) ∧ .text t ∈ items

/-- A record has nothing but references to records of a family on a host among its parents. -/
structure NamesParents (host : String) (f : Family) (doc : Document) : Prop where
  texts : Record.isTexts (doc.field "_parents") = true
  references : ∀ t, doc.NamesParent t →
    isReferenceTo (Reference.write host ⟨f, ""⟩) f (.text t) = true

variable {config : Configuration} {store : Store} {p : Policy} {f : Family} {host t id : String}
  {doc : Document}

/-! ## The check -/

/-- The parents of a record whose references meet the constraint have passed both of its checks. -/
theorem checked_of_checkReferences (hc : LookupConstraint.sameFamily f ∈ p.constraints)
    (h : checkReferences config store p doc = .ok ()) (ht : doc.NamesParent t) :
    ∃ items, .text t ∈ items ∧
      (LookupConstraint.sameFamily f).checkForm config p.family items = .ok () ∧
      (LookupConstraint.sameFamily f).checkTargets config store p.family doc
        (items.filterMap Reference.ofValue?) = .ok () := by
  obtain ⟨items, hitems, ht⟩ := ht
  have checked := forM_eq_ok.1 h _ (List.mem_filter.2 ⟨hc, rfl⟩)
  have values : referenceValues (Value.orNull (doc.path? "_parents")) = items := by
    rw [Document.path?, Document.path?_key (by decide), hitems]
    rfl
  obtain ⟨v, rest, rfl⟩ := List.exists_cons_of_ne_nil (List.ne_nil_of_mem ht)
  rw [LookupConstraint.check] at checked
  dsimp only [LookupConstraint.sameFamily] at checked
  rw [values] at checked
  obtain ⟨⟨⟩, form, targets⟩ := bind_eq_ok.1 checked
  exact ⟨_, ht, form, targets⟩

/-- A record whose references meet the constraint names references to records of its family. -/
theorem isReferenceTo_of_checkReferences
    (hc : LookupConstraint.sameFamily f ∈ p.constraints)
    (h : checkReferences config store p doc = .ok ()) (ht : doc.NamesParent t) :
    isReferenceTo (Reference.write config.referenceHost ⟨f, ""⟩) f (.text t) = true := by
  obtain ⟨items, ht, form, -⟩ := checked_of_checkReferences hc h ht
  dsimp only [LookupConstraint.checkForm, LookupConstraint.sameFamily] at form
  split at form
  · next all => exact List.all_eq_true.1 all _ ht
  · cases form

/-- What is found by references is stored under the id that its reference says. -/
theorem mem_storedRecords {refs : List Reference} {r : Reference} {d : Document}
    (h : (r, d) ∈ storedRecords config store refs) :
    d ∈ store.scan (config.policy r.family).collection ∧ d.get? "_id" = some (.text r.id) := by
  obtain ⟨g, -, h⟩ := List.mem_flatMap.1 h
  obtain ⟨e, he, h⟩ := List.mem_filterMap.1 h
  split at h
  · next id hid =>
    cases h
    exact ⟨Store.mem_scan_of_mem_fetchMany he, hid⟩
  · cases h

/-- References that have passed the check of a constraint name stored records, and if they name the
    parents of a reaction, these are about what it is about. -/
theorem LookupConstraint.checkTargets_eq_ok {c : LookupConstraint} {refs : List Reference}
    (hkind : c.targetKind = .null)
    (h : c.checkTargets config store f doc refs = .ok ()) :
    (∀ r ∈ refs, ∃ d, (r, d) ∈ storedRecords config store refs) ∧
      (c.path = "_parents" → ∀ field target, f.sharedWithParents? = some (field, target) →
        ∀ t ∈ storedRecords config store refs,
          (t.2.field field).same (doc.field field) = true) := by
  dsimp only [checkTargets] at h
  split at h
  · cases h
  · next none =>
    rw [Bool.not_eq_true, Bool.not_eq_false', List.isEmpty_iff, List.filter_eq_nil_iff] at none
    refine ⟨fun r hr => ?_, fun hpath field target hshared t ht => ?_⟩
    · have found := none r hr
      rw [Option.isNone_iff_eq_none] at found
      obtain ⟨d, hd⟩ := Option.ne_none_iff_exists'.1 found
      obtain ⟨before, after, is, -⟩ := List.lookup_eq_some_iff.1 hd
      refine ⟨d, ?_⟩
      rw [is]
      exact List.mem_append_right _ List.mem_cons_self
    · rw [hkind] at h
      dsimp only at h
      rw [hshared] at h
      dsimp only at h
      split at h
      · cases h
      · next same =>
        rw [not_and, Bool.not_eq_true, List.any_eq_false] at same
        have same := same hpath t ht
        rwa [Bool.not_eq_true, Bool.not_eq_false'] at same

/-- A reaction whose references meet the constraint names stored reactions as its parents, which are
    about what it is about. -/
theorem parent_of_checkReferences {field : String} {target : Family} {r : Reference}
    (hp : p.family.sharedWithParents? = some (field, target))
    (hc : LookupConstraint.sameFamily f ∈ p.constraints)
    (h : checkReferences config store p doc = .ok ()) (ht : doc.NamesParent t)
    (hr : Reference.read? t = some r) :
    ∃ parent ∈ store.scan (config.policy r.family).collection,
      parent.get? "_id" = some (.text r.id) ∧
        (parent.field field).same (doc.field field) = true := by
  obtain ⟨items, ht, -, targets⟩ := checked_of_checkReferences hc h ht
  obtain ⟨stored, same⟩ := LookupConstraint.checkTargets_eq_ok rfl targets
  obtain ⟨parent, found⟩ := stored r (List.mem_filterMap.2 ⟨.text t, ht, hr⟩)
  obtain ⟨mem, hid⟩ := mem_storedRecords found
  exact ⟨parent, mem, hid, same rfl field target hp _ found⟩

namespace NamesParents

variable (h : NamesParents host f doc)

include h

/-- A record has no parents, or texts as its parents. -/
theorem null_or_texts : (doc.field "_parents" = .null ∧ ∀ t, ¬doc.NamesParent t) ∨
    ∃ texts : List String, doc.get? "_parents" = some (.array (texts.map .text)) ∧
      ∀ t, doc.NamesParent t ↔ t ∈ texts := by
  rcases Record.isTexts_iff.1 h.texts with hnull | ⟨texts, htexts⟩
  · refine .inl ⟨hnull, fun t ht => ?_⟩
    obtain ⟨items, hitems, -⟩ := ht
    rw [Document.field, hitems] at hnull
    cases hnull
  · have given : doc.get? "_parents" = some (.array (texts.map .text)) := by
      rw [Document.field] at htexts
      cases hv : doc.get? "_parents" with
      | none =>
        rw [hv] at htexts
        cases htexts
      | some v =>
        rw [hv] at htexts
        exact congrArg some htexts
    refine .inr ⟨texts, given, fun t => ⟨fun ht => ?_, fun ht => ?_⟩⟩
    · obtain ⟨items, hitems, ht⟩ := ht
      cases given.symm.trans hitems
      simpa using ht
    · exact ⟨_, given, List.mem_map_of_mem ht⟩

/-- What a record has among its parents is the reference to a record, with padding. -/
theorem spelled (ht : doc.NamesParent t) : ∃ id padding, Reference.read? t = some ⟨f, id⟩ ∧
    Unpadded id ∧ IsPadding padding ∧ t = Reference.write host ⟨f, id⟩ ++ padding := by
  have form := h.references t ht
  rw [isReferenceTo, Bool.and_eq_true, Option.any_eq_true, List.isPrefixOf_iff_prefix] at form
  obtain ⟨⟨r, hread, hfamily⟩, hbegins⟩ := form
  obtain ⟨g, id⟩ := r
  obtain rfl : g = f := by simpa using hfamily
  obtain ⟨hid, padding, hpadding, rfl⟩ := Reference.eq_of_read? hbegins hread
  exact ⟨id, padding, hread, hid, hpadding, rfl⟩

/-- A record is named as a parent by what is its reference but for padding. -/
theorem reads_iff (hid : Unpadded id) :
    (∃ t, doc.NamesParent t ∧ Reference.read? t = some ⟨f, id⟩) ↔
      ∃ padding, IsPadding padding ∧
        doc.NamesParent (Reference.write host ⟨f, id⟩ ++ padding) := by
  constructor
  · rintro ⟨t, ht, hread⟩
    obtain ⟨id', padding, hread', -, hpadding, rfl⟩ := h.spelled ht
    cases hread.symm.trans hread'
    exact ⟨padding, hpadding, ht⟩
  · rintro ⟨padding, hpadding, ht⟩
    obtain ⟨id', padding', hread, hid', hpadding', heq⟩ := h.spelled ht
    cases Reference.id_eq_of_append hid hid' hpadding hpadding' heq
    exact ⟨_, ht, hread⟩

end NamesParents

end Catalog
