import Catalog.Proofs.Rule.Parents
import Catalog.Proofs.Service.Change
import Catalog.Proofs.Service.Finding

/-!
# Children and parents

The children of a record are those that have its reference, as it is written, among their parents;
the parents of a record are those that these read as (`children_parents`). Whatever requests have
come before, a record only names its parents by their references with padding
(`namesParents_of_run`). So being a child and being a parent are converse where no reference has
padding. One with padding passes the check all the same, and then the record it names is a parent
without that child (`parent_without_child`).
-/

namespace Catalog.Service

open Text

variable {ctx : Context} {s s' : Store} {f : Family}

/-! ## What is stored -/

/-- What has passed the checks of its shape and its references names its parents properly. -/
theorem namesParents_of_checks {config : Configuration} {t : Store} {p : Policy} {doc : Document}
    (hparents : LookupConstraint.sameFamily f ∈ p.constraints)
    (hshape : Record.checkShape p doc = .ok ())
    (hreferences : checkReferences config t p doc = .ok ()) :
    NamesParents config.referenceHost f doc where
  texts := Record.isTexts_of_checkShape hshape (by decide)
  references _ ht := isReferenceTo_of_checkReferences hparents hreferences ht

theorem Revised.checkShape {p : Policy} {body old new : Document} {now : Instant}
    (h : Revised p body now old new) : Record.checkShape p new = .ok () := by
  cases h with
  | replaced h => exact Record.checkShape_replace h
  | updated h => exact Record.checkShape_update h

/-- The records of a family name their parents properly after a step if they do before it. -/
theorem namesParents_change {request : WriteRequest} (hc : ctx.config.Separate)
    (hparents : LookupConstraint.sameFamily f ∈ (ctx.config.policy f).constraints) (hk : s.Keyed)
    (hs : ∀ d ∈ s.scan (ctx.collection f), NamesParents ctx.config.referenceHost f d)
    (h : Change ctx request s s') :
    ∀ d ∈ s'.scan (ctx.collection f), NamesParents ctx.config.referenceHost f d := by
  cases h.records hc hk f with
  | added _ new is =>
    obtain ⟨prepared, -⟩ := newRecord_eq_ok new
    obtain ⟨body, now, -, -, made⟩ := prepared.made
    rw [is, List.forall_mem_append, List.forall_mem_singleton]
    exact ⟨hs, namesParents_of_checks hparents (Record.checkShape_create made)
      prepared.references⟩
  | revised _ _ revised checked was is =>
    obtain ⟨t, -, references⟩ := checked.references
    rw [was, List.forall_mem_append, List.forall_mem_cons] at hs
    rw [is, List.forall_mem_append, List.forall_mem_cons]
    exact ⟨hs.1, namesParents_of_checks hparents revised.checkShape references, hs.2.2⟩
  | fewer sub => exact fun d hd => hs d (sub.subset hd)

/-- After every run of requests from the empty store the records of a family name their parents
    properly. -/
theorem namesParents_of_run {config : Configuration} (hc : config.Separate)
    (hparents : LookupConstraint.sameFamily f ∈ (config.policy f).constraints)
    {allowed : WriteRequest → Prop} (h : Run config allowed {} s) :
    s.Sound ∧ ∀ d ∈ s.scan (config.policy f).collection,
      NamesParents config.referenceHost f d := by
  have kept := h.keeps (P := fun s => s.Sound ∧ ∀ d ∈ s.scan (config.policy f).collection,
      NamesParents config.referenceHost f d)
    Store.Sound.empty.toKeyed ⟨.empty, fun d hd => absurd hd List.not_mem_nil⟩
    fun ctx request s s' hconfig _ hk hs hchange => by
      subst hconfig
      exact ⟨hchange.sound hs.1, namesParents_change hc hparents hk hs.2 hchange⟩
  exact kept.2

/-! ## What is found -/

/-- A record has a text among its parents if its field for them is equal to it. -/
theorem met_parents {host : String} {d : Document} (h : NamesParents host f d) (t : String) :
    (Condition.equals "_parents" (.text t)).met d = true ↔ d.NamesParent t := by
  rcases h.null_or_texts with ⟨hnull, none⟩ | ⟨texts, htexts, names⟩
  · have held : (Condition.equals "_parents" (.text t)).holds (.object d) = .ok false := by
      rw [Document.field] at hnull
      rw [Condition.equals, Condition.compare, Condition.holds, Leaf.holds,
        Document.path?_key (by decide : '.' ∉ "_parents".toList), hnull]
      rfl
    rw [Condition.met_iff, Condition.Met, held]
    exact iff_of_false (fun h => Bool.false_ne_true (Except.ok.inj h)) (none t)
  · rw [Condition.met_equals_texts (by decide) htexts, List.contains_iff_mem, names]

/-- The ids of the parents of a record are those that its references read as. -/
theorem exists_parentIds {host : String} {d : Document} (h : NamesParents host f d) :
    ∃ ids, parentIds f d = .ok ids ∧
      ∀ id, id ∈ ids ↔ ∃ t, d.NamesParent t ∧ Reference.read? t = some ⟨f, id⟩ := by
  rcases h.null_or_texts with ⟨hnull, none⟩ | ⟨texts, htexts, names⟩
  · refine ⟨[], by rw [parentIds, hnull]; rfl, fun id => iff_of_false List.not_mem_nil ?_⟩
    rintro ⟨t, ht, -⟩
    exact none t ht
  · refine ⟨(texts.filterMap Reference.read?).filterMap fun r =>
      if r.family = f then some r.id else none, ?_, fun id => ?_⟩
    · have field : d.field "_parents" = .array (texts.map .text) := Document.field_of_get? htexts
      have refs : (texts.map Value.text).filterMap Reference.ofValue? =
          texts.filterMap Reference.read? := by
        rw [List.filterMap_map]
        rfl
      rw [parentIds, field, ← refs]
      cases texts <;> rfl
    · simp only [List.mem_filterMap, names]
      constructor
      · rintro ⟨⟨g, id'⟩, ⟨t, ht, hread⟩, hid⟩
        split at hid
        · next hg =>
          cases hid
          cases hg
          exact ⟨t, ht, hread⟩
        · cases hid
      · rintro ⟨t, ht, hread⟩
        exact ⟨_, ⟨t, ht, hread⟩, if_pos rfl⟩

section Found

variable (hopen : ctx.config.accessControl = false) (hdepth : 0 ≤ ctx.config.maxLookupDepth)
  (hk : s.Keyed) (hfit : FitsPages ctx s) (hf : f ≠ .relations)

include hopen hdepth hk hfit hf

/-- The children of a stored record are those that name it by its reference. -/
theorem findChildren_eq {id : String} {d : Document} (hd : d ∈ s.scan (ctx.collection f))
    (hid : d.get? "_id" = some (.text id)) :
    findChildren ctx s f id (.object []) = .ok ((s.scan (ctx.collection f)).filter
      (Condition.equals "_parents" (.text (referenceTo ctx f id))).met) := by
  have all := Store.readable_of_always (Context.access_of_open hopen f) s
  have found := find_compare_all hk hfit hdepth hf (Condition.total_equals_text "_parents"
    (referenceTo ctx f id)) rfl
  rw [findChildren, demand_of_mem hk hfit hdepth hf (all.symm ▸ hd) hid, ok_bind, Condition.equals,
    found, all]
  exact congrArg Except.ok (List.filter_congr fun e _ => selects_compare (by decide) _ _ e)

/-- The parents of a stored record are those whose ids its references read as. -/
theorem exists_findParents {c : Document} {id : String} (hc : c ∈ s.scan (ctx.collection f))
    (hid : c.get? "_id" = some (.text id)) (hnames : NamesParents ctx.config.referenceHost f c) :
    ∃ parents, findParents ctx s f id (.object []) = .ok parents ∧
      ∀ p ∈ s.scan (ctx.collection f), ∀ pid, p.get? "_id" = some (.text pid) →
        (p ∈ parents ↔ ∃ t, c.NamesParent t ∧ Reference.read? t = some ⟨f, pid⟩) := by
  obtain ⟨ids, hids, named⟩ := exists_parentIds hnames
  have all := Store.readable_of_always (Context.access_of_open hopen f) s
  have found := findById_of_mem hk hfit hdepth hf (all.symm ▸ hc) hid
  rw [findParents, found, ok_bind, hids, lift_ok, ok_bind]
  cases ids with
  | nil =>
    exact ⟨[], rfl, fun p _ pid _ => iff_of_false List.not_mem_nil fun h =>
      List.not_mem_nil ((named pid).2 h)⟩
  | cons first ids =>
    refine ⟨_, find_compare_all hk hfit hdepth hf
      (Condition.total_inq_texts "_id" (first :: ids)) rfl, fun p hp pid hpid => ?_⟩
    rw [all, List.mem_filter, and_iff_right hp, ← named]
    constructor
    · intro h
      rw [Condition.selects, Condition.met_inq_texts (by decide) hpid, Bool.and_eq_true] at h
      exact List.contains_iff_mem.1 h.1
    · exact Condition.selects_id_inq hpid

end Found

/-! ## Children and parents -/

/-- Of two stored records of a family, one is a child of the other if it names it as a parent by its
    reference, and the other is a parent of the one if this has the reference with padding among its
    parents. If it has no reference with padding, both is the same. -/
theorem children_parents (hc : ctx.config.Separate) (hf : f ≠ .relations)
    (hparents : LookupConstraint.sameFamily f ∈ (ctx.config.policy f).constraints)
    {allowed : WriteRequest → Prop} (hrun : Run ctx.config allowed {} s)
    (hopen : ctx.config.accessControl = false) (hdepth : 0 ≤ ctx.config.maxLookupDepth)
    (hfit : FitsPages ctx s) {c p : Document} {cid pid : String}
    (hchild : c ∈ s.scan (ctx.collection f)) (hcid : c.get? "_id" = some (.text cid))
    (hparent : p ∈ s.scan (ctx.collection f)) (hpid : p.get? "_id" = some (.text pid))
    (hpad : Unpadded pid) :
    ∃ children parents, findChildren ctx s f pid (.object []) = .ok children ∧
      findParents ctx s f cid (.object []) = .ok parents ∧
      (c ∈ children ↔ c.NamesParent (referenceTo ctx f pid)) ∧
      (p ∈ parents ↔
        ∃ padding, IsPadding padding ∧ c.NamesParent (referenceTo ctx f pid ++ padding)) ∧
      ((∀ t, c.NamesParent t → Unpadded t) → (c ∈ children ↔ p ∈ parents)) := by
  obtain ⟨hs, hnames⟩ := namesParents_of_run hc hparents hrun
  have hchildren := findChildren_eq hopen hdepth hs.toKeyed hfit hf hparent hpid
  obtain ⟨parents, hfound, hmem⟩ := exists_findParents hopen hdepth hs.toKeyed hfit hf hchild hcid
    (hnames c hchild)
  have child : c ∈ (s.scan (ctx.collection f)).filter
      (Condition.equals "_parents" (.text (referenceTo ctx f pid))).met ↔
        c.NamesParent (referenceTo ctx f pid) := by
    rw [List.mem_filter, and_iff_right hchild, met_parents (hnames c hchild)]
  have parent : p ∈ parents ↔
      ∃ padding, IsPadding padding ∧ c.NamesParent (referenceTo ctx f pid ++ padding) :=
    (hmem p hparent pid hpid).trans ((hnames c hchild).reads_iff hpad)
  refine ⟨_, parents, hchildren, hfound, child, parent, fun hplain => ?_⟩
  rw [child, parent]
  constructor
  · intro h
    exact ⟨"", nofun, by rwa [String.append_empty]⟩
  · rintro ⟨padding, hpadding, h⟩
    rwa [hpadding.eq_empty (hplain _ h), String.append_empty] at h

/-- The ids of the records in an answer. -/
def shownIds (x : Outcome (List Document)) : Option (List String) :=
  x.toOption.map (List.map fun d => (d.field "_id").display)

/-- An entity and a child that is made of it. -/
def createdChild : List WriteRequest := [
  .create .entities (.object [("_name", .text "P")]) "p",
  .createChild .entities "p" (.object [("_name", .text "C")]) "c"]

/-- An entity and another one that names it as a parent, with a blank after its reference. -/
def paddedChild : List WriteRequest := [
  .create .entities (.object [("_name", .text "P")]) "p",
  .create .entities (.object [("_name", .text "C"),
    ("_parents", .array [.text "tapp://localhost/entities/p "])]) "c"]

/-- The child that is made of an entity is found from it, and the entity from the child. -/
theorem children_parents_createdChild :
    let s := performAll openContext createdChild {}
    (openContext.config.Separate ∧
      LookupConstraint.sameFamily .entities ∈
        (openContext.config.policy .entities).constraints ∧
      Run openContext.config (fun _ => True) {} s ∧ FitsPages openContext s) ∧
    shownIds (findChildren openContext s .entities "p" (.object [])) = some ["c"] ∧
    shownIds (findParents openContext s .entities "c" (.object [])) = some ["p"] ∧
    ∃ c p, s.fetch? "GenericEntity" "c" = some c ∧ s.fetch? "GenericEntity" "p" = some p ∧
      ∃ children parents,
        findChildren openContext s .entities "p" (.object []) = .ok children ∧
        findParents openContext s .entities "c" (.object []) = .ok parents ∧
        ((∀ t, c.NamesParent t → Unpadded t) → (c ∈ children ↔ p ∈ parents)) := by
  intro s
  have run : Run openContext.config (fun _ => True) {} s :=
    Run.performAll (fun _ _ => trivial) .start
  have constraint : LookupConstraint.sameFamily .entities ∈
      (openContext.config.policy .entities).constraints := List.mem_cons_self
  have fits : FitsPages openContext s := by
    intro f
    cases f <;> decide +kernel
  obtain ⟨sound, -⟩ := namesParents_of_run separate_openContext constraint run
  obtain ⟨c, hc⟩ := Option.isSome_iff_exists.1
    (by decide +kernel : (s.fetch? "GenericEntity" "c").isSome = true)
  obtain ⟨p, hp⟩ := Option.isSome_iff_exists.1
    (by decide +kernel : (s.fetch? "GenericEntity" "p").isSome = true)
  obtain ⟨children, parents, hchildren, hparents, -, -, same⟩ :=
    children_parents separate_openContext (by decide) constraint run rfl (by decide) fits
      (Store.mem_scan_of_fetch? hc) (sound.get?_id_of_fetch? hc) (Store.mem_scan_of_fetch? hp)
      (sound.get?_id_of_fetch? hp) (by decide)
  exact ⟨⟨separate_openContext, constraint, run, fits⟩, by decide +kernel, by decide +kernel,
    c, p, hc, hp, children, parents, hchildren, hparents, same⟩

/-- An entity that is named with a blank after its reference is found as a parent, but what names it
    so is not found as its child. -/
theorem parent_without_child :
    let s := performAll openContext paddedChild {}
    (openContext.config.Separate ∧
      LookupConstraint.sameFamily .entities ∈
        (openContext.config.policy .entities).constraints ∧
      Run openContext.config (fun _ => True) {} s ∧ FitsPages openContext s) ∧
    shownIds (findParents openContext s .entities "c" (.object [])) = some ["p"] ∧
    shownIds (findChildren openContext s .entities "p" (.object [])) = some [] := by
  intro s
  refine ⟨⟨separate_openContext, List.mem_cons_self,
    Run.performAll (fun _ _ => trivial) .start, fun f => ?_⟩, by decide +kernel,
    by decide +kernel⟩
  cases f <;> decide +kernel

end Catalog.Service
