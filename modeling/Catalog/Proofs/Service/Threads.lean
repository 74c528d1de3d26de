import Catalog.Proofs.Query.Sameness
import Catalog.Proofs.Service.History
import Catalog.Proofs.Service.Parents

/-!
# Threads

A reaction may have other reactions as its parents. They are about the same record as it, whatever
has happened since it came to name them (`threads_share_target`).

This is only looked at when the child is written, on the store as it is then. It holds from then on,
because what a reaction is about does not change, neither of the child nor of the parent, and
because an id that has been drawn for a reaction is not drawn again: a reaction that is named has
been stored, so that no new one comes to be named by what is there (`Threads`). In a bulk update the
children are written after all of them have been looked at, on a store whose reactions have only
been revised since (`OnlyRevised`).

What a reaction is about need not be a text. Another value may be written over by one that is the
same, such as one by true.
-/

namespace Catalog

/-- A value that takes the place of another one is this value, or the same. -/
def Value.Follows (v w : Value) : Prop := w = v ∨ w.same v = true

theorem Value.null_same {v : Value} (h : Value.null.same v = true) : v = .null := by
  cases Sameness.of_same h with
  | null => rfl
  | number hm => cases hm

namespace Value.Follows

variable {v w u : Value}

theorem trans (h : v.Follows w) (h' : w.Follows u) : v.Follows u := by
  rcases h with rfl | h
  · exact h'
  · rcases h' with rfl | h'
    · exact .inr h
    · exact .inr (same_trans h' h)

/-- Null only takes the place of null. -/
theorem ne_null (h : v.Follows w) (hv : v ≠ .null) : w ≠ .null := by
  rintro rfl
  rcases h with rfl | h
  · exact hv rfl
  · exact hv (null_same h)

/-- What takes the place of a value is the same as what this is the same as. -/
theorem same (h : v.Follows w) (hu : v.same u = true) : w.same u = true := by
  rcases h with rfl | h
  · exact hu
  · exact same_trans h hu

end Value.Follows

/-- What a document says at a field is there, unless it is null. -/
theorem Document.get?_eq_some_field {field : String} {doc : Document}
    (h : doc.field field ≠ .null) : doc.get? field = some (doc.field field) := by
  rw [Document.field] at h ⊢
  cases hv : doc.get? field with
  | none =>
    rw [hv] at h
    exact absurd rfl h
  | some v => rfl

/-- What a reaction shares with its parents is what it is about. -/
theorem Family.mem_references_of_shared {f : Family} {r : String × Family}
    (h : f.sharedWithParents? = some r) : r ∈ f.references := by
  cases f <;> cases h <;> exact List.mem_cons_self

/-- A record has the one with an id among its parents. -/
def Document.HasParent (f : Family) (id : String) (doc : Document) : Prop :=
  ∃ t, doc.NamesParent t ∧ Reference.read? t = some ⟨f, id⟩

namespace Service

variable {config : Configuration} {ctx : Context} {s s' : Store} {f : Family} {field : String}
  {target : Family} {request : WriteRequest} {drawn : List (Family × String)}

/-- What a record says in a reference field takes the place of what it said. -/
theorem Revised.follows {p : Policy} {body old new : Document} {now : Instant}
    (h : Revised p body now old new) (hd : body.Distinct) {r : String × Family}
    (hr : r ∈ p.family.references) (hold : old.field r.1 ≠ .null) :
    (old.field r.1).Follows (new.field r.1) := by
  have hv := Document.get?_eq_some_field hold
  cases h with
  | replaced h =>
    rw [Document.field.eq_def r.1 new, Record.get?_reference_replace h hr hv]
    exact .inl rfl
  | updated h =>
    obtain ⟨w, hw, follows⟩ := Record.exists_reference_update hd h hr hv
    rw [Document.field.eq_def r.1 new, hw]
    exact follows

/-- What a later version says in a reference field takes the place of what the record said, and its
    id is the same. -/
theorem Later.follows (hc : ctx.config.Separate) (hw : request.RevisesPlainly)
    {old new : Document} (h : Later ctx request (ctx.collection f) old new)
    {r : String × Family} (hr : r ∈ f.references) (hold : old.field r.1 ≠ .null) :
    new.get? "_id" = old.get? "_id" ∧ (old.field r.1).Follows (new.field r.1) := by
  induction h with
  | refl => exact ⟨rfl, .inl rfl⟩
  | tail _ step ih =>
    obtain ⟨sameId, follows⟩ := ih
    obtain ⟨g, payload, body, now, hcollection, hrevision, hbody, revised⟩ := step
    obtain rfl := hc.collections g f hcollection
    have last := revised.follows (hw payload hrevision body (members_eq_ok hbody))
      (by rwa [hc.family]) (follows.ne_null hold)
    exact ⟨revised.get?_id.trans sameId, follows.trans last⟩

/-- The reactions of a family, and the ids that have been drawn so far. -/
structure Threads (config : Configuration) (f : Family) (field : String)
    (drawn : List (Family × String)) (s : Store) : Prop extends s.Sound where
  /-- They name their parents properly. -/
  parents : ∀ d ∈ s.scan (config.policy f).collection, NamesParents config.referenceHost f d
  /-- They say what they are about. -/
  about : ∀ d ∈ s.scan (config.policy f).collection, d.field field ≠ .null
  /-- Their ids have been drawn. -/
  ownDrawn : ∀ d ∈ s.scan (config.policy f).collection, ∀ id, d.get? "_id" = some (.text id) →
    (f, id) ∈ drawn
  /-- The ids of their parents have been drawn, too. -/
  parentsDrawn : ∀ c ∈ s.scan (config.policy f).collection, ∀ id, c.HasParent f id → (f, id) ∈ drawn
  /-- They are about what their parents are about, as far as these are still there. -/
  together : ∀ c ∈ s.scan (config.policy f).collection, ∀ id, c.HasParent f id →
    ∀ p ∈ s.scan (config.policy f).collection, p.get? "_id" = some (.text id) →
      (p.field field).same (c.field field) = true

theorem Threads.empty (config : Configuration) (f : Family) (field : String) :
    Threads config f field [] {} where
  toSound := .empty
  parents _ hd := absurd hd List.not_mem_nil
  about _ hd := absurd hd List.not_mem_nil
  ownDrawn _ hd := absurd hd List.not_mem_nil
  parentsDrawn _ hc := absurd hc List.not_mem_nil
  together _ hc := absurd hc List.not_mem_nil

/-- More ids may be drawn. -/
theorem Threads.mono (h : Threads config f field drawn s) {more : List (Family × String)}
    (hm : drawn ⊆ more) : Threads config f field more s where
  toSound := h.toSound
  parents := h.parents
  about := h.about
  ownDrawn d hd id hid := hm (h.ownDrawn d hd id hid)
  parentsDrawn c hc id hid := hm (h.parentsDrawn c hc id hid)
  together := h.together

/-- What is left of the reactions are still threads. -/
theorem Threads.fewer (h : Threads config f field drawn s) (hs : s'.Sound)
    (sub : (s'.scan (config.policy f).collection).Sublist (s.scan (config.policy f).collection)) :
    Threads config f field drawn s' where
  toSound := hs
  parents d hd := h.parents d (sub.subset hd)
  about d hd := h.about d (sub.subset hd)
  ownDrawn d hd := h.ownDrawn d (sub.subset hd)
  parentsDrawn c hc := h.parentsDrawn c (sub.subset hc)
  together c hc id hid p hp := h.together c (sub.subset hc) id hid p (sub.subset hp)

/-! ## One step -/

section Step

variable (hc : ctx.config.Separate) (hshared : f.sharedWithParents? = some (field, target))
  (hparents : LookupConstraint.sameFamily f ∈ (ctx.config.policy f).constraints)

include hc hshared hparents

/-- The parents that a checked reaction names are stored, and about what it is about. -/
theorem parent_of_checked {t : Store} {doc : Document}
    (h : checkReferences ctx.config t (ctx.config.policy f) doc = .ok ()) {id : String}
    (hid : doc.HasParent f id) : ∃ parent ∈ t.scan (ctx.collection f),
      parent.get? "_id" = some (.text id) ∧ (parent.field field).same (doc.field field) = true := by
  obtain ⟨t, ht, hread⟩ := hid
  exact parent_of_checkReferences (by rw [hc.family, hshared]) hparents h ht hread

/-- A new reaction is about what its parents are about, and is no parent yet, if its id has not been
    drawn before. -/
theorem threads_added (h : Threads ctx.config f field drawn s) {given : Value} {id : String}
    {doc : Document} (hn : newRecord ctx s f given id = .ok doc) (hfresh : (f, id) ∉ drawn)
    (hs : s'.Sound) (is : s'.scan (ctx.collection f) = s.scan (ctx.collection f) ++ [doc]) :
    Threads ctx.config f field (drawn ++ [(f, id)]) s' := by
  obtain ⟨prepared, -⟩ := newRecord_eq_ok hn
  obtain ⟨body, now, -, -, made⟩ := prepared.made
  obtain ⟨targets, htargets⟩ := prepared.targets
  have mem {d : Document} (hd : d ∈ s'.scan (ctx.collection f)) :
      d ∈ s.scan (ctx.collection f) ∨ d = doc := by
    rw [is] at hd
    exact (List.mem_append.1 hd).imp_right List.mem_singleton.1
  have earlier {p : Family × String} (hp : p ∈ drawn) : p ∈ drawn ++ [(f, id)] :=
    List.mem_append_left _ hp
  have references := prepared.references
  refine {
    toSound := hs
    parents := fun d hd => ?_
    about := fun d hd => ?_
    ownDrawn := fun d hd name hname => ?_
    parentsDrawn := fun c hc' name hname => ?_
    together := fun c hc' name hname p hp hid => ?_ }
  · rcases mem hd with hd | rfl
    · exact h.parents d hd
    · exact namesParents_of_checks hparents (Record.checkShape_create made) references
  · rcases mem hd with hd | rfl
    · exact h.about d hd
    · obtain ⟨truthy, -⟩ := exists_named h.toSound htargets
        (Family.mem_references_of_shared hshared)
      intro null
      rw [null] at truthy
      cases truthy
  · rcases mem hd with hd | rfl
    · exact earlier (h.ownDrawn d hd name hname)
    · cases prepared.get?_id.symm.trans hname
      exact List.mem_append_right _ List.mem_cons_self
  · rcases mem hc' with hc' | rfl
    · exact earlier (h.parentsDrawn c hc' name hname)
    · obtain ⟨q, hq, hqid, -⟩ := parent_of_checked hc hshared hparents references hname
      exact earlier (h.ownDrawn q hq name hqid)
  · -- The new reaction is not the parent: its id has not been drawn before.
    have old (hdrawn : (f, name) ∈ drawn) : p ∈ s.scan (ctx.collection f) := by
      rcases mem hp with hp | rfl
      · exact hp
      · cases prepared.get?_id.symm.trans hid
        exact absurd hdrawn hfresh
    rcases mem hc' with hc' | rfl
    · exact h.together c hc' name hname p (old (h.parentsDrawn c hc' name hname)) hid
    · obtain ⟨q, hq, hqid, same⟩ := parent_of_checked hc hshared hparents references hname
      obtain rfl := h.eq_of_text_id hq (old (h.ownDrawn q hq name hqid)) hqid hid
      exact same

/-- What a new version names as a parent was there when it was checked, and so it is now. -/
theorem parent_of_revision (hw : request.RevisesPlainly) {new : Document}
    (checked : Checked ctx request s f new) (hnew : new.field field ≠ .null) {id : String}
    (hid : new.HasParent f id) : ∃ parent ∈ s.scan (ctx.collection f),
      parent.get? "_id" = some (.text id) ∧ (parent.field field).same (new.field field) = true := by
  obtain ⟨t, since, references⟩ := checked.references
  obtain ⟨first, hfirst, hfid, same⟩ := parent_of_checked hc hshared hparents references hid
  obtain ⟨last, hlast, later⟩ := since _ first hfirst
  have said : first.field field ≠ .null := by
    intro null
    rw [null] at same
    exact hnew (Value.null_same same)
  obtain ⟨sameId, follows⟩ := later.follows hc hw (Family.mem_references_of_shared hshared) said
  exact ⟨last, hlast, sameId.trans hfid, follows.same same⟩

/-- A new version of a reaction is about what the old one is about, and what its parents are about.
    -/
theorem threads_revised (h : Threads ctx.config f field drawn s) (hw : request.RevisesPlainly)
    {payload : Value} {body old new : Document} {now : Instant} {before after : List Document}
    (hr : request.revision? = some payload) (hbody : members payload = .ok body)
    (revised : Revised (ctx.config.policy f) body now old new)
    (checked : Checked ctx request s f new) (hs : s'.Sound)
    (was : s.scan (ctx.collection f) = before ++ old :: after)
    (is : s'.scan (ctx.collection f) = before ++ new :: after) :
    Threads ctx.config f field drawn s' := by
  have hold : old ∈ s.scan (ctx.collection f) := by
    rw [was]
    exact List.mem_append_right _ List.mem_cons_self
  have follows := revised.follows (hw payload hr body (members_eq_ok hbody))
    (by rw [hc.family]; exact Family.mem_references_of_shared hshared) (h.about old hold)
  have mem {d : Document} (hd : d ∈ s'.scan (ctx.collection f)) :
      d = new ∨ d ∈ s.scan (ctx.collection f) := by
    rw [is] at hd
    rw [was]
    exact eq_or_mem_of_replaced hd
  -- Each reaction has been there, and is about what it was about.
  have version {p : Document} (hp : p ∈ s'.scan (ctx.collection f)) :
      ∃ q ∈ s.scan (ctx.collection f), p.get? "_id" = q.get? "_id" ∧
        (q.field field).Follows (p.field field) := by
    rcases mem hp with rfl | hp
    · exact ⟨old, hold, revised.get?_id, follows⟩
    · exact ⟨p, hp, rfl, .inl rfl⟩
  have said : new.field field ≠ .null := follows.ne_null (h.about old hold)
  have parent {name : String} (hname : new.HasParent f name) :=
    parent_of_revision hc hshared hparents hw checked said hname
  obtain ⟨t, -, references⟩ := checked.references
  refine {
    toSound := hs
    parents := fun d hd => ?_
    about := fun d hd => ?_
    ownDrawn := fun d hd name hname => ?_
    parentsDrawn := fun c hc' name hname => ?_
    together := fun c hc' name hname p hp hid => ?_ }
  · rcases mem hd with rfl | hd
    · exact namesParents_of_checks hparents revised.checkShape references
    · exact h.parents d hd
  · rcases mem hd with rfl | hd
    · exact said
    · exact h.about d hd
  · obtain ⟨q, hq, same, -⟩ := version hd
    exact h.ownDrawn q hq name (same.symm.trans hname)
  · rcases mem hc' with rfl | hc'
    · obtain ⟨q, hq, hqid, -⟩ := parent hname
      exact h.ownDrawn q hq name hqid
    · exact h.parentsDrawn c hc' name hname
  · obtain ⟨q, hq, sameId, follows⟩ := version hp
    have hqid := sameId.symm.trans hid
    refine follows.same ?_
    rcases mem hc' with rfl | hc'
    · obtain ⟨q', hq', hqid', same⟩ := parent hname
      obtain rfl := h.eq_of_text_id hq' hq hqid' hqid
      exact same
    · exact h.together c hc' name hname q hq hqid

/-- A step of a request leaves threads, if it makes reactions only with ids that have not been drawn
    before. -/
theorem threads_change (h : Threads ctx.config f field drawn s) (hw : request.RevisesPlainly)
    {more : List (Family × String)} (hmore : drawn ⊆ more)
    (hfresh : ∀ given id, request.Gives ctx f given id → (f, id) ∉ drawn ∧ (f, id) ∈ more)
    (hchange : Change ctx request s s') : Threads ctx.config f field more s' := by
  have sound := hchange.sound h.toSound
  cases hchange.records hc h.toKeyed f with
  | added hg hn is =>
    obtain ⟨fresh, drawn⟩ := hfresh _ _ hg
    refine (threads_added hc hshared hparents h hn fresh sound is).mono ?_
    exact List.append_subset.2 ⟨hmore, List.cons_subset.2 ⟨drawn, List.nil_subset _⟩⟩
  | revised hr hbody revised checked was is =>
    exact (threads_revised hc hshared hparents h hw hr hbody revised checked sound was is).mono
      hmore
  | fewer sub => exact (h.fewer sound sub).mono hmore

end Step

/-! ## Requests -/

theorem WriteRequest.mem_drawn_of_gives {given : Value} {id : String}
    (h : request.Gives ctx f given id) : (f, id) ∈ request.drawn := by
  cases h with
  | create => exact List.mem_cons_self
  | createChild => exact List.mem_cons_self
  | entity => exact List.mem_cons_self
  | relation => exact List.mem_cons_of_mem _ List.mem_cons_self

/-- A request that draws an id for a reaction makes at most one step. -/
theorem perform_of_drawn (hshared : f.sharedWithParents? = some (field, target)) {id : String}
    (hd : (f, id) ∈ request.drawn) (s : Store) :
    ((perform ctx request).run s).2 = s ∨ Change ctx request s ((perform ctx request).run s).2 := by
  cases request with
  | create g payload id' =>
    rw [perform, Write.run_discard]
    exact change_of_create .create s
  | createChild g parentId payload id' =>
    rw [perform, Write.run_discard, createChild, Write.run_bind, Write.run_read]
    split
    · next given s' hread =>
      obtain ⟨hgiven, rfl⟩ := Prod.mk.inj hread
      obtain ⟨⟨⟩, -, hgiven⟩ := bind_eq_ok.1 hgiven
      exact change_of_create (.createChild (lift_eq_ok.1 hgiven)) s
    · next e s' hread =>
      obtain ⟨-, rfl⟩ := Prod.mk.inj hread
      exact .inl rfl
  | createInList listId payload entityId relationId =>
    -- Neither entities nor relations are reactions.
    rw [WriteRequest.drawn, List.mem_cons, List.mem_singleton] at hd
    rcases hd with hd | hd <;> cases hd <;> cases hshared
  | _ => cases hd

/-- A request leaves threads, if its ids have not been drawn before. -/
theorem threads_perform (hc : ctx.config.Separate)
    (hshared : f.sharedWithParents? = some (field, target))
    (hparents : LookupConstraint.sameFamily f ∈ (ctx.config.policy f).constraints)
    (h : Threads ctx.config f field drawn s) (hw : request.RevisesPlainly)
    (hfresh : ∀ p ∈ request.drawn, p ∉ drawn) :
    Threads ctx.config f field (drawn ++ request.drawn) ((perform ctx request).run s).2 := by
  have more : drawn ⊆ drawn ++ request.drawn := List.subset_append_left _ _
  by_cases hmakes : ∃ id, (f, id) ∈ request.drawn
  · obtain ⟨id, hid⟩ := hmakes
    rcases perform_of_drawn hshared hid s with unchanged | hchange
    · rw [unchanged]
      exact h.mono more
    · refine threads_change hc hshared hparents h hw more (fun given id hg => ?_) hchange
      have drawn := WriteRequest.mem_drawn_of_gives hg
      exact ⟨hfresh _ drawn, List.mem_append_right _ drawn⟩
  · refine Threads.mono ?_ more
    refine keeps_perform (P := Threads ctx.config f field drawn) (fun s s' hs hchange => ?_)
      (fun _ hs => hs.toKeyed) s h
    refine threads_change hc hshared hparents hs hw (List.Subset.refl _) (fun given id hg => ?_)
      hchange
    exact absurd ⟨id, WriteRequest.mem_drawn_of_gives hg⟩ hmakes

/-! ## Runs -/

/-- Payloads that an event writes to stored records are objects as they are written. -/
def Event.RevisesPlainly (e : Event) : Prop :=
  ∀ request, e.operation = .write request → request.RevisesPlainly

/-- After every run in which no id is drawn twice there are threads. -/
theorem threads_afterAll (hc : config.Separate)
    (hshared : f.sharedWithParents? = some (field, target))
    (hparents : LookupConstraint.sameFamily f ∈ (config.policy f).constraints)
    {events : List Event} (hconfig : ∀ e ∈ events, e.ctx.config = config)
    (hplain : ∀ e ∈ events, e.RevisesPlainly) (hfresh : (events.flatMap Event.drawn).Nodup) :
    Threads config f field (events.flatMap Event.drawn) (afterAll events {}) := by
  induction events using List.reverseRecOn with
  | nil => exact .empty config f field
  | append_singleton events e ih =>
    rw [List.forall_mem_append, List.forall_mem_singleton] at hconfig hplain
    rw [List.flatMap_append, List.nodup_append] at hfresh
    obtain ⟨fresh, -, apart⟩ := hfresh
    have before := ih hconfig.1 hplain.1 fresh
    rw [List.flatMap_append, afterAll_append]
    obtain ⟨ctx, read | request⟩ := e
    · exact before.mono (List.subset_append_left _ _)
    · obtain rfl : ctx.config = config := hconfig.2
      have undrawn : ∀ p ∈ request.drawn, p ∉ events.flatMap Event.drawn := by
        intro p hp hb
        exact apart p hb p (List.mem_append_left _ hp) rfl
      have after := threads_perform hc hshared hparents before (hplain.2 request rfl) undrawn
      rwa [← List.append_nil request.drawn] at after

/-- After every run from the empty store in which no id is drawn twice, each stored record that a
    reaction has among its parents is of the same family, and about the same record as it. -/
theorem threads_share_target (hc : config.Separate)
    (hshared : f.sharedWithParents? = some (field, target))
    (hparents : LookupConstraint.sameFamily f ∈ (config.policy f).constraints)
    {events : List Event} (hconfig : ∀ e ∈ events, e.ctx.config = config)
    (hplain : ∀ e ∈ events, e.RevisesPlainly) (hfresh : (events.flatMap Event.drawn).Nodup) :
    let s := afterAll events {}
    ∀ c ∈ s.scan (config.policy f).collection, ∀ t, c.NamesParent t →
      ∀ r, Reference.read? t = some r →
        ∀ p ∈ s.scan (config.policy r.family).collection, p.get? "_id" = some (.text r.id) →
          r.family = f ∧ (p.field field).same (c.field field) = true := by
  intro s c hc' t ht r hr p hp hid
  have threads := threads_afterAll hc hshared hparents hconfig hplain hfresh
  obtain ⟨id, padding, hread, -⟩ := (threads.parents c hc').spelled ht
  cases hr.symm.trans hread
  exact ⟨rfl, threads.together c hc' id ⟨t, ht, hr⟩ p hp hid⟩

/-- A reaction with an answer that is updated to be one to another reaction as well. Requests for an
    answer to it that is about another entity, and to let it be about this one, are refused. -/
def answeredReaction : List WriteRequest := [
  .create .entities (.object [("_name", .text "E")]) "e",
  .create .entities (.object [("_name", .text "F")]) "f",
  .create .entityReactions (.object [("_entityId", .text "e")]) "p",
  .createChild .entityReactions "p" (.object [("_entityId", .text "e")]) "c",
  .createChild .entityReactions "p" (.object [("_entityId", .text "f")]) "d",
  .update .entityReactions "p" (.object [("_entityId", .text "f")]),
  .create .entityReactions (.object [("_entityId", .text "e")]) "q",
  .updateAll .entityReactions (.object [("_parents",
    .array [.text "tapp://localhost/entity-reactions/p",
      .text "tapp://localhost/entity-reactions/q"])])
    (.object [("where", .object [("_parents", .text "tapp://localhost/entity-reactions/p")])]),
  .replace .entityReactions "q" (.object [("_entityId", .text "e")])]

/-- The three reactions are about one entity. -/
theorem threads_share_target_answeredReaction :
    let events := answeredReaction.map fun request => Event.mk openContext (.write request)
    let s := afterAll events {}
    openContext.config.Separate ∧
      LookupConstraint.sameFamily .entityReactions ∈
        (openContext.config.policy .entityReactions).constraints ∧
      (∀ e ∈ events, e.ctx.config = openContext.config) ∧ (∀ e ∈ events, e.RevisesPlainly) ∧
      (events.flatMap Event.drawn).Nodup ∧
      (s.scan "EntityReaction").map (fun d =>
        ((d.field "_id").display, (d.field "_parents").display)) =
          [("p", "[]"),
            ("c", "['tapp://localhost/entity-reactions/p', " ++
              "'tapp://localhost/entity-reactions/q']"),
            ("q", "[]")] ∧
      ∀ c ∈ s.scan "EntityReaction", ∀ t, c.NamesParent t → ∀ r, Reference.read? t = some r →
        ∀ p ∈ s.scan (openContext.collection r.family), p.get? "_id" = some (.text r.id) →
          r.family = .entityReactions ∧
            (p.field "_entityId").same (c.field "_entityId") = true := by
  intro events s
  have distinct (body : Document) (h : body.Distinct) : HasDistinctKeys (.object body) :=
    fun _ hb => by cases hb; exact h
  have plain : ∀ request ∈ answeredReaction, request.RevisesPlainly := by
    have revises {request : WriteRequest} {body : Document}
        (h : request.revision? = some (.object body)) (hd : body.Distinct) :
        request.RevisesPlainly := by
      intro payload hr
      cases h.symm.trans hr
      exact distinct body hd
    have makes {request : WriteRequest} (h : request.revision? = none) :
        request.RevisesPlainly := by
      intro payload hr
      cases h.symm.trans hr
    simp only [answeredReaction, List.forall_mem_cons]
    exact ⟨makes rfl, makes rfl, makes rfl, makes rfl, makes rfl, revises rfl (by decide),
      makes rfl, revises rfl (by decide), revises rfl (by decide), List.forall_mem_nil _⟩
  have config : ∀ e ∈ events, e.ctx.config = openContext.config :=
    List.forall_mem_map.2 fun _ _ => rfl
  have plainly : ∀ e ∈ events, e.RevisesPlainly := by
    refine List.forall_mem_map.2 fun request hmem request' h => ?_
    cases h
    exact plain request hmem
  have fresh : (events.flatMap Event.drawn).Nodup := by decide
  have constraint : LookupConstraint.sameFamily .entityReactions ∈
      (openContext.config.policy .entityReactions).constraints := List.mem_cons_self
  exact ⟨separate_openContext, constraint, config, plainly, fresh, by decide +kernel,
    threads_share_target separate_openContext rfl constraint config plainly fresh⟩

end Service

end Catalog
