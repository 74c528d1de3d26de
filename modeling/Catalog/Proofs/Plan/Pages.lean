import Catalog.Proofs.Plan.Included

/-!
# The pages of a listing

A plan selects records, joins them with what they relate, sorts them, cuts them to a page, and then
shows what is left: it keeps the fields to show, looks up and includes. Showing a page is showing
each of its records (`runStages_showing`), so what a listing shows of a record does not depend on
the page that the record is on.

This is so as long as includes can tell the ids of the records apart. What is shown of a record has
no other key for an id than the record (`Document.KeepsId`), hence it is enough that the ids of the
records are apart.
-/

namespace Catalog

variable {ctx : Context} {store : Store} {f : Family} {g : Filter}

/-! ## What is left of an id -/

namespace Document

/-- A document has no key as its id that another one does not have. -/
def KeepsId (d d' : Document) : Prop := ∀ v, ("_id", v) ∈ d' → v.isKey = true → ("_id", v) ∈ d

theorem KeepsId.refl (d : Document) : d.KeepsId d := fun _ h _ => h

theorem KeepsId.trans {d d' d'' : Document} (h : d.KeepsId d') (h' : d'.KeepsId d'') :
    d.KeepsId d'' :=
  fun v hv hkey => h v (h' v hv hkey) hkey

/-- Writing a value that is no key, or under another key than the id. -/
theorem KeepsId.put {d d' : Document} (h : d.KeepsId d') {key : String} {w : Value}
    (hw : key = "_id" → w.isKey = true → ("_id", w) ∈ d) : d.KeepsId (d'.put key w) := by
  intro v hv hkey
  rcases mem_of_mem_put hv with ⟨hk, rfl⟩ | hv
  · exact hw hk.symm hkey
  · exact h v hv hkey

/-- Only a path of one step writes what it is given as an id. -/
theorem KeepsId.putSteps {d d' : Document} (h : d.KeepsId d') {steps : List String} {w : Value}
    (hw : steps = ["_id"] → w.isKey = true → ("_id", w) ∈ d) :
    d.KeepsId (d'.putSteps w steps) := by
  rcases steps with _ | ⟨step, _ | ⟨next, steps⟩⟩
  · exact h
  · exact h.put fun hstep => hw (by rw [hstep])
  · exact h.put fun _ hkey => by cases hkey

theorem KeepsId.eraseSteps {d d' : Document} (h : d.KeepsId d') (steps : List String) :
    d.KeepsId (d'.eraseSteps steps) := by
  rcases steps with _ | ⟨step, _ | ⟨next, steps⟩⟩
  · exact h
  · exact fun v hv => h v (List.mem_filter.1 hv).1
  · rw [Document.eraseSteps]
    · split
      · exact h.put fun _ hkey => by cases hkey
      · exact h
    · exact List.cons_ne_nil next steps

/-- What stands at a path of one step is what the key has. -/
theorem path?_of_steps {doc : Document} {path key : String} (h : pathSteps path = [key]) :
    doc.path? path = doc.get? key := by
  rw [path?, Value.path?, h, Value.resolve, Value.resolveMember_eq]
  cases doc.get? key with
  | none => rfl
  | some v => cases v <;> rfl

end Document

/-- Keeping a field keeps no other id. -/
theorem Projecting.keepsId_keep {d : Document} {p : Projecting} (hshown : d.KeepsId p.shown)
    (hsource : d.KeepsId p.source) (name : String) :
    d.KeepsId (p.keep name).shown ∧ d.KeepsId (p.keep name).source := by
  rw [keep]
  cases hv : p.source.path? name with
  | none => exact ⟨hshown, hsource⟩
  | some v =>
    have own : pathSteps name = ["_id"] → v.isKey = true → ("_id", v) ∈ d := by
      intro hsteps hkey
      rw [Document.path?_of_steps hsteps] at hv
      exact hsource v (Document.mem_of_get? hv) hkey
    refine ⟨hshown.putSteps own, ?_⟩
    dsimp only
    split
    · exact hsource.putSteps own
    · exact hsource

/-- What is shown of a document has no other id. -/
theorem Projection.keepsId_apply (doc : Document) (p : Projection) :
    doc.KeepsId (p.apply doc) := by
  cases p with
  | drop names =>
    have dropped (d : Document) (h : doc.KeepsId d) :
        doc.KeepsId (names.foldl (fun d name => d.erasePath name) d) := by
      induction names generalizing d with
      | nil => exact h
      | cons name names ih => exact ih _ (h.eraseSteps _)
    exact dropped doc (.refl doc)
  | keep names =>
    have kept (p : Projecting) (hshown : doc.KeepsId p.shown) (hsource : doc.KeepsId p.source) :
        doc.KeepsId (names.foldl Projecting.keep p).shown := by
      induction names generalizing p with
      | nil => exact hshown
      | cons name names ih =>
        obtain ⟨hshown, hsource⟩ := Projecting.keepsId_keep hshown hsource name
        exact ih _ hshown hsource
    rw [apply]
    cases hid : doc.get? "_id" with
    | none => exact kept _ (fun _ h => by cases h) (.refl doc)
    | some id =>
      refine kept _ (fun v hv _ => ?_) (.refl doc)
      cases List.mem_singleton.1 hv
      exact Document.mem_of_get? hid

theorem Filter.keepsId_shown (g : Filter) (doc : Document) : doc.KeepsId (g.shown doc) := by
  rw [shown]
  split
  · exact Projection.keepsId_apply doc _
  · exact .refl doc

/-- A value that is changed in its slots is an array or an object, or the same as before. -/
theorem Value.eq_of_changeSlots {new : Value → Outcome (Option Value)} {v v' : Value}
    {steps : List String} (h : v.changeSlots new steps = .ok v') (hkey : v'.isKey = true) :
    v' = v := by
  cases v with
  | array items =>
    obtain ⟨items', -, h⟩ := bind_eq_ok.1 (h : changeSlotsOfItems new items steps >>= _ = .ok v')
    cases h
    cases hkey
  | object members =>
    cases steps with
    | nil =>
      cases h
      rfl
    | cons step steps =>
      obtain ⟨members', -, h⟩ := bind_eq_ok.1
        (h : changeSlotsOfMember new members step steps >>= _ = .ok v')
      cases h
      cases hkey
  | _ =>
    cases h
    rfl

/-- Where slots are given no keys, no id comes in. -/
theorem Document.keepsId_changeSlots {new : Value → Outcome (Option Value)} {path : String}
    {doc doc' : Document} (hnew : ∀ v w, new v = .ok (some w) → w.isKey = false)
    (h : doc.changeSlots new path = .ok doc') : doc.KeepsId doc' := by
  rcases changeSlots_cases h with rfl | ⟨step, steps, before, v, after, changed, -, rfl, rfl, made⟩
  · exact .refl _
  · intro u hu hkey
    rw [List.mem_append, List.mem_append] at hu
    rcases hu with (other | own) | other
    · exact List.mem_append_left _ other
    · obtain ⟨w, rfl, same⟩ := Option.map_eq_some_iff.1 (Option.mem_toList.1 own)
      cases same
      rcases made with made | ⟨w, inner, same⟩
      · exact absurd hkey (Bool.not_eq_true _ ▸ hnew v u made)
      · cases same
        exact Value.eq_of_changeSlots inner hkey ▸ List.mem_append_right _ List.mem_cons_self
    · exact List.mem_append_right _ (List.mem_cons_of_mem _ other)

/-- A slot shows records, which are no keys. -/
theorem isKey_resolvedSlot {within : Document → Outcome Document} {scope : Filter} {v w : Value}
    (h : resolvedSlot ctx store within scope v = .ok (some w)) : w.isKey = false := by
  obtain ⟨found, -, h⟩ := bind_eq_ok.1 h
  obtain ⟨docs, -, h⟩ := bind_eq_ok.1 h
  have h : slotValue v docs = some w := Except.ok.inj h
  cases v with
  | array items =>
    cases h
    rfl
  | _ =>
    obtain ⟨d, -, rfl⟩ := Option.map_eq_some_iff.1 h
    rfl

theorem keepsId_lookedUp {ls : List (Scoped Filter)} {doc doc' : Document}
    (h : lookedUp ctx store ls doc = .ok doc') : doc.KeepsId doc' := by
  induction ls generalizing doc with
  | nil =>
    cases h
    exact .refl _
  | cons l ls ih =>
    rw [lookedUp] at h
    obtain ⟨doc₁, h₁, h⟩ := bind_eq_ok.1 h
    rw [lookedUpOne] at h₁
    exact (Document.keepsId_changeSlots (fun _ _ => isKey_resolvedSlot) h₁).trans (ih h)

/-- Documents without repeated keys are told apart by their ids if those are that they are made
    of. -/
theorem IdsApart.of_keepsId {page page' : List Document} (h : IdsApart page)
    (hd : ∀ d ∈ page, d.Distinct)
    (hpage : ∀ d' ∈ page', ∃ d ∈ page, d.KeepsId d') : IdsApart page' := by
  have old {d' : Document} (hd' : d' ∈ page') {v : Value} (hv : d'.get? "_id" = some v)
      (hkey : v.isKey = true) : ∃ d ∈ page, d.get? "_id" = some v := by
    obtain ⟨d, hmem, hkeeps⟩ := hpage d' hd'
    exact ⟨d, hmem, (hd d hmem).get?_of_mem (hkeeps v (Document.mem_of_get? hv) hkey)⟩
  refine ⟨fun d' hd' t ht => ?_, fun d' hd' e' he' v w hv hw hsame => ?_⟩
  · obtain ⟨d, hmem, hid⟩ := old hd' ht rfl
    exact h.plain d hmem t hid
  · -- What is the same as a key is one, and of other values none is a truth value.
    by_cases hkeys : v.isKey = true ∧ w.isKey = true
    · obtain ⟨d, hmem, hid⟩ := old hd' hv hkeys.1
      obtain ⟨e, hmem', hid'⟩ := old he' hw hkeys.2
      exact h.kinds d hmem e hmem' v w hid hid' hsame
    · cases v <;> cases w <;> first | rfl | cases hsame | exact absurd ⟨rfl, rfl⟩ hkeys

/-! ## What is shown of a page -/

/-- What a filter lists of a record that it selects. -/
def Filter.listed (ctx : Context) (store : Store) (f : Family) (g : Filter) (doc : Document) :
    Outcome Document := do
  included ctx store f g.includes (← lookedUp ctx store g.lookups (g.shown doc))

/-- The stages after the page. -/
def Filter.showing (f : Family) (g : Filter) : List Stage :=
  (g.fields.map Stage.project).toList ++
    (if g.lookups.isEmpty then [] else [.lookup g.lookups]) ++
    (if g.includes.isEmpty then [] else [.includes f g.includes])

/-- The stages for the page. -/
def Filter.paging (g : Filter) : List Stage :=
  (if g.order.isEmpty then [] else [.sort g.order]) ++
    (if g.skip == 0 then [] else [.skip g.skip]) ++ (g.limit.map Stage.limit).toList

/-- Stages that show keep fields, look up or include. -/
theorem forall_mem_showing {P : Stage → Prop} (hproject : ∀ p, P (.project p))
    (hlookup : ∀ ls, P (.lookup ls)) (hincludes : ∀ is, P (.includes f is)) :
    ∀ stage ∈ g.showing f, P stage := by
  rw [Filter.showing, List.forall_mem_append, List.forall_mem_append]
  refine ⟨⟨?_, ?_⟩, ?_⟩
  · cases g.fields with
    | none => exact List.forall_mem_nil _
    | some p => exact List.forall_mem_singleton.2 (hproject p)
  · split
    · exact List.forall_mem_nil _
    · exact List.forall_mem_singleton.2 (hlookup _)
  · split
    · exact List.forall_mem_nil _
    · exact List.forall_mem_singleton.2 (hincludes _)

/-- Stages for the page sort, skip or limit. -/
theorem forall_mem_paging {P : Stage → Prop} (hsort : ∀ keys, P (.sort keys))
    (hskip : ∀ n, P (.skip n)) (hlimit : ∀ n, P (.limit n)) : ∀ stage ∈ g.paging, P stage := by
  rw [Filter.paging, List.forall_mem_append, List.forall_mem_append]
  refine ⟨⟨?_, ?_⟩, ?_⟩
  · split
    · exact List.forall_mem_nil _
    · exact List.forall_mem_singleton.2 (hsort _)
  · split
    · exact List.forall_mem_nil _
    · exact List.forall_mem_singleton.2 (hskip _)
  · cases g.limit with
    | none => exact List.forall_mem_nil _
    | some n => exact List.forall_mem_singleton.2 (hlimit n)

theorem tailStages_eq_ok {tail : List Stage} :
    tailStages f g = .ok tail ↔
      checkIncludes f g.includes = .ok () ∧ tail = g.paging ++ g.showing f := by
  have stages : (tailStages f g : Outcome _) = checkIncludes f g.includes >>= fun _ =>
      .ok (g.paging ++ g.showing f) := by
    rw [Filter.paging, Filter.showing, ← List.append_assoc, ← List.append_assoc]
    rfl
  rw [stages, bind_eq_ok]
  constructor
  · rintro ⟨_, h, heq⟩
    exact ⟨h, (Except.ok.inj heq).symm⟩
  · rintro ⟨h, rfl⟩
    exact ⟨(), h, rfl⟩

/-- The stages for the page cut it out of what they are given. -/
theorem runStages_paging (ctx : Context) (store : Store) (g : Filter) (docs : List Document) :
    runStages ctx store docs g.paging = .ok (g.page id docs) := by
  rw [Filter.paging, runStages_append, runStages_append]
  have sorted : runStages ctx store docs (if g.order.isEmpty then [] else [.sort g.order]) =
      .ok (sortOn id g.order docs) := by
    cases g.order with
    | nil => rfl
    | cons key keys => rfl
  have skipped (docs : List Document) :
      runStages ctx store docs (if g.skip == 0 then [] else [.skip g.skip]) =
        .ok (docs.drop g.skip) := by
    cases g.skip with
    | zero => rfl
    | succ n => rfl
  rw [sorted, ok_bind, skipped, ok_bind, Filter.page]
  cases g.limit with
  | none => rfl
  | some n => rfl

/-- What is shown of a page, looked up and included. -/
theorem runStages_showing_eq (ctx : Context) (store : Store) (f : Family) (g : Filter)
    (docs : List Document) :
    runStages ctx store docs (g.showing f) =
      lookupAll ctx store g.lookups (docs.map g.shown) >>= includeAll ctx store f g.includes := by
  rw [Filter.showing, runStages_append, runStages_append]
  have shown : runStages ctx store docs (g.fields.map Stage.project).toList =
      .ok (docs.map g.shown) := by
    cases hfields : g.fields with
    | none =>
      have same : docs.map g.shown = docs := by
        refine (List.map_congr_left fun d _ => ?_).trans docs.map_id
        rw [Filter.shown, hfields]
        rfl
      rw [same]
      rfl
    | some p =>
      have applied : docs.map g.shown = docs.map p.apply :=
        List.map_congr_left fun d _ => by rw [Filter.shown, hfields]
      rw [applied]
      rfl
  have looked (docs : List Document) :
      runStages ctx store docs (if g.lookups.isEmpty then [] else [.lookup g.lookups]) =
        lookupAll ctx store g.lookups docs := by
    cases g.lookups with
    | nil => rfl
    | cons l ls => exact bind_pure _
  have included (docs : List Document) :
      runStages ctx store docs (if g.includes.isEmpty then [] else [.includes f g.includes]) =
        includeAll ctx store f g.includes docs := by
    cases g.includes with
    | nil => rfl
    | cons i is => exact bind_pure _
  rw [shown, ok_bind, looked]
  exact bind_congr fun docs => included docs

theorem length_attach (name : String) (groups : List (List Document)) (docs : List Document) :
    (attach name groups docs).length = docs.length := by
  induction docs generalizing groups with
  | nil => cases groups <;> rfl
  | cons doc docs ih =>
    cases groups with
    | nil => rfl
    | cons group groups =>
      rw [attach]
      split <;> exact congrArg (· + 1) (ih _)

theorem length_includeAll {is : List (Scoped Filter)} {page out : List Document}
    (h : includeAll ctx store f is page = .ok out) : out.length = page.length := by
  induction is generalizing page with
  | nil =>
    cases h
    rfl
  | cons i is ih =>
    rw [includeAll] at h
    split at h
    · obtain ⟨page', hpage, h⟩ := bind_eq_ok.1 h
      rw [includeOne, includeWith] at hpage
      obtain ⟨⟨target, groups⟩, -, hpage⟩ := bind_eq_ok.1 hpage
      obtain ⟨resolved, -, hpage⟩ := bind_eq_ok.1 hpage
      cases hpage
      exact (ih h).trans (length_attach _ _ _)
    · cases h
      rfl

/-- As many records are shown as there are on the page. -/
theorem length_runStages_showing (hk : store.Keyed) {docs out : List Document}
    (h : runStages ctx store docs (g.showing f) = .ok out) : out.length = docs.length := by
  rw [runStages_showing_eq] at h
  obtain ⟨page, hpage, h⟩ := bind_eq_ok.1 h
  rw [length_includeAll h,
    SameResult.length_of_mapM ((lookupAll_eq_mapM hk g.lookups _ page).1 hpage), List.length_map]

/-- Showing a page is showing each of its records. -/
theorem runStages_showing (hk : store.Keyed) {docs : List Document}
    (hids : g.includes ≠ [] → IdsApart docs ∧ ∀ d ∈ docs, d.Distinct) :
    SameResult (runStages ctx store docs (g.showing f)) (docs.mapM (g.listed ctx store f)) := by
  have shown : (docs.map g.shown).mapM (lookedUp ctx store g.lookups) =
      docs.mapM fun d => lookedUp ctx store g.lookups (g.shown d) := List.mapM_map ..
  rw [runStages_showing_eq]
  refine .trans ?_ (SameResult.mapM_bind _ _ docs).symm
  rw [← shown]
  refine (lookupAll_eq_mapM hk g.lookups _).bind fun page hpage => ?_
  have hpage := (lookupAll_eq_mapM hk g.lookups _ page).1 hpage
  by_cases hnone : g.includes = []
  · rw [hnone]
    have kept : page.mapM (included ctx store f []) = .ok (page.map id) :=
      SameResult.mapM_of_forall fun _ _ => rfl
    rw [List.map_id] at kept
    exact .of_eq kept.symm
  · obtain ⟨hapart, hdistinct⟩ := hids hnone
    refine includeAll_eq_mapM hk g.includes (hapart.of_keepsId hdistinct fun d' hd' => ?_)
    obtain ⟨d, hd, hfound⟩ := mem_of_mapM hpage hd'
    obtain ⟨e, he, rfl⟩ := List.mem_map.1 hd
    exact ⟨e, he, (g.keepsId_shown e).trans (keepsId_lookedUp hfound)⟩

end Catalog
