import Catalog.Proofs.Service.WellKept

/-!
# What one request makes of a family

The records of a family after a request, told by those before it (`RecordsStep`): a request that
removes records may leave some out; the ones that the request selects for a change are in their
places as new versions, if it succeeds; all others are as they were; and new records stand at the
end, with ids that were drawn for them.

This holds of requests that fail, too: those leave all records as they were. Of most requests this
is so because the store is changed last and at once. Of an entity in a list it is so because the
entity is removed again, or stays as a new record. And a bulk update, which writes one record after
the other, either fails at the first one or not at all, since either all new versions can be written
or none (`writable_update`).
-/

namespace Catalog.Service

variable {ctx : Context} {s s' : Store} {f g : Family} {request : WriteRequest} {id : String}

/-! ## Requests -/

namespace WriteRequest

/-- The ids that a request draws for new records, with their families. -/
def drawn : WriteRequest → List (Family × String)
  | .create f _ id => [(f, id)]
  | .createChild f _ _ id => [(f, id)]
  | .createInList _ _ entityId relationId => [(.entities, entityId), (.relations, relationId)]
  | _ => []

/-- Whether a request is there to remove records. -/
def isRemoval : WriteRequest → Bool
  | .delete _ _ => true
  | .deleteListEntities _ _ => true
  | _ => false

/-- The family of the stored records that a request is there to change. -/
def revisedFamily? : WriteRequest → Option Family
  | .replace f _ _ => some f
  | .update f _ _ => some f
  | .updateAll f _ _ => some f
  | .updateListEntities _ _ _ => some .entities
  | _ => none

/-- The stored records that a request selects to change them. -/
def selects (ctx : Context) (s : Store) : WriteRequest → Outcome (List Document)
  | .replace f id _ => do return [← stored ctx s f id]
  | .update f id _ => do return [← stored ctx s f id]
  | .updateAll f _ query => selected ctx s f query .always "where" "set"
  | .updateListEntities listId _ query => do
    match ← entityIdsIn ctx s listId query with
    | [] => return []
    | ids => selected ctx s .entities query (.compare "_id" .inq (.array ids)) "where" "set"
  | _ => return []

/-- Whether a request is answered without a failure. -/
def succeeds (ctx : Context) (s : Store) (request : WriteRequest) : Bool :=
  ((perform ctx request).run s).1.isOk

/-- Whether a request succeeds and selects the record of a family with an id to change it. -/
def revises (ctx : Context) (s : Store) (f : Family) (id : String) (request : WriteRequest) :
    Bool :=
  request.succeeds ctx s && request.revisedFamily? == some f &&
    match request.selects ctx s with
    | .ok docs => docs.any (Document.idAmong [id])
    | .error _ => false

/-- Whether a request succeeds in removing records. -/
def removes (ctx : Context) (s : Store) (request : WriteRequest) : Bool :=
  request.isRemoval && request.succeeds ctx s

/-- A request that removes records draws no ids. -/
theorem removes_of_drawn (h : (f, id) ∈ request.drawn) : request.removes ctx s = false := by
  cases request <;> first | rfl | cases h

theorem revises_of_fails (h : request.succeeds ctx s = false) (f : Family) (id : String) :
    request.revises ctx s f id = false := by
  rw [revises, h]
  rfl

theorem revises_of_ne (h : request.revisedFamily? ≠ some f) (id : String) :
    request.revises ctx s f id = false := by
  rw [revises, beq_false_of_ne h, Bool.and_false]
  rfl

/-- What a request selects to change it is stored. -/
theorem mem_scan_of_selects {docs : List Document} (h : request.selects ctx s = .ok docs)
    (hf : request.revisedFamily? = some f) {d : Document} (hd : d ∈ docs) :
    d ∈ s.scan (ctx.collection f) := by
  have one {id : String} (h : (do return [← stored ctx s f id]) = Except.ok docs) :
      d ∈ s.scan (ctx.collection f) := by
    obtain ⟨doc, hdoc, h⟩ := bind_eq_ok.1 h
    cases h
    obtain rfl := List.mem_singleton.1 hd
    exact mem_scan_of_stored hdoc
  have several {query : Value} {extra : Condition}
      (h : selected ctx s f query extra "where" "set" = .ok docs) :
      d ∈ s.scan (ctx.collection f) := by
    obtain ⟨c, hc⟩ := selected_eq_ok h
    exact (of_mem_selection hc hd).1
  cases request with
  | replace g id payload =>
    cases hf
    exact one h
  | update g id payload =>
    cases hf
    exact one h
  | updateAll g payload query =>
    cases hf
    exact several h
  | updateListEntities listId payload query =>
    cases hf
    obtain ⟨ids, -, h⟩ := bind_eq_ok.1 h
    cases ids with
    | nil =>
      cases h
      cases hd
    | cons id ids => exact several h
  | _ => cases hf

/-- What a request changes is stored. -/
theorem exists_of_revises (h : request.revises ctx s f id = true) :
    ∃ d ∈ s.scan (ctx.collection f), d.id? = .ok id := by
  rw [revises, Bool.and_eq_true, Bool.and_eq_true, beq_iff_eq] at h
  obtain ⟨⟨-, hf⟩, h⟩ := h
  split at h
  · next docs hdocs =>
    obtain ⟨d, hd, hid⟩ := List.any_eq_true.1 h
    exact ⟨d, mem_scan_of_selects hdocs hf hd, Document.idAmong_singleton.1 hid⟩
  · cases h

end WriteRequest

/-- What becomes of some records when those with some ids are revised, some may be removed, and some
    are made with ids that were drawn for them. -/
inductive Become (p : Policy) (revises : String → Bool) (removes : Bool) (drawn : String → Prop)
    (docs docs' : List Document) : Prop where
  | intro (kept : Document → Bool) (next : Document → Document) (added : List Document)
      (eq : docs' = (docs.filter kept).map next ++ added)
      (all : removes = false → ∀ d ∈ docs, kept d = true)
      (revised : ∀ d ∈ docs, ∀ id, d.id? = .ok id → revises id = true →
        ∃ body now, Document.Distinct body ∧ Revised p body now d (next d))
      (same : ∀ d ∈ docs, ∀ id, d.id? = .ok id → revises id = false → next d = d)
      (new : ∀ d ∈ added, ∃ id body requester now, drawn id ∧
        Record.create p body requester now id = .ok d) :
      Become p revises removes drawn docs docs'

/-- What a request makes of the records of a family. -/
abbrev RecordsStep (ctx : Context) (request : WriteRequest) (f : Family) (s : Store)
    (docs : List Document) : Prop :=
  Become (ctx.config.policy f) (fun id => request.revises ctx s f id) (request.removes ctx s)
    (fun id => (f, id) ∈ request.drawn) (s.scan (ctx.collection f)) docs

/-! ## New records -/

/-- A request adds records to a family, with ids that were drawn for them. -/
def Adds (ctx : Context) (request : WriteRequest) (f : Family) (s s' : Store) : Prop :=
  ∃ added, s'.scan (ctx.collection f) = s.scan (ctx.collection f) ++ added ∧
    ∀ d ∈ added, ∃ id body requester now, (f, id) ∈ request.drawn ∧
      Record.create (ctx.config.policy f) body requester now id = .ok d

theorem Adds.refl (ctx : Context) (request : WriteRequest) (f : Family) (s : Store) :
    Adds ctx request f s s :=
  ⟨[], (List.append_nil _).symm, List.forall_mem_nil _⟩

theorem Adds.trans {t : Store} (h : Adds ctx request f s t) (h' : Adds ctx request f t s') :
    Adds ctx request f s s' := by
  obtain ⟨added, is, new⟩ := h
  obtain ⟨added', is', new'⟩ := h'
  refine ⟨added ++ added', by rw [is', is, List.append_assoc], ?_⟩
  rw [List.forall_mem_append]
  exact ⟨new, new'⟩

/-- Where a request changes no record of a family, it at most adds some. -/
theorem Adds.recordsStep (h : Adds ctx request f s s')
    (hr : ∀ id, request.revises ctx s f id = false) :
    RecordsStep ctx request f s (s'.scan (ctx.collection f)) := by
  obtain ⟨added, is, new⟩ := h
  refine .intro (fun _ => true) id added ?_ (fun _ _ _ => rfl) (fun d _ id _ hid => ?_)
    (fun _ _ _ _ _ => rfl) new
  · rw [is, List.map_id, List.filter_eq_self.2 fun _ _ => rfl]
  · rw [hr id] at hid
    cases hid

/-- A record is made or not. -/
theorem adds_create (hc : ctx.config.Separate) (given : Value) {id : String}
    (hd : (g, id) ∈ request.drawn) (f : Family) (s : Store) :
    Adds ctx request f s ((create ctx g given id).run s).2 := by
  rcases run_create_cases ctx g given id s with
    ⟨e, -, hrun⟩ | ⟨doc, hn, ⟨e, -, hrun⟩ | ⟨s', hi, hrun⟩⟩
  · rw [hrun]
    exact .refl ctx request f s
  · rw [hrun]
    exact .refl ctx request f s
  · rw [hrun]
    obtain ⟨prepared, -⟩ := newRecord_eq_ok hn
    obtain ⟨body, now, -, -, made⟩ := prepared.made
    refine ⟨_, Store.scan_insert (Document.id?_of_text prepared.get?_id) hi _, fun d hd' => ?_⟩
    split at hd'
    · next hcollection =>
      obtain rfl := hc.collections g f hcollection
      rw [List.mem_singleton.1 hd']
      exact ⟨id, body, ctx.requester, now, hd, made⟩
    · cases hd'

/-- An entity is made or not, and if it is, its relation is made or not. -/
theorem adds_createInList (hc : ctx.config.Separate) {listId entityId relationId : String}
    {payload : Value} (hrequest : request = .createInList listId payload entityId relationId)
    (f : Family) (s : Store) :
    Adds ctx request f s ((createInList ctx listId payload entityId relationId).run s).2 := by
  subst hrequest
  have drawn : ∀ d ∈ [(Family.entities, entityId), (Family.relations, relationId)],
      d ∈ (WriteRequest.createInList listId payload entityId relationId).drawn := fun _ h => h
  rw [List.forall_mem_cons, List.forall_mem_singleton] at drawn
  have entityMade := adds_create hc payload drawn.1 f s
  rcases run_createInList_cases ctx listId payload entityId relationId s with
    ⟨e, hrun⟩ | ⟨entity, s₁, he, ⟨b, hrun⟩ | ⟨relation, s₂, hr, hrun⟩⟩
  · rw [hrun]
    exact .refl ctx _ f s
  · rw [he] at entityMade
    rw [hrun]
    exact entityMade
  · rw [he] at entityMade
    have relationMade := adds_create hc
      (.object [("_listId", .text listId), ("_entityId", .text entityId)]) drawn.2 f s₁
    rw [hr] at relationMade
    rw [hrun]
    exact entityMade.trans relationMade

/-! ## Removal -/

/-- A request that succeeds in removing records leaves some of a family out. -/
theorem recordsStep_removed (hr : request.removes ctx s = true) {kept : Document → Bool}
    (hs : s'.scan (ctx.collection f) = (s.scan (ctx.collection f)).filter kept) :
    RecordsStep ctx request f s (s'.scan (ctx.collection f)) := by
  have none (id : String) : request.revises ctx s f id = false := by
    refine WriteRequest.revises_of_ne (fun h => ?_) id
    cases request <;> first | cases hr | cases h
  refine .intro kept id [] ?_ (fun h => ?_) (fun d _ id _ hid => ?_) (fun _ _ _ _ _ => rfl)
    (List.forall_mem_nil _)
  · rw [hs, List.map_id, List.append_nil]
  · rw [hr] at h
    cases h
  · rw [none id] at hid
    cases hid

/-! ## New versions -/

/-- A request that succeeds in changing the records that it selects. -/
theorem recordsStep_revised (hk : s.Keyed) (hc : ctx.config.Separate)
    (hg : request.revisedFamily? = some g) (hok : request.succeeds ctx s = true)
    {q : Document → Bool} {u : Document → Document}
    (hsel : request.selects ctx s = .ok ((s.scan (ctx.collection g)).filter q))
    (hu : ∀ d ∈ s.scan (ctx.collection g), q d = true → ∃ body now, Document.Distinct body ∧
      Revised (ctx.config.policy g) body now d (u d))
    (hrows : s'.rows = s.rows.map (Row.rewritten (ctx.collection g)
      (((s.scan (ctx.collection g)).filter q).map u))) (f : Family) :
    RecordsStep ctx request f s (s'.scan (ctx.collection f)) := by
  by_cases hfamily : g = f
  · subst hfamily
    -- What the request selects is told by the ids.
    have revises {d : Document} (hd : d ∈ s.scan (ctx.collection g)) {id : String}
        (hid : d.id? = .ok id) : request.revises ctx s g id = q d := by
      rw [WriteRequest.revises, hok, hg, hsel, beq_self_eq_true, Bool.true_and, Bool.true_and]
      change List.any _ _ = _
      rw [Bool.eq_iff_iff, List.any_eq_true]
      constructor
      · rintro ⟨e, he, hamong⟩
        obtain ⟨he, hq⟩ := List.mem_filter.1 he
        rwa [hk.eq_of_id?_eq hd he (hid.trans (Document.idAmong_singleton.1 hamong).symm)]
      · exact fun hq => ⟨d, List.mem_filter.2 ⟨hd, hq⟩, Document.idAmong_singleton.2 hid⟩
    refine .intro (fun _ => true) (fun d => if q d then u d else d) [] ?_ (fun _ _ _ => rfl)
      (fun d hd id hid hr => ?_) (fun d hd id hid hr => ?_) (List.forall_mem_nil _)
    · rw [hk.scan_rewritten (fun d hd hq => ?_) hrows, List.append_nil,
        List.filter_eq_self.2 fun _ _ => rfl]
      obtain ⟨body, now, -, revised⟩ := hu d hd hq
      exact revised.id?_eq
    · rw [revises hd hid] at hr
      rw [if_pos hr]
      exact hu d hd hr
    · rw [revises hd hid] at hr
      rw [if_neg (Bool.not_eq_true _ ▸ hr)]
  · have others : s'.scan (ctx.collection f) = s.scan (ctx.collection f) :=
      Store.scan_rewritten_of_ne hrows fun h => hfamily (hc.collections g f h.symm)
    refine Adds.recordsStep ⟨[], by rw [others, List.append_nil], List.forall_mem_nil _⟩
      (WriteRequest.revises_of_ne fun h => hfamily ?_)
    exact Option.some.inj (hg.symm.trans h)

/-! ## One after the other -/

/-- A document with an id is put in the place of the stored one if it can be written. -/
theorem exists_replace {collection id : String} {doc : Document} (hid : doc.id? = .ok id)
    (hw : Value.membersCanBeWritten doc = true) (s : Store) :
    ∃ s', s.replace collection doc = .ok s' := by
  rw [Store.replace, hid, Document.checkWritten, if_pos hw]
  exact ⟨_, rfl⟩

/-- Documents with ids are put in their places one after the other if all of them can be written. -/
theorem exists_run_replaceAll {collection : String} {docs : List Document}
    (hids : ∀ d ∈ docs, ∃ id, d.id? = .ok id)
    (hw : ∀ d ∈ docs, Value.membersCanBeWritten d = true) (s : Store) :
    ∃ s', (docs.forM fun doc => Write.change fun store =>
      store.replace collection doc : Write Unit).run s = (.ok (), s') := by
  induction docs generalizing s with
  | nil => exact ⟨s, rfl⟩
  | cons doc docs ih =>
    rw [List.forall_mem_cons] at hids hw
    obtain ⟨id, hid⟩ := hids.1
    obtain ⟨t, ht⟩ : ∃ t, s.replace collection doc = .ok t := exists_replace hid hw.1 s
    obtain ⟨s', hs'⟩ := ih hids.2 hw.2 t
    refine ⟨s', ?_⟩
    change (Write.change _ >>= fun _ => docs.forM _ : Write Unit).run s = _
    rw [Write.run_bind, Write.run_change, ht]
    exact hs'

/-- Where either all documents can be written or none, a failure comes before the first is. -/
theorem run_replaceAll_fails {collection : String} {docs : List Document} {e : Failure}
    (hids : ∀ d ∈ docs, ∃ id, d.id? = .ok id)
    (hw : ∀ d ∈ docs, ∀ d' ∈ docs, Value.membersCanBeWritten d = true →
      Value.membersCanBeWritten d' = true)
    (h : (docs.forM fun doc => Write.change fun store =>
      store.replace collection doc : Write Unit).run s = (.error e, s')) : s' = s := by
  cases docs with
  | nil => cases h
  | cons doc docs =>
    by_cases first : Value.membersCanBeWritten doc = true
    · obtain ⟨t, ht⟩ := exists_run_replaceAll hids
        (fun d hd => hw doc List.mem_cons_self d hd first) s
      cases ht.symm.trans h
    · obtain ⟨id, hid⟩ := hids doc List.mem_cons_self
      have broken : s.replace collection doc = .error .tooManyDigits := by
        rw [Store.replace, hid, Document.checkWritten, if_neg first]
        rfl
      change (Write.change _ >>= fun _ => docs.forM _ : Write Unit).run s = _ at h
      rw [Write.run_bind, Write.run_change, broken] at h
      cases h
      rfl

/-- The versions of all records have so few digits that the next ones can be written, too. -/
def HasSmallVersions (config : Configuration) (s : Store) : Prop :=
  ∀ f, ∀ d ∈ s.scan (config.policy f).collection, ∀ n : Int,
    d.get? "_version" = some (.int n) → (n + 1).natAbs < 10 ^ Numeral.maxDigits

/-- The new version of a managed record has the next version number. -/
theorem get?_version_update {p : Policy} {old new body : Document} {now : Instant}
    (hm : Record.Managed p old) (hd : body.Distinct)
    (h : Record.update p old body now = .ok new) :
    ∃ n : Int, old.get? "_version" = some (.int n) ∧ new.get? "_version" = some (.int (n + 1)) := by
  obtain ⟨n, version, hn⟩ := hm.version
  obtain ⟨next, hnext, hnew⟩ := (Record.relabelled_update hd h).version
  rw [Record.nextVersion_eq version hn] at hnext
  cases hnext
  exact ⟨n, version, hnew⟩

/-- A bulk update that fails has written nothing. -/
theorem run_updateAll_fails (hw : WellKept ctx.config s) (hv : HasSmallVersions ctx.config s)
    {payload query : Value} {extra : Condition} (hp : HasDistinctKeys payload) {e : Failure}
    (h : (updateAll ctx f payload query extra).run s = (.error e, s')) : s' = s := by
  rw [updateAll, Write.run_bind, Write.run_read] at h
  cases hn : updatedRecords ctx s f payload query extra with
  | error e =>
    rw [hn] at h
    cases h
    rfl
  | ok news =>
    obtain ⟨q, u, -, rfl, -, hu⟩ := updatedRecords_eq_ok hw.toKeyed hn
    rw [hn] at h
    change (_ >>= fun _ => pure _ : Write Nat).run s = _ at h
    rw [Write.run_bind] at h
    have updated {d : Document} (hd : d ∈ ((s.scan (ctx.collection f)).filter q).map u) :
        ∃ old ∈ s.scan (ctx.collection f), ∃ body now, payload = .object body ∧
          ctx.instant = .ok now ∧ Record.update (ctx.config.policy f) old body now = .ok d := by
      obtain ⟨old, hold, rfl⟩ := List.mem_map.1 hd
      obtain ⟨hold, hq⟩ := List.mem_filter.1 hold
      obtain ⟨body, now, hbody, hnow, hupdate⟩ := hu old hold hq
      exact ⟨old, hold, body, now, members_eq_ok hbody, hnow, hupdate⟩
    split at h
    · cases h
    · next failed =>
      cases h
      -- The versions are written with the same payload and time, so that one can be written if
      -- another can: the first replacement fails, and nothing comes before it.
      refine run_replaceAll_fails (fun d hd => ?_) (fun d hd d' hd' hwritten => ?_) failed
      · obtain ⟨old, hold, body, now, -, -, hupdate⟩ := updated hd
        obtain ⟨id, hid⟩ := hw.textIds _ old hold
        exact ⟨id, Document.id?_of_text ((Record.get?_id_update hupdate).trans hid)⟩
      · obtain ⟨old, hold, body, now, rfl, hnow, hupdate⟩ := updated hd
        obtain ⟨old', hold', body', now', hbody, hnow', hupdate'⟩ := updated hd'
        cases hbody
        cases hnow.symm.trans hnow'
        have distinct : Document.Distinct body := hp body rfl
        refine Record.writable_update distinct (hw.managed f _ hold) (hw.managed f _ hold')
          (hw.distinct f _ hold) (hw.distinct f _ hold') hupdate hupdate'
          (hw.written.of_mem_scan hold') (fun n hn => ?_) hwritten
        obtain ⟨m, version, next⟩ := get?_version_update (hw.managed f _ hold') distinct hupdate'
        cases next.symm.trans hn
        exact hv f _ hold' m version

/-- A request that fails and leaves the store as it was. -/
theorem recordsStep_failed {e : Failure} (h : (perform ctx request).run s = (.error e, s))
    (f : Family) :
    RecordsStep ctx request f s (((perform ctx request).run s).2.scan (ctx.collection f)) := by
  have fails : request.succeeds ctx s = false := by
    rw [WriteRequest.succeeds, h]
    rfl
  rw [h]
  exact (Adds.refl ctx request f s).recordsStep (WriteRequest.revises_of_fails fails f)

/-- A request that writes one new version. -/
theorem recordsStep_save (hk : s.Keyed) (hc : ctx.config.Separate) {id : String}
    {prepare : Document → Outcome Document} (hg : request.revisedFamily? = some g)
    (hperform : perform ctx request = discard (save ctx g id prepare))
    (hsel : request.selects ctx s = do return [← stored ctx s g id])
    (hprepare : ∀ old new, prepare old = .ok new → ∃ body now, Document.Distinct body ∧
      Revised (ctx.config.policy g) body now old new) (f : Family) :
    RecordsStep ctx request f s (((perform ctx request).run s).2.scan (ctx.collection f)) := by
  have run := Write.run_write (fun store => do
      let doc ← prepare (← stored ctx store g id)
      checkChanged ctx store g doc
      return doc)
    (fun doc store => store.replace (ctx.collection g) doc) (fun doc => doc) s
  have performed : (perform ctx request).run s = _ :=
    (congrArg (fun w : Write Unit => w.run s) hperform).trans (Write.run_discard _ s)
  rw [save, run] at performed
  split at performed
  · exact recordsStep_failed performed f
  · next new hn =>
    split at performed
    · exact recordsStep_failed performed f
    · next s' hw =>
      obtain ⟨old, hold, hn⟩ := bind_eq_ok.1 hn
      obtain ⟨made, hmade, hn⟩ := bind_eq_ok.1 hn
      obtain ⟨-, -, hn⟩ := bind_eq_ok.1 hn
      cases hn
      have succeeds : request.succeeds ctx s = true := by
        rw [WriteRequest.succeeds, performed]
        rfl
      have hd := mem_scan_of_stored hold
      have hid : old.id? = .ok id := by
        rw [stored] at hold
        split at hold
        · next found =>
          cases hold
          exact hk.id?_of_fetch? found
        · cases hold
      -- No other record has the id: to revise what has it is to revise this one.
      have only := hk.filter_idAmong hd hid
      rw [performed]
      refine recordsStep_revised hk hc hg succeeds (q := Document.idAmong [id])
        (u := fun _ => new) ?_ (fun d hd' hq => ?_) ?_ f
      · rw [hsel, hold, only]
        rfl
      · rw [hk.eq_of_id?_eq hd' hd ((Document.idAmong_singleton.1 hq).trans hid.symm)]
        exact hprepare old new hmade
      · rw [only]
        exact Store.replace_eq_ok (lift_eq_ok.1 hw)

/-- A request that writes new versions of several records. -/
theorem recordsStep_bulk (hc : ctx.config.Separate) (hw : WellKept ctx.config s)
    (hv : HasSmallVersions ctx.config s) {payload query : Value} {extra : Condition}
    (hp : HasDistinctKeys payload) (hg : request.revisedFamily? = some g)
    (hrun : (perform ctx request).run s =
      (discard (updateAll ctx g payload query extra) : Write Unit).run s)
    (hsel : request.selects ctx s = selected ctx s g query extra "where" "set") (f : Family) :
    RecordsStep ctx request f s (((perform ctx request).run s).2.scan (ctx.collection f)) := by
  rw [Write.run_discard] at hrun
  rcases hu : (updateAll ctx g payload query extra).run s with ⟨e | n, s'⟩
  · rw [hu] at hrun
    obtain rfl := run_updateAll_fails hw hv hp hu
    exact recordsStep_failed hrun f
  · rw [hu] at hrun
    have succeeds : request.succeeds ctx s = true := by
      rw [WriteRequest.succeeds, hrun]
      rfl
    obtain ⟨news, hnews, -, hrows⟩ := run_updateAll hu
    obtain ⟨q, u, -, rfl, hselected, hu⟩ := updatedRecords_eq_ok hw.toKeyed hnews
    rw [hrun]
    refine recordsStep_revised hw.toKeyed hc hg succeeds (hsel.trans hselected)
      (fun d hd hq => ?_) hrows f
    obtain ⟨body, now, hbody, -, hupdate⟩ := hu d hd hq
    exact ⟨body, now, hp body (members_eq_ok hbody), .updated hupdate⟩

/-- A request that removes records. -/
theorem recordsStep_withoutRecords (hs : s.Sound) {ids : List Value}
    (hr : request.removes ctx s = true) (h : withoutRecords ctx g ids s = .ok s') (f : Family) :
    RecordsStep ctx request f s (s'.scan (ctx.collection f)) := by
  by_cases hids : ids = []
  · subst hids
    cases h
    exact recordsStep_removed hr (List.filter_eq_self.2 fun _ _ => rfl).symm
  · exact recordsStep_removed hr (scan_withoutRecords hs hids h _)

/-- A record that goes takes with it what depends on it. -/
theorem recordsStep_delete (hs : s.Sound) (g : Family) (id : String) (f : Family) :
    RecordsStep ctx (.delete g id) f s
      (((perform ctx (.delete g id)).run s).2.scan (ctx.collection f)) := by
  have run : (perform ctx (.delete g id)).run s = _ := Write.run_change _ s
  split at run
  · next s' hdelete =>
    obtain ⟨-, -, hremoved⟩ := bind_eq_ok.1 hdelete
    rw [run]
    refine recordsStep_withoutRecords hs ?_ hremoved f
    rw [WriteRequest.removes, WriteRequest.succeeds, run]
    rfl
  · exact recordsStep_failed run f

/-- The entities of a list are removed together. -/
theorem recordsStep_deleteListEntities (hs : s.Sound) (listId : String) (query : Value)
    (f : Family) :
    RecordsStep ctx (.deleteListEntities listId query) f s
      (((perform ctx (.deleteListEntities listId query)).run s).2.scan (ctx.collection f)) := by
  have run : (perform ctx (.deleteListEntities listId query)).run s = _ :=
    Write.run_discard (deleteListEntities ctx listId query) s
  have work := Write.run_write (fun store => doomedEntities ctx store listId query)
    (withoutRecords ctx .entities) List.length s
  rw [deleteListEntities, work] at run
  split at run
  · exact recordsStep_failed run f
  · next ids hids =>
    split at run
    · exact recordsStep_failed run f
    · next s' hremoved =>
      rw [run]
      refine recordsStep_withoutRecords hs ?_ hremoved f
      rw [WriteRequest.removes, WriteRequest.succeeds, run]
      rfl

/-- The entities of a list are changed together. Where the list has none, nothing is selected. -/
theorem recordsStep_updateListEntities (hc : ctx.config.Separate) (hw : WellKept ctx.config s)
    (hv : HasSmallVersions ctx.config s) (listId : String) {payload : Value} (query : Value)
    (hp : HasDistinctKeys payload) (f : Family) :
    RecordsStep ctx (.updateListEntities listId payload query) f s
      (((perform ctx (.updateListEntities listId payload query)).run s).2.scan
        (ctx.collection f)) := by
  have run : (perform ctx (.updateListEntities listId payload query)).run s = _ :=
    Write.run_discard (updateListEntities ctx listId payload query) s
  rw [updateListEntities, Write.run_bind, Write.run_read] at run
  have selects : (WriteRequest.updateListEntities listId payload query).selects ctx s =
    entityIdsIn ctx s listId query >>= _ := rfl
  cases hids : entityIdsIn ctx s listId query with
  | error e =>
    rw [hids] at run
    exact recordsStep_failed run f
  | ok ids =>
    rw [hids] at run selects
    cases ids with
    | nil =>
      refine Adds.recordsStep ?_ fun id => ?_
      · rw [run]
        exact .refl ctx _ f s
      · rw [WriteRequest.revises, selects]
        exact Bool.and_false _
    | cons id ids =>
      refine recordsStep_bulk hc hw hv hp rfl ?_ selects f
      rw [Write.run_discard]
      exact run

/-- Whatever a request does and is answered, this is what it makes of the records of a family. -/
theorem recordsStep_perform (hc : ctx.config.Separate) (hw : WellKept ctx.config s)
    (hv : HasSmallVersions ctx.config s) (hr : request.RevisesPlainly) (f : Family) :
    RecordsStep ctx request f s (((perform ctx request).run s).2.scan (ctx.collection f)) := by
  have none (h : request.revisedFamily? = none) (id : String) :
      request.revises ctx s f id = false :=
    WriteRequest.revises_of_ne (by rw [h]; exact nofun) id
  cases request with
  | create g payload id =>
    refine Adds.recordsStep ?_ (none rfl)
    rw [perform, Write.run_discard]
    exact adds_create hc payload List.mem_cons_self f s
  | createChild g parentId payload id =>
    refine Adds.recordsStep ?_ (none rfl)
    rw [perform, Write.run_discard, createChild, Write.run_bind, Write.run_read]
    split
    · next given s' hgiven =>
      cases congrArg Prod.snd hgiven
      exact adds_create hc given List.mem_cons_self f s
    · next e s' hfailed =>
      cases congrArg Prod.snd hfailed
      exact .refl ctx _ f s
  | createInList listId payload entityId relationId =>
    refine Adds.recordsStep ?_ (none rfl)
    rw [perform, Write.run_discard]
    exact adds_createInList hc rfl f s
  | replace g id payload =>
    refine recordsStep_save hw.toKeyed hc rfl rfl rfl (fun old new h => ?_) f
    obtain ⟨body, hbody, h⟩ := bind_eq_ok.1 h
    obtain ⟨now, -, h⟩ := bind_eq_ok.1 h
    exact ⟨body, now, hr payload rfl body (members_eq_ok (lift_eq_ok.1 hbody)), .replaced h⟩
  | update g id payload =>
    refine recordsStep_save hw.toKeyed hc rfl rfl rfl (fun old new h => ?_) f
    obtain ⟨body, hbody, h⟩ := bind_eq_ok.1 h
    obtain ⟨now, -, h⟩ := bind_eq_ok.1 h
    exact ⟨body, now, hr payload rfl body (members_eq_ok (lift_eq_ok.1 hbody)), .updated h⟩
  | updateAll g payload query => exact recordsStep_bulk hc hw hv (hr payload rfl) rfl rfl rfl f
  | updateListEntities listId payload query =>
    exact recordsStep_updateListEntities hc hw hv listId query (hr payload rfl) f
  | delete g id => exact recordsStep_delete hw.toSound g id f
  | deleteListEntities listId query =>
    exact recordsStep_deleteListEntities hw.toSound listId query f

end Catalog.Service
