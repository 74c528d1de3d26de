import Catalog.Proofs.Policy
import Catalog.Proofs.Service.BulkUpdate
import Catalog.Proofs.Service.Refusal
import Catalog.Proofs.Service.Removal
import Mathlib.Logic.Relation

/-!
# What requests change

Whatever a request does to the store, it does in steps of three kinds (`Change`): it makes a record,
puts a new version in the place of a record, or removes records and those that name them. Each step
says what has been checked before. So what every step keeps, a request keeps, whatever its answer
(`keeps_perform`), and what is kept from a store on holds after every run of requests (`Run.keeps`).

* An entity whose relation is refused is removed again, so that the request has changed nothing; if
  the relation meets a fault instead, the entity stays.
* A bulk update is one step for each new version. The versions were checked against the store before
  the first of these steps, so that a step only says that their references met the constraints on
  a store whose records are still there, perhaps as later versions (`Checked`, `OnlyRevised`).
-/

namespace Catalog.Service

open Write

variable {ctx : Context} {s s' : Store} {f : Family}

/-! ## Payloads -/

/-- A payload with one more parent is the payload with other parents. -/
theorem withParent_eq_ok {uri : String} {payload given : Value}
    (h : withParent uri payload = .ok given) : ∃ (body : Document) (parents : List Value),
      payload = .object body ∧ given = .object (body.put "_parents" (.array parents)) := by
  obtain ⟨body, hbody, h⟩ := bind_eq_ok.1 h
  dsimp only at h
  split at h
  · obtain ⟨parents, -, h⟩ := bind_eq_ok.1 h
    cases h
    exact ⟨body, _, members_eq_ok hbody, rfl⟩
  · cases h
    exact ⟨body, _, members_eq_ok hbody, rfl⟩

/-! ## New versions -/

/-- What becomes of a stored document when the members of a payload are put in its place or written
    over it. -/
inductive Revised (p : Policy) (body : Document) (now : Instant) (old new : Document) : Prop where
  /-- The payload is put in its place. -/
  | replaced : Record.replace p old body now = .ok new → Revised p body now old new
  /-- The payload is written over it. -/
  | updated : Record.update p old body now = .ok new → Revised p body now old new

/-- A new version has the id of the old one. -/
theorem Revised.get?_id {p : Policy} {body old new : Document} {now : Instant}
    (h : Revised p body now old new) : new.get? "_id" = old.get? "_id" := by
  cases h with
  | replaced h => exact Record.get?_id_replace h
  | updated h => exact Record.get?_id_update h

theorem Revised.id?_eq {p : Policy} {body old new : Document} {now : Instant}
    (h : Revised p body now old new) : new.id? = old.id? := by
  rw [Document.id?, Document.id?, h.get?_id]

/-! ## Steps -/

/-- The payloads that a request makes records of, each with its family and the id of the record. -/
inductive WriteRequest.Gives (ctx : Context) : WriteRequest → Family → Value → String → Prop where
  /-- A record of the payload. -/
  | create {f : Family} {payload : Value} {id : String} :
      Gives ctx (.create f payload id) f payload id
  /-- A record with one more parent. -/
  | createChild {f : Family} {parentId id : String} {payload given : Value} :
      withParent (referenceTo ctx f parentId) payload = .ok given →
        Gives ctx (.createChild f parentId payload id) f given id
  /-- The entity of a list. -/
  | entity {listId entityId relationId : String} {payload : Value} :
      Gives ctx (.createInList listId payload entityId relationId) .entities payload entityId
  /-- The relation that puts it into the list. -/
  | relation {listId entityId relationId : String} {payload : Value} :
      Gives ctx (.createInList listId payload entityId relationId) .relations
        (.object [("_listId", .text listId), ("_entityId", .text entityId)]) relationId

/-- The payload that a request writes to stored records. -/
def WriteRequest.revision? : WriteRequest → Option Value
  | .replace _ _ payload => some payload
  | .update _ _ payload => some payload
  | .updateAll _ payload _ => some payload
  | .updateListEntities _ payload _ => some payload
  | _ => none

/-- Whether a request writes a payload to several records at once. -/
def WriteRequest.isBulk : WriteRequest → Bool
  | .updateAll _ _ _ => true
  | .updateListEntities _ _ _ => true
  | _ => false

/-- A document of a collection is what becomes of another one when a request writes its payload to
    it, any number of times. -/
def Later (ctx : Context) (request : WriteRequest) (collection : String) :
    Document → Document → Prop :=
  Relation.ReflTransGen fun old new => ∃ f payload body now, ctx.collection f = collection ∧
    request.revision? = some payload ∧ members payload = .ok body ∧
    Revised (ctx.config.policy f) body now old new

/-- The records of one store are still in another one, perhaps as later versions. -/
def OnlyRevised (ctx : Context) (request : WriteRequest) (t s : Store) : Prop :=
  ∀ collection, ∀ old ∈ t.scan collection, ∃ new ∈ s.scan collection,
    Later ctx request collection old new

theorem OnlyRevised.refl (ctx : Context) (request : WriteRequest) (s : Store) :
    OnlyRevised ctx request s s :=
  fun _ old hold => ⟨old, hold, .refl⟩

/-- One more record may be revised. -/
theorem OnlyRevised.replace {request : WriteRequest} {t : Store} {payload : Value}
    {body old new : Document} {now : Instant} (h : OnlyRevised ctx request t s) (hk : s.Keyed)
    (hr : request.revision? = some payload) (hbody : members payload = .ok body)
    (hold : old ∈ s.scan (ctx.collection f))
    (hrevised : Revised (ctx.config.policy f) body now old new)
    (hw : s.replace (ctx.collection f) new = .ok s') : OnlyRevised ctx request t s' := by
  intro collection first hfirst
  obtain ⟨last, hlast, later⟩ := h collection first hfirst
  by_cases hcollection : ctx.collection f = collection
  · rcases hk.mem_replace_of_mem_scan hold hrevised.id?_eq hw hlast with kept | ⟨rfl, hnew⟩
    · exact ⟨last, kept, later⟩
    · exact ⟨new, hnew, later.tail ⟨f, payload, body, now, hcollection, hr, hbody, hrevised⟩⟩
  · obtain ⟨-, others⟩ := hk.scan_replace hold hrevised.id?_eq hw
    rw [← others collection (Ne.symm hcollection)] at hlast
    exact ⟨last, hlast, later⟩

/-- The checks that a new version has passed: its references meet the constraints, on this store if
    it is the only new version, which then keeps all rules as well. -/
structure Checked (ctx : Context) (request : WriteRequest) (s : Store) (f : Family)
    (new : Document) : Prop where
  /-- Its references meet the constraints on a store whose records have only been revised since. -/
  references : ∃ t, OnlyRevised ctx request t s ∧
    checkReferences ctx.config t (ctx.config.policy f) new = .ok ()
  /-- A single new version has passed all checks on this one. -/
  single : request.isBulk = false → checkChanged ctx s f new = .ok ()

/-- A version that has passed all checks on a store. -/
theorem Checked.of_checkChanged {request : WriteRequest} {new : Document}
    (h : checkChanged ctx s f new = .ok ()) : Checked ctx request s f new := by
  obtain ⟨⟨⟩, references, -⟩ := bind_eq_ok.1 h
  exact ⟨⟨s, .refl ctx request s, references⟩, fun _ => h⟩

/-- A step of a request that changes the store. -/
inductive Change (ctx : Context) (request : WriteRequest) (s s' : Store) : Prop where
  /-- A record is made, after all checks. -/
  | insert {f : Family} {given : Value} {id : String} {doc : Document} :
      request.Gives ctx f given id → newRecord ctx s f given id = .ok doc →
      s.insert (ctx.collection f) doc = .ok s' → Change ctx request s s'
  /-- A stored record is replaced by a new version, after its checks. -/
  | revise {f : Family} {payload : Value} {body old new : Document} {now : Instant} :
      request.revision? = some payload → members payload = .ok body →
      old ∈ s.scan (ctx.collection f) → Revised (ctx.config.policy f) body now old new →
      Checked ctx request s f new → s.replace (ctx.collection f) new = .ok s' →
      Change ctx request s s'
  /-- Records are removed, and those that name them. -/
  | remove {f : Family} {ids : List Value} :
      (∀ v ∈ ids, (∃ id, v = .text id) ∨
        ∃ d ∈ s.scan (ctx.collection f), d.get? "_id" = some v) →
      withoutRecords ctx f ids s = .ok s' → Change ctx request s s'

namespace Change

variable {request : WriteRequest} (h : Change ctx request s s')

include h

/-- Each document stays under its own id. -/
theorem keyed (hk : s.Keyed) : s'.Keyed := by
  cases h with
  | insert _ hn hi => exact hk.insert (Document.id?_of_text (get?_id_of_newRecord hn)) hi
  | revise _ _ hold hr _ hs => exact hk.replace hold hr.id?_eq hs
  | remove _ hw => exact withoutRecords_keeps (fun _ c ids hk => hk.remove c ids) hk hw

/-- Ids stay texts. -/
theorem sound (hs : s.Sound) : s'.Sound := by
  cases h with
  | insert _ hn hi => exact hs.insert (get?_id_of_newRecord hn) hi
  | revise _ _ hold hr _ hw => exact hs.replace hold hr.get?_id hw
  | remove _ hw => exact withoutRecords_keeps (fun _ c ids hs => hs.remove c ids) hs hw

end Change

/-! ## The records of one family -/

/-- What a step makes of the records of one family. -/
inductive RecordsChange (ctx : Context) (request : WriteRequest) (f : Family) (s : Store)
    (docs docs' : List Document) : Prop where
  /-- There is a new record, as the last one. -/
  | added {given : Value} {id : String} {doc : Document} :
      request.Gives ctx f given id → newRecord ctx s f given id = .ok doc →
      docs' = docs ++ [doc] → RecordsChange ctx request f s docs docs'
  /-- A new version takes the place of a record. -/
  | revised {payload : Value} {body old new : Document} {now : Instant}
      {before after : List Document} :
      request.revision? = some payload → members payload = .ok body →
      Revised (ctx.config.policy f) body now old new → Checked ctx request s f new →
      docs = before ++ old :: after → docs' = before ++ new :: after →
      RecordsChange ctx request f s docs docs'
  /-- There are no records but those that there were. -/
  | fewer : docs'.Sublist docs → RecordsChange ctx request f s docs docs'

/-- A step changes the records of one family at most in one place. -/
theorem Change.records {request : WriteRequest} (h : Change ctx request s s')
    (hc : ctx.config.Separate) (hk : s.Keyed) (f : Family) :
    RecordsChange ctx request f s (s.scan (ctx.collection f)) (s'.scan (ctx.collection f)) := by
  cases h with
  | @insert g given id doc hg hn hi =>
    have scan := Store.scan_insert (Document.id?_of_text (get?_id_of_newRecord hn)) hi
      (ctx.collection f)
    by_cases hcollection : ctx.collection g = ctx.collection f
    · obtain rfl := hc.collections g f hcollection
      rw [if_pos rfl] at scan
      exact .added hg hn scan
    · rw [if_neg hcollection, List.append_nil] at scan
      exact .fewer (scan ▸ .refl _)
  | @revise g payload body old new now hr hbody hold hrevised hchecked hw =>
    obtain ⟨⟨before, after, was, is⟩, others⟩ := hk.scan_replace hold hrevised.id?_eq hw
    by_cases hcollection : ctx.collection f = ctx.collection g
    · obtain rfl := hc.collections f g hcollection
      exact .revised hr hbody hrevised hchecked was is
    · exact .fewer (others _ hcollection ▸ .refl _)
  | remove _ hw =>
    refine .fewer (withoutRecords_keeps
      (P := fun t => (t.scan (ctx.collection f)).Sublist (s.scan (ctx.collection f)))
      (fun t c ids ht => ?_) (.refl _) hw)
    have rows : ((t.remove c ids).scan (ctx.collection f)).Sublist (t.scan (ctx.collection f)) :=
      (List.filter_sublist.filter _).map _
    exact rows.trans ht

/-! ## Requests -/

/-- A request to make a record leaves the store as it is, or makes one step. -/
theorem change_of_create {request : WriteRequest} {given : Value} {id : String}
    (hg : request.Gives ctx f given id) (s : Store) :
    ((create ctx f given id).run s).2 = s ∨
      Change ctx request s ((create ctx f given id).run s).2 := by
  rcases run_create_cases ctx f given id s with
    ⟨e, -, hrun⟩ | ⟨doc, hn, ⟨e, -, hrun⟩ | ⟨s', hi, hrun⟩⟩
  · rw [hrun]
    exact .inl rfl
  · rw [hrun]
    exact .inl rfl
  · rw [hrun]
    exact .inr (.insert hg hn hi)

theorem mem_scan_of_stored {id : String} {doc : Document} (h : stored ctx s f id = .ok doc) :
    doc ∈ s.scan (ctx.collection f) := by
  rw [stored] at h
  split at h
  · next found =>
    cases h
    exact Store.mem_scan_of_fetch? found
  · cases h

/-- The ids of entities that are removed from a list are those of stored entities. -/
theorem mem_of_doomedEntities {listId : String} {query : Value} {ids : List Value}
    (h : doomedEntities ctx s listId query = .ok ids) :
    ∀ v ∈ ids, ∃ d ∈ s.scan (ctx.collection .entities), d.get? "_id" = some v := by
  intro v hv
  obtain ⟨named, -, h⟩ := bind_eq_ok.1 h
  cases named with
  | nil =>
    cases h
    exact absurd hv List.not_mem_nil
  | cons id named =>
    obtain ⟨docs, hdocs, h⟩ := bind_eq_ok.1 h
    obtain ⟨c, hc⟩ := selected_eq_ok hdocs
    obtain ⟨d, hd, hid⟩ := mem_of_mapM h hv
    exact ⟨d, (of_mem_selection hc hd).1, orFault_eq_ok.1 (lift_eq_ok.1 hid)⟩

/-- The new versions of a bulk update, one for each of several stored records. -/
theorem mem_of_updatedRecords {payload query : Value} {extra : Condition} {docs : List Document}
    (h : updatedRecords ctx s f payload query extra = .ok docs) :
    ∀ new ∈ docs, checkReferences ctx.config s (ctx.config.policy f) new = .ok () ∧
      ∃ old ∈ s.scan (ctx.collection f), ∃ body now, members payload = .ok body ∧
        Revised (ctx.config.policy f) body now old new := by
  intro new hnew
  dsimp only [updatedRecords] at h
  obtain ⟨kinds, -, h⟩ := bind_eq_ok.1 h
  cases kinds with
  | true => cases h
  | false =>
    obtain ⟨found, hfound, h⟩ := bind_eq_ok.1 h
    obtain ⟨docs', hdocs, h⟩ := bind_eq_ok.1 h
    obtain ⟨⟨⟩, hreferences, h⟩ := bind_eq_ok.1 h
    obtain ⟨-, -, h⟩ := bind_eq_ok.1 h
    cases h
    obtain ⟨c, hc⟩ := selected_eq_ok hfound
    obtain ⟨old, hold, hu⟩ := mem_of_mapM hdocs hnew
    obtain ⟨body, hbody, hu⟩ := bind_eq_ok.1 hu
    obtain ⟨now, -, hu⟩ := bind_eq_ok.1 hu
    exact ⟨forM_eq_ok.1 hreferences new hnew, old, (of_mem_selection hc hold).1, body, now,
      lift_eq_ok.1 hbody, .updated hu⟩

/-- The new versions of a bulk update have different ids. -/
theorem pairwise_updatedRecords (hk : s.Keyed) {payload query : Value} {extra : Condition}
    {docs : List Document} (h : updatedRecords ctx s f payload query extra = .ok docs) :
    docs.Pairwise fun d d' => d.id? ≠ d'.id? := by
  obtain ⟨q, u, hu, rfl, -⟩ := updatedRecords_eq_ok hk h
  rw [List.pairwise_map]
  refine (hk.pairwise_id?.filter q).imp_of_mem fun hd hd' hne => ?_
  obtain ⟨hd, hq⟩ := List.mem_filter.1 hd
  obtain ⟨hd', hq'⟩ := List.mem_filter.1 hd'
  rwa [hu.id?_eq hd hq, hu.id?_eq hd' hq']

section Steps

variable {P : Store → Prop} {request : WriteRequest}
  (hstep : ∀ s s', P s → Change ctx request s s' → P s')

include hstep

/-- A record that is made. -/
theorem keeps_make {given : Value} {id : String} (hg : request.Gives ctx f given id) (hs : P s) :
    P ((create ctx f given id).run s).2 := by
  rcases change_of_create hg s with unchanged | hchange
  · rw [unchanged]
    exact hs
  · exact hstep s _ hs hchange

/-- A record that is replaced. -/
theorem keeps_revise {payload : Value} (hr : request.revision? = some payload)
    {id : String} {prepare : Document → Outcome Document}
    (hp : ∀ old new, prepare old = .ok new → ∃ body now, members payload = .ok body ∧
      Revised (ctx.config.policy f) body now old new) (hs : P s) :
    P ((save ctx f id prepare).run s).2 := by
  have run := run_write (fun store => do
      let doc ← prepare (← stored ctx store f id)
      checkChanged ctx store f doc
      return doc)
    (fun doc store => store.replace (ctx.collection f) doc) (fun doc => doc) s
  rw [save, run]
  split
  · exact hs
  · next new hn =>
    obtain ⟨old, hold, hn⟩ := bind_eq_ok.1 hn
    obtain ⟨made, hmade, hn⟩ := bind_eq_ok.1 hn
    obtain ⟨⟨⟩, checked, hn⟩ := bind_eq_ok.1 hn
    cases hn
    obtain ⟨body, now, hbody, revised⟩ := hp old new hmade
    split
    · exact hs
    · next s' hw =>
      exact hstep s s' hs (.revise hr hbody (mem_scan_of_stored hold) revised
        (.of_checkChanged checked) (lift_eq_ok.1 hw))

/-- A bulk update replaces its records one after the other. Each is still there when its turn comes,
    since the others have other ids. -/
theorem keeps_reviseAll (hkeyed : ∀ s, P s → s.Keyed) {payload : Value}
    (hr : request.revision? = some payload) (hbulk : request.isBulk = true) {news : List Document}
    {t : Store} (hnews : ∀ new ∈ news,
      checkReferences ctx.config t (ctx.config.policy f) new = .ok () ∧
      ∃ old ∈ s.scan (ctx.collection f), ∃ body now, members payload = .ok body ∧
        Revised (ctx.config.policy f) body now old new)
    (hids : news.Pairwise fun d d' => d.id? ≠ d'.id?) (ht : OnlyRevised ctx request t s)
    (hs : P s) :
    P ((news.forM fun new => change fun store => store.replace (ctx.collection f) new :
      Write Unit).run s).2 := by
  induction news generalizing s with
  | nil => exact hs
  | cons new news ih =>
    rw [List.forall_mem_cons] at hnews
    rw [List.pairwise_cons] at hids
    obtain ⟨⟨references, old, hold, body, now, hbody, revised⟩, hnews⟩ := hnews
    obtain ⟨others, hids⟩ := hids
    change P ((change _ >>= fun _ => news.forM _ : Write Unit).run s).2
    rw [run_bind, run_change]
    cases hw : s.replace (ctx.collection f) new with
    | error e => exact hs
    | ok s' =>
      have step : P s' := hstep s s' hs (.revise hr hbody hold revised ⟨⟨t, ht, references⟩, by
        rw [hbulk]
        exact fun h => Bool.noConfusion h⟩ hw)
      refine ih (fun new' hnew' => ?_) hids
        (ht.replace (hkeyed s hs) hr hbody hold revised hw) step
      obtain ⟨references', old', hold', body', now', hbody', revised'⟩ := hnews new' hnew'
      refine ⟨references', old', ?_, body', now', hbody', revised'⟩
      obtain ⟨before, after, was, is⟩ := ((hkeyed s hs).scan_replace hold revised.id?_eq hw).1
      rw [was] at hold'
      rw [is]
      refine (eq_or_mem_of_replaced hold').resolve_left fun same => ?_
      subst same
      exact others new' hnew' (revised.id?_eq.trans revised'.id?_eq.symm)

theorem keeps_reviseSelected (hkeyed : ∀ s, P s → s.Keyed) {payload : Value}
    (hr : request.revision? = some payload) (hbulk : request.isBulk = true) (query : Value)
    (extra : Condition) (hs : P s) : P ((updateAll ctx f payload query extra).run s).2 := by
  rw [updateAll, run_bind, run_read]
  cases hn : updatedRecords ctx s f payload query extra with
  | error e => exact hs
  | ok news =>
    have written := keeps_reviseAll hstep hkeyed hr hbulk (mem_of_updatedRecords hn)
      (pairwise_updatedRecords (hkeyed s hs) hn) (.refl ctx request s) hs
    dsimp only
    rw [run_bind]
    split
    · next h =>
      rw [h] at written
      exact written
    · next h =>
      rw [h] at written
      exact written

/-- An entity and its relation: two steps if both are made, none if the relation is refused. -/
theorem keeps_makeInList {listId entityId relationId : String} {payload : Value}
    (hrequest : request = .createInList listId payload entityId relationId) (hs : P s) :
    P ((createInList ctx listId payload entityId relationId).run s).2 := by
  subst hrequest
  have entityMade := keeps_make hstep .entity hs
  rcases run_createInList_cases ctx listId payload entityId relationId s with
    ⟨e, hrun⟩ | ⟨entity, s₁, he, ⟨b, hrun⟩ | ⟨relation, s₂, hr, hrun⟩⟩
  · rw [hrun]
    exact hs
  · rw [he] at entityMade
    rw [hrun]
    exact entityMade
  · rw [he] at entityMade
    have relationMade := keeps_make hstep .relation entityMade
    rw [hr] at relationMade
    rw [hrun]
    exact relationMade

/-- What every step of a request keeps, the request keeps. -/
theorem keeps_perform (hkeyed : ∀ s, P s → s.Keyed) : Keeps P (perform ctx request) := by
  cases request with
  | create f payload id =>
    exact Keeps.discard fun s hs => keeps_make hstep .create hs
  | createChild f parentId payload id =>
    refine Keeps.discard (.read_bind fun s given hs hg => ?_)
    obtain ⟨-, -, hg⟩ := bind_eq_ok.1 hg
    exact keeps_make hstep (.createChild (lift_eq_ok.1 hg)) hs
  | createInList listId payload entityId relationId =>
    exact Keeps.discard fun s hs => keeps_makeInList hstep rfl hs
  | replace f id payload =>
    refine Keeps.discard fun s hs => keeps_revise hstep rfl (fun old new h => ?_) hs
    obtain ⟨body, hbody, h⟩ := bind_eq_ok.1 h
    obtain ⟨now, -, h⟩ := bind_eq_ok.1 h
    exact ⟨body, now, lift_eq_ok.1 hbody, .replaced h⟩
  | update f id payload =>
    refine Keeps.discard fun s hs => keeps_revise hstep rfl (fun old new h => ?_) hs
    obtain ⟨body, hbody, h⟩ := bind_eq_ok.1 h
    obtain ⟨now, -, h⟩ := bind_eq_ok.1 h
    exact ⟨body, now, lift_eq_ok.1 hbody, .updated h⟩
  | updateAll f payload query =>
    exact Keeps.discard fun s hs => keeps_reviseSelected hstep hkeyed rfl rfl query .always hs
  | updateListEntities listId payload query =>
    refine Keeps.discard (.read_bind fun s ids hs _ => ?_)
    split
    · exact hs
    · exact keeps_reviseSelected hstep hkeyed rfl rfl query _ hs
  | delete f id =>
    refine keeps_change fun s s' hs hw => ?_
    obtain ⟨-, -, hw⟩ := bind_eq_ok.1 hw
    exact hstep s s' hs (.remove (List.forall_mem_singleton.2 (.inl ⟨id, rfl⟩)) hw)
  | deleteListEntities listId query =>
    refine Keeps.discard fun s hs => ?_
    have run := run_write (fun store => doomedEntities ctx store listId query)
      (withoutRecords ctx .entities) List.length s
    rw [deleteListEntities, run]
    cases hd : doomedEntities ctx s listId query with
    | error e => exact hs
    | ok ids =>
      dsimp only
      cases hw : withoutRecords ctx .entities ids s with
      | error e => exact hs
      | ok s' => exact hstep s s' hs (.remove (fun v hv => .inr (mem_of_doomedEntities hd v hv)) hw)

end Steps

/-- A request keeps the store sound, whatever its answer. -/
theorem sound_perform (ctx : Context) (request : WriteRequest) :
    Keeps Store.Sound (perform ctx request) :=
  keeps_perform (fun _ _ hs hchange => hchange.sound hs) fun _ hs => hs.toKeyed

/-! ## Runs -/

/-- A store that requests make of the empty one, whoever asks and however they are answered. -/
inductive Reachable : Store → Prop where
  | empty : Reachable {}
  | step {s : Store} (ctx : Context) (request : WriteRequest) :
      Reachable s → Reachable ((perform ctx request).run s).2

theorem Reachable.sound {s : Store} (h : Reachable s) : s.Sound := by
  induction h with
  | empty => exact .empty
  | step ctx request _ ih => exact sound_perform ctx request _ ih

/-- The stores that allowed requests lead to from a store, whoever asks and whenever, and however
    they are answered. -/
inductive Run (config : Configuration) (allowed : WriteRequest → Prop) (s : Store) : Store → Prop
    where
  | start : Run config allowed s s
  | step {t : Store} (ctx : Context) (request : WriteRequest) : Run config allowed s t →
      ctx.config = config → allowed request →
      Run config allowed s ((perform ctx request).run t).2

/-- A run of allowed requests is one where more is allowed. -/
theorem Run.mono {config : Configuration} {allowed allowed' : WriteRequest → Prop} {t : Store}
    (h : Run config allowed s t) (hr : ∀ request, allowed request → allowed' request) :
    Run config allowed' s t := by
  induction h with
  | start => exact .start
  | step ctx request _ hc ha ih => exact .step ctx request ih hc (hr request ha)

/-- What every step keeps on a keyed store, a run keeps. -/
theorem Run.keeps {config : Configuration} {allowed : WriteRequest → Prop} {P : Store → Prop}
    {t : Store} (h : Run config allowed s t) (hk : s.Keyed) (hs : P s)
    (hstep : ∀ (ctx : Context) (request : WriteRequest) (s s' : Store), ctx.config = config →
      allowed request → s.Keyed → P s → Change ctx request s s' → P s') : t.Keyed ∧ P t := by
  induction h with
  | start => exact ⟨hk, hs⟩
  | step ctx request _ hc ha ih =>
    refine keeps_perform (P := fun t => t.Keyed ∧ P t) (fun t t' ht hchange => ?_)
      (fun t ht => ht.1) _ ih
    exact ⟨hchange.keyed ht.1, hstep ctx request t t' hc ha ht.1 ht.2 hchange⟩

/-- The store after several requests that one requester makes at one time. -/
def performAll (ctx : Context) (requests : List WriteRequest) (s : Store) : Store :=
  requests.foldl (fun s request => ((perform ctx request).run s).2) s

theorem Run.performAll {allowed : WriteRequest → Prop} {requests : List WriteRequest} {t : Store}
    (h : ∀ request ∈ requests, allowed request) (hr : Run ctx.config allowed s t) :
    Run ctx.config allowed s (performAll ctx requests t) := by
  induction requests generalizing t with
  | nil => exact hr
  | cons request requests ih =>
    rw [List.forall_mem_cons] at h
    exact ih h.2 (.step ctx request hr rfl h.1)

end Catalog.Service
