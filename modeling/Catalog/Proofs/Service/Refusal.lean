import Catalog.Policy.Reading
import Catalog.Proofs.Keyed
import Catalog.Proofs.Service.Running

/-!
# A refused request changes nothing

A request that may change the store and is refused leaves the store as it was, row by row
(`perform_refused`). There are two reasons for it:

* all but one request are *atomic* because what can be refused comes before the first change, and
  what comes after it can only meet a fault (`Atomic.bind`);
* the creation of an entity in a list makes the entity first and may then be refused for its
  relation. It is atomic because the entity was put under an id that was free, so that removing
  this id takes away the entity and nothing else (`remove_insert`).
-/

namespace Catalog

/-- What is removed under the id of a document just stored is that document. -/
theorem Store.remove_insert {s s' : Store} {collection id : String} {doc : Document}
    (h : s.insert collection doc = .ok s') (hid : doc.id? = .ok id) :
    s'.remove collection [id] = s := by
  obtain ⟨free, rows⟩ := insert_eq_ok hid h
  have kept : ∀ r ∈ s.rows, (!(r.collection == collection && [id].contains r.id)) = true := by
    intro r hr
    simpa [← Decidable.not_and_iff_or_not] using free r hr
  rw [remove, rows, List.filter_append, List.filter_eq_self.2 kept]
  simp

namespace Service

variable {α β : Type}

namespace Write

/-- A refusal leaves the store as it was. -/
def Atomic (w : Write α) : Prop :=
  ∀ s r, (w.run s).1 = .error (.refused r) → (w.run s).2 = s

/-- There is no refusal, whatever the store. -/
def Unrefused (w : Write α) : Prop := ∀ s r, (w.run s).1 ≠ .error (.refused r)

theorem Unrefused.atomic {w : Write α} (h : Unrefused w) : Atomic w :=
  fun s r hr => absurd hr (h s r)

theorem unrefused_pure (a : α) : Unrefused (pure a : Write α) :=
  fun _ _ h => nomatch h

theorem Unrefused.bind {w : Write α} {k : α → Write β} (hw : Unrefused w)
    (hk : ∀ a, Unrefused (k a)) : Unrefused (w >>= k) := by
  intro s r h
  rw [run_bind] at h
  rcases hr : w.run s with ⟨e | a, s'⟩
  · rw [hr] at h
    cases (show (.error e : Outcome β) = .error (.refused r) from h)
    exact hw s r (by rw [hr])
  · rw [hr] at h
    exact hk a s' r h

theorem Unrefused.forM {k : α → Write Unit} (hk : ∀ a, Unrefused (k a)) (xs : List α) :
    Unrefused (xs.forM k) := by
  induction xs with
  | nil => exact unrefused_pure ()
  | cons x xs ih => exact (hk x).bind fun _ => ih

/-- A change that can only meet a fault. -/
theorem unrefused_change (f : Store → Except Fault Store) :
    Unrefused (change fun s => (f s : Outcome Store)) := by
  intro s r h
  rw [run_change] at h
  cases hf : f s with
  | error e =>
    rw [hf] at h
    exact nomatch h
  | ok s' =>
    rw [hf] at h
    exact nomatch h

theorem atomic_change (f : Store → Outcome Store) : Atomic (change f) := by
  intro s r h
  rw [run_change] at h ⊢
  cases hf : f s with
  | error e => rfl
  | ok s' =>
    rw [hf] at h
    exact nomatch h

/-- What follows a reading finds the store as it was. -/
theorem Atomic.read_bind (f : Store → Outcome α) {k : α → Write β} (hk : ∀ a, Atomic (k a)) :
    Atomic (read f >>= k) := by
  intro s r h
  rw [run_bind, run_read] at h ⊢
  cases hf : f s with
  | error e => rfl
  | ok a =>
    rw [hf] at h
    exact hk a s r h

/-- What can be refused comes first. -/
theorem Atomic.bind {w : Write α} {k : α → Write β} (hw : Atomic w)
    (hk : ∀ a, Unrefused (k a)) : Atomic (w >>= k) := by
  intro s r h
  rw [run_bind] at h ⊢
  rcases hr : w.run s with ⟨e | a, s'⟩
  · rw [hr] at h
    cases (show (.error e : Outcome β) = .error (.refused r) from h)
    have := hw s r (by rw [hr])
    rwa [hr] at this
  · rw [hr] at h
    exact absurd h (hk a s' r)

theorem Atomic.discard {w : Write α} (hw : Atomic w) : Atomic (discard w) := by
  intro s r h
  rw [run_discard] at h ⊢
  refine hw s r ?_
  rcases hr : (w.run s).1 with e | a
  · rw [hr] at h
    cases h
    rfl
  · rw [hr] at h
    exact nomatch h

end Write

open Write

/-! ## One new record -/

theorem atomic_create (ctx : Context) (f : Family) (payload : Value) (id : String) :
    Atomic (create ctx f payload id) :=
  .read_bind _ fun doc =>
    ((unrefused_change fun store => store.insert (ctx.collection f) doc).bind
      fun _ => unrefused_pure doc).atomic

/-! ## An entity in a list -/

/-- A request for an entity in a list either leaves the store as it was, or leaves the entity
    without its relation, if this meets a fault, or leaves both. An entity whose relation is refused
    is removed again. -/
theorem run_createInList_cases (ctx : Context) (listId : String) (payload : Value)
    (entityId relationId : String) (s : Store) :
    (∃ e, (createInList ctx listId payload entityId relationId).run s = (.error e, s)) ∨
      ∃ entity s₁, (create ctx .entities payload entityId).run s = (.ok entity, s₁) ∧
        ((∃ b, (createInList ctx listId payload entityId relationId).run s =
            (.error (.broken b), s₁)) ∨
          ∃ relation s₂, (create ctx .relations (.object [("_listId", .text listId),
              ("_entityId", .text entityId)]) relationId).run s₁ = (.ok relation, s₂) ∧
            (createInList ctx listId payload entityId relationId).run s = (.ok entity, s₂)) := by
  rw [createInList, run_bind, run_read]
  cases demand ctx s .lists listId with
  | error e => exact .inl ⟨e, rfl⟩
  | ok found =>
    dsimp only
    rw [run_bind]
    rcases run_create_cases ctx .entities payload entityId s with
      ⟨e, -, hrun⟩ | ⟨entity, hnew, ⟨e, -, hrun⟩ | ⟨s₁, hi, hrun⟩⟩
    · exact .inl ⟨e, by rw [hrun]⟩
    · exact .inl ⟨.broken e, by rw [hrun]⟩
    · have id := (newRecord_eq_ok hnew).1.get?_id
      have field : entity.field "_id" = .text entityId := Document.field_of_get? id
      -- The entity was stored under an id that was free, so that removing the id undoes it.
      have undone : s₁.remove (ctx.collection .entities) [entityId] = s :=
        Store.remove_insert hi (Document.id?_of_text id)
      rw [hrun]
      dsimp only
      rw [field, run_bind, run_tryCatch, run_bind]
      rcases run_create_cases ctx .relations (.object [("_listId", .text listId),
          ("_entityId", .text entityId)]) relationId s₁ with
        ⟨r | b, -, hr⟩ | ⟨relation, -, ⟨b, -, hr⟩ | ⟨s₂, -, hr⟩⟩
      · refine .inl ⟨.refused r, ?_⟩
        rw [hr]
        exact congrArg (Prod.mk _) undone
      · exact .inr ⟨entity, s₁, rfl, .inl ⟨b, by rw [hr]; rfl⟩⟩
      · exact .inr ⟨entity, s₁, rfl, .inl ⟨b, by rw [hr]; rfl⟩⟩
      · exact .inr ⟨entity, s₁, rfl, .inr ⟨relation, s₂, hr, by rw [hr]; rfl⟩⟩

/-- The entity made for a list is removed again if its relation is refused. -/
theorem atomic_createInList (ctx : Context) (listId : String) (payload : Value)
    (entityId relationId : String) :
    Atomic (createInList ctx listId payload entityId relationId) := by
  intro s r h
  rcases run_createInList_cases ctx listId payload entityId relationId s with
    ⟨e, hrun⟩ | ⟨entity, s₁, -, ⟨b, hrun⟩ | ⟨relation, s₂, -, hrun⟩⟩
  · rw [hrun]
  · rw [hrun] at h
    cases h
  · rw [hrun] at h
    cases h

/-! ## All requests -/

theorem atomic_createChild (ctx : Context) (f : Family) (parentId : String) (payload : Value)
    (id : String) : Atomic (createChild ctx f parentId payload id) :=
  .read_bind _ fun payload => atomic_create ctx f payload id

theorem atomic_save (ctx : Context) (f : Family) (id : String)
    (prepare : Document → Outcome Document) : Atomic (save ctx f id prepare) :=
  .read_bind _ fun doc =>
    ((unrefused_change fun store => store.replace (ctx.collection f) doc).bind
      fun _ => unrefused_pure doc).atomic

/-- All documents are checked before the first is written. -/
theorem atomic_updateAll (ctx : Context) (f : Family) (payload query : Value)
    (extra : Condition) : Atomic (updateAll ctx f payload query extra) :=
  .read_bind _ fun docs =>
    ((Unrefused.forM (fun doc => unrefused_change fun store =>
      store.replace (ctx.collection f) doc) docs).bind fun _ => unrefused_pure docs.length).atomic

theorem atomic_updateListEntities (ctx : Context) (listId : String) (payload query : Value) :
    Atomic (updateListEntities ctx listId payload query) := by
  refine .read_bind _ fun ids => ?_
  split
  · exact (unrefused_pure 0).atomic
  · exact atomic_updateAll ctx .entities payload query _

theorem atomic_deleteListEntities (ctx : Context) (listId : String) (query : Value) :
    Atomic (deleteListEntities ctx listId query) :=
  .read_bind _ fun ids =>
    (atomic_change (withoutRecords ctx .entities ids)).bind fun _ => unrefused_pure ids.length

theorem atomic_perform (ctx : Context) (request : WriteRequest) :
    Atomic (perform ctx request) := by
  cases request with
  | create f payload id => exact (atomic_create ctx f payload id).discard
  | createChild f parentId payload id =>
    exact (atomic_createChild ctx f parentId payload id).discard
  | createInList listId payload entityId relationId =>
    exact (atomic_createInList ctx listId payload entityId relationId).discard
  | replace f id payload => exact (atomic_save ctx f id _).discard
  | update f id payload => exact (atomic_save ctx f id _).discard
  | updateAll f payload query => exact (atomic_updateAll ctx f payload query _).discard
  | updateListEntities listId payload query =>
    exact (atomic_updateListEntities ctx listId payload query).discard
  | delete f id => exact atomic_change _
  | deleteListEntities listId query =>
    exact (atomic_deleteListEntities ctx listId query).discard

/-- A request that is refused leaves the store as it was: the same documents in the same order. -/
theorem perform_refused (ctx : Context) (request : WriteRequest) (store : Store) (r : Refusal)
    (h : ((perform ctx request).run store).1 = .error (.refused r)) :
    ((perform ctx request).run store).2 = store :=
  atomic_perform ctx request store r h

/-- An installation that has no room for relations. -/
def withoutRelations : Configuration :=
  { Configuration.standard with
    policy := fun f =>
      { Policy.standard f with limitRules := if f = .relations then [⟨"", 0⟩] else [] } }

/-- A store with one list, which everybody may read. -/
def oneList : Store :=
  { rows := [⟨"List", "l", [("_id", .text "l"), ("_visibility", .text "public")]⟩] }

/-- An entity is made for a list, and removed again when its relation is refused. -/
theorem createInList_refused_without_relations :
    let ctx : Context := { config := withoutRelations, now := ⟨.first, 0⟩ }
    let request := WriteRequest.createInList "l" (.object [("_name", .text "E")]) "e" "r"
    ∃ r, ((perform ctx request).run oneList).1 = .error (.refused r) ∧
      r.code = "RELATION-LIMIT-EXCEEDED" ∧ ((perform ctx request).run oneList).2 = oneList := by
  intro ctx request
  have code : (refusal? ((perform ctx request).run oneList).1).map Refusal.code =
      some "RELATION-LIMIT-EXCEEDED" := by decide +kernel
  obtain ⟨r, hr, hcode⟩ := Option.map_eq_some_iff.1 code
  have hr := refusal?_eq_some.1 hr
  exact ⟨r, hr, hcode, perform_refused ctx request oneList r hr⟩

end Service

end Catalog
