import Catalog.Proofs.Record.Kept
import Catalog.Service.Request

/-!
# Running requests that write

What a request that may change the store gives, and the store that it leaves, step by step. Reading
leaves the store as it is (`run_read`); a change that cannot be worked out does not happen
(`run_change`); what follows a failure is not run (`run_bind`). A new record has passed all checks
(`newRecord_eq_ok`), for a relation also that of the room in its list (`room_of_newRecord`), and is
stored as it is answered (`run_create_ok`).
-/

namespace Catalog.Service

namespace Write

variable {α β : Type}

theorem run_bind (w : Write α) (k : α → Write β) (s : Store) :
    (w >>= k).run s =
      match w.run s with
      | (.ok a, s') => (k a).run s'
      | (.error e, s') => (.error e, s') := by
  rw [ExceptT.run_bind]
  change StateT.bind _ _ s = _
  rcases h : w.run s with ⟨_ | a, s'⟩
  · simp only [StateT.bind, h]
    rfl
  · simp only [StateT.bind, h]
    rfl

theorem run_read (f : Store → Outcome α) (s : Store) : (read f).run s = (f s, s) := by
  have asked : (get : Write Store).run s = (.ok s, s) := rfl
  rw [read, run_bind, asked]
  dsimp only
  cases f s <;> rfl

theorem run_change (f : Store → Outcome Store) (s : Store) :
    (change f).run s =
      match f s with
      | .ok s' => (.ok (), s')
      | .error e => (.error e, s) := by
  rw [change, run_bind, run_read]
  cases f s <;> rfl

theorem run_tryCatch (w : Write α) (handler : Failure → Write α) (s : Store) :
    (tryCatch w handler).run s =
      match w.run s with
      | (.ok a, s') => (.ok a, s')
      | (.error e, s') => (handler e).run s' := by
  unfold ExceptT.run
  simp only [tryCatch, tryCatchThe, MonadExceptOf.tryCatch, ExceptT.tryCatch, ExceptT.mk, bind,
    StateT.bind]
  rcases w s with ⟨_ | a, s'⟩ <;> rfl

/-- Leaving out the answer of a request changes neither its failure nor what it does. -/
theorem run_discard (w : Write α) (s : Store) :
    (discard w).run s = ((w.run s).1.map fun _ => (), (w.run s).2) := by
  change (w >>= fun _ => pure ()).run s = _
  rw [run_bind]
  rcases w.run s with ⟨_ | a, s'⟩ <;> rfl

theorem run_eq_of_answer {w : Write α} {s : Store} {a : α} (h : (w.run s).1.toOption = some a) :
    w.run s = (.ok a, (w.run s).2) := Prod.ext (toOption_eq_some.1 h) rfl

theorem exists_run_eq {w : Write α} {s : Store} {a : α} (h : (w.run s).1.toOption = some a) :
    ∃ s', w.run s = (.ok a, s') := ⟨_, run_eq_of_answer h⟩

/-- What is worked out on the store as it is, is then written to it. -/
theorem run_write (work : Store → Outcome α) (write : α → Store → Outcome Store)
    (answer : α → β) (s : Store) :
    (read work >>= fun a => change (write a) >>= fun _ => pure (answer a) : Write β).run s =
      match work s with
      | .error e => (.error e, s)
      | .ok a =>
        match write a s with
        | .error e => (.error e, s)
        | .ok s' => (.ok (answer a), s') := by
  rw [run_bind, run_read]
  cases work s with
  | error e => rfl
  | ok a =>
    dsimp only
    rw [run_bind, run_change]
    cases write a s <;> rfl

end Write

/-! ## New records -/

variable {ctx : Context} {s s' : Store} {f : Family}

theorem members_eq_ok {payload : Value} {body : Document} (h : members payload = .ok body) :
    payload = .object body := by
  cases payload with
  | object members =>
    rw [Service.members] at h
    split at h
    · cases h
      rfl
    · cases h
  | _ => cases h

/-- A new document that has passed the checks of its kind and shape, and of what it refers to. -/
structure Prepared (ctx : Context) (s : Store) (f : Family) (payload : Value) (id : String)
    (doc : Document) : Prop where
  /-- It is made of the members of the payload. -/
  made : ∃ body now, members payload = .ok body ∧ ctx.instant = .ok now ∧
    Record.create (ctx.config.policy f) body ctx.requester now id = .ok doc
  /-- Its reference fields name stored records. -/
  targets : ∃ targets, referenceTargets ctx s f doc = .ok targets
  /-- Its references meet the constraints. -/
  references : checkReferences ctx.config s (ctx.config.policy f) doc = .ok ()

/-- A new record is prepared, and keeps all rules. -/
theorem newRecord_eq_ok {payload : Value} {id : String} {doc : Document}
    (h : newRecord ctx s f payload id = .ok doc) :
    Prepared ctx s f payload id doc ∧ checkRules ctx s f doc .null = .ok () := by
  dsimp only [newRecord] at h
  obtain ⟨body, hbody, h⟩ := bind_eq_ok.1 h
  obtain ⟨now, hnow, h⟩ := bind_eq_ok.1 h
  obtain ⟨made, hmade, h⟩ := bind_eq_ok.1 h
  obtain ⟨targets, htargets, h⟩ := bind_eq_ok.1 h
  obtain ⟨⟨⟩, hreferences, h⟩ := bind_eq_ok.1 h
  obtain ⟨⟨⟩, hrules, h⟩ := bind_eq_ok.1 h
  -- The room in a list is checked last, and does not change the document.
  have same : made = doc := by
    split at h
    · split at h
      · obtain ⟨-, -, h⟩ := bind_eq_ok.1 h
        cases h
        rfl
      · cases h
    · cases h
      rfl
  subst same
  exact ⟨⟨⟨body, now, lift_eq_ok.1 hbody, lift_eq_ok.1 hnow, hmade⟩, ⟨targets, htargets⟩,
    hreferences⟩, hrules⟩

/-- The first of the targets of a relation is the list that it names. -/
theorem lookup_of_referenceTargets {doc : Document} {targets : List (String × Document)}
    (h : referenceTargets ctx s .relations doc = .ok targets) :
    ∃ list, s.fetch? (ctx.collection .lists) (doc.field "_listId").display = some list ∧
      targets.lookup "_listId" = some list := by
  dsimp only [referenceTargets] at h
  split at h
  · cases h
  · rw [Family.references, List.mapM_cons] at h
    obtain ⟨target, htarget, h⟩ := bind_eq_ok.1 h
    obtain ⟨rest, -, h⟩ := bind_eq_ok.1 h
    cases h
    dsimp only at htarget
    split at htarget
    · next list found =>
      cases htarget
      exact ⟨list, found, rfl⟩
    · cases htarget

/-- The list that a new relation names has had room for one more entity. -/
theorem room_of_newRecord {payload : Value} {id : String} {doc : Document}
    (h : newRecord ctx s .relations payload id = .ok doc) :
    ∃ list, s.fetch? (ctx.collection .lists) (doc.field "_listId").display = some list ∧
      checkListRoom ctx s (ctx.config.policy .relations) list = .ok () := by
  dsimp only [newRecord] at h
  obtain ⟨body, -, h⟩ := bind_eq_ok.1 h
  obtain ⟨now, -, h⟩ := bind_eq_ok.1 h
  obtain ⟨made, -, h⟩ := bind_eq_ok.1 h
  obtain ⟨targets, htargets, h⟩ := bind_eq_ok.1 h
  obtain ⟨⟨⟩, -, h⟩ := bind_eq_ok.1 h
  obtain ⟨⟨⟩, -, h⟩ := bind_eq_ok.1 h
  obtain ⟨list, found, named⟩ := lookup_of_referenceTargets htargets
  rw [if_pos rfl, named] at h
  obtain ⟨⟨⟩, room, h⟩ := bind_eq_ok.1 h
  cases h
  exact ⟨list, found, room⟩

/-- There is a new record exactly if it is prepared, keeps all rules, and the list that it names, if
    it is a relation, has room for one more entity. -/
theorem newRecord_eq_ok_iff {payload : Value} {id : String} {doc : Document} :
    newRecord ctx s f payload id = .ok doc ↔
      Prepared ctx s f payload id doc ∧ checkRules ctx s f doc .null = .ok () ∧
        (f = .relations → ∃ list,
          s.fetch? (ctx.collection .lists) (doc.field "_listId").display = some list ∧
            checkListRoom ctx s (ctx.config.policy .relations) list = .ok ()) := by
  constructor
  · intro h
    obtain ⟨hp, hrules⟩ := newRecord_eq_ok h
    refine ⟨hp, hrules, fun hf => ?_⟩
    subst hf
    exact room_of_newRecord h
  · rintro ⟨hp, hrules, hroom⟩
    obtain ⟨body, now, hbody, hnow, hmade⟩ := hp.made
    obtain ⟨targets, htargets⟩ := hp.targets
    dsimp only [newRecord]
    rw [hbody, lift_ok, ok_bind, hnow, lift_ok, ok_bind, hmade, ok_bind, htargets, ok_bind,
      hp.references, ok_bind, hrules, ok_bind]
    split
    · next hf =>
      subst hf
      obtain ⟨list, found, room⟩ := hroom rfl
      obtain ⟨list', found', named⟩ := lookup_of_referenceTargets htargets
      cases found.symm.trans found'
      rw [named]
      exact bind_eq_ok.2 ⟨(), room, rfl⟩
    · rfl

theorem Prepared.get?_id {payload : Value} {id : String} {doc : Document}
    (h : Prepared ctx s f payload id doc) : doc.get? "_id" = some (.text id) := by
  obtain ⟨body, now, -, -, hmade⟩ := h.made
  exact Record.get?_id_create hmade

theorem get?_id_of_newRecord {payload : Value} {id : String} {doc : Document}
    (h : newRecord ctx s f payload id = .ok doc) : doc.get? "_id" = some (.text id) :=
  (newRecord_eq_ok h).1.get?_id

/-- A request for a new record is refused, or meets a fault, while it works the record out or when
    this is to be stored, and then changes nothing; or the record is stored. -/
theorem run_create_cases (ctx : Context) (f : Family) (payload : Value) (id : String) (s : Store) :
    (∃ e, newRecord ctx s f payload id = .error e ∧
        (create ctx f payload id).run s = (.error e, s)) ∨
      ∃ doc, newRecord ctx s f payload id = .ok doc ∧
        ((∃ e, s.insert (ctx.collection f) doc = .error e ∧
            (create ctx f payload id).run s = (.error (.broken e), s)) ∨
          ∃ s', s.insert (ctx.collection f) doc = .ok s' ∧
            (create ctx f payload id).run s = (.ok doc, s')) := by
  have run := Write.run_write (fun store => newRecord ctx store f payload id)
    (fun doc store => store.insert (ctx.collection f) doc) (fun doc => doc) s
  rw [create, run]
  cases newRecord ctx s f payload id with
  | error e => exact .inl ⟨e, rfl, rfl⟩
  | ok doc =>
    refine .inr ⟨doc, rfl, ?_⟩
    dsimp only
    cases s.insert (ctx.collection f) doc with
    | error e => exact .inl ⟨e, rfl, rfl⟩
    | ok s' => exact .inr ⟨s', rfl, rfl⟩

/-- A request for a new record answers with the new record, unless this cannot be stored. -/
theorem run_create_eq_ok_iff {payload : Value} {id : String} {doc : Document} :
    ((create ctx f payload id).run s).1 = .ok doc ↔
      newRecord ctx s f payload id = .ok doc ∧ ∃ s', s.insert (ctx.collection f) doc = .ok s' := by
  rcases run_create_cases ctx f payload id s with
    ⟨e, hn, hrun⟩ | ⟨made, hn, ⟨e, hi, hrun⟩ | ⟨s', hi, hrun⟩⟩
  · rw [hrun, hn]
    exact iff_of_false (fun h => by cases h) fun h => by cases h.1
  · rw [hrun, hn]
    refine iff_of_false (fun h => by cases h) fun ⟨hmade, s', hstored⟩ => ?_
    cases hmade
    cases hi.symm.trans hstored
  · rw [hrun, hn]
    exact ⟨fun h => by cases h; exact ⟨rfl, s', hi⟩, fun h => h.1⟩

/-- What a request for a new record answers is a new record, and it is stored. -/
theorem run_create_ok {payload : Value} {id : String} {doc : Document}
    (h : (create ctx f payload id).run s = (.ok doc, s')) :
    newRecord ctx s f payload id = .ok doc ∧ s.insert (ctx.collection f) doc = .ok s' := by
  rcases run_create_cases ctx f payload id s with
    ⟨e, -, hrun⟩ | ⟨made, hn, ⟨e, -, hrun⟩ | ⟨kept, hi, hrun⟩⟩
  · cases hrun.symm.trans h
  · cases hrun.symm.trans h
  · cases hrun.symm.trans h
    exact ⟨hn, hi⟩

end Catalog.Service
