import Catalog.Proofs.Plan.Alone
import Catalog.Proofs.Plan.Order
import Catalog.Proofs.Plan.Slots

/-!
# Lookups, one document after the other

Lookups are resolved for a page at once: the references of all its slots are gathered, the records
are loaded in one pass, and what is looked up within them is resolved for all of them together.
What a lookup *means* is said for one slot of one document (`resolvedSlot`): each reference in it
stands for the record that a plan for it alone finds, these are shaped by the scope, and each is
resolved by the lookups of the scope on its own. Doing so in all slots of a document, for one lookup
after the other, is `lookedUp`.

Both are the same for any page (`lookupAll_eq_mapM`). The proof follows the nesting of the scopes.
For one lookup (`lookupWith_eq_mapM`) it takes that the records found for all references together
are those found alone, that sorting and cutting reads nothing but the records, and that what is
resolved for all records at once is handed out again in the pieces that it came from.
-/

namespace Catalog

variable {ctx : Context} {store : Store} {scope : Filter}

/-! ## The meaning of a lookup -/

/-- The new value of a slot, resolved on its own; `within` resolves a record that it shows. -/
def resolvedSlot (ctx : Context) (store : Store) (within : Document → Outcome Document)
    (scope : Filter) (v : Value) : Outcome (Option Value) := do
  let found ← (slotReferences v).mapM (recordAlone ctx store scope)
  let shown := (slotShown v (scope.page id found.flatten)).map scope.shown
  return slotValue v (← shown.mapM within)

mutual

/-- A document with lookups resolved, one after the other. -/
def lookedUp (ctx : Context) (store : Store) : List (Scoped Filter) → Document → Outcome Document
  | [], doc => .ok doc
  | l :: ls, doc => do lookedUp ctx store ls (← lookedUpOne ctx store l doc)

/-- A document with a lookup resolved in each of its slots. -/
def lookedUpOne (ctx : Context) (store : Store) : Scoped Filter → Document → Outcome Document
  | ⟨path, scope⟩, doc =>
    doc.changeSlots (resolvedSlot ctx store (lookedUpIn ctx store scope) scope) path

/-- A document with the lookups of a filter resolved. -/
def lookedUpIn (ctx : Context) (store : Store) : Filter → Document → Outcome Document
  | ⟨_, _, _, _, _, lookups, _, _⟩, doc => lookedUp ctx store lookups doc

end

/-! ## One slot -/

theorem slotShown_map {α β : Type} (g : α → β) (v : Value) (xs : List α) :
    slotShown v (xs.map g) = (slotShown v xs).map g := by
  cases v <;> first | rfl | exact List.map_take.symm

/-- A slot filled with the records found for its references. -/
def FilledSlot.ofFound (scope : Filter) (found : List (Reference × Document)) (v : Value) :
    FilledSlot :=
  (v, slotShown v <| scope.page Prod.snd <|
    (slotReferences v).filterMap fun r => (found.lookup r).map fun d => (r, d))

/-- What a slot shows is told by what its references find alone. -/
theorem FilledSlot.shown_ofFound (scope : Filter) (found : List (Reference × Document))
    (v : Value) :
    (ofFound scope found v).shown scope = (slotShown v (scope.page id
      ((slotReferences v).map fun r => (found.lookup r).toList).flatten)).map scope.shown := by
  have records : ((slotReferences v).map fun r => (found.lookup r).toList).flatten =
      ((slotReferences v).filterMap fun r =>
        (found.lookup r).map fun d => (r, d)).map Prod.snd := by
    induction slotReferences v with
    | nil => rfl
    | cons r refs ih =>
      rw [List.map_cons, List.flatten_cons, ih]
      cases h : found.lookup r <;> simp [h]
  rw [records, Filter.page_map, slotShown_map, List.map_map]
  rfl

/-- Where all references find something or nothing, a slot is resolved by resolving what it
    shows. -/
theorem resolvedSlot_eq (hk : store.Keyed) {refs : List Reference}
    {found : List (Reference × Document)} (h : recordsOf ctx store scope refs = .ok found)
    (within : Document → Outcome Document) {v : Value} (hv : ∀ r ∈ slotReferences v, r ∈ refs) :
    resolvedSlot ctx store within scope v =
      ((FilledSlot.ofFound scope found v).shown scope).mapM within >>= fun docs =>
        .ok (slotValue v docs) := by
  have alone : (slotReferences v).mapM (recordAlone ctx store scope) =
      .ok ((slotReferences v).map fun r => (found.lookup r).toList) :=
    SameResult.mapM_of_forall fun r hr => recordAlone_of_recordsOf hk h (hv r hr)
  rw [resolvedSlot, alone, ok_bind, FilledSlot.shown_ofFound]
  rfl

/-! ## A page -/

theorem pieces_flatten {α : Type} (xss : List (List α)) :
    pieces (xss.map List.length) xss.flatten = xss := by
  induction xss with
  | nil => rfl
  | cons xs xss ih =>
    rw [List.map_cons, List.flatten_cons, pieces, List.take_left, List.drop_left, ih]

/-- A lookup that has loaded its records resolves what all slots show at once and hands it out. -/
theorem lookupWith_eq {path : String} {page : List Document} {found : List (Reference × Document)}
    {within : PageChange}
    (h : recordsOf ctx store scope
      ((page.flatMap (Document.slots path)).flatMap slotReferences) = .ok found) :
    lookupWith ctx store within path scope page =
      let slots := (page.flatMap (Document.slots path)).map (FilledSlot.ofFound scope found)
      if slots.isEmpty then .ok page
      else
        within (slots.map (FilledSlot.shown scope)).flatten >>= fun resolved =>
          .ok (Document.refillAll path ((slots.zip
            (pieces ((slots.map (FilledSlot.shown scope)).map List.length) resolved)).map
              fun p => slotValue p.1.1 p.2) page) := by
  rw [lookupWith, lookupSlots, h]
  rfl

/-- Resolving a lookup for a page is resolving it for each document. -/
theorem lookupWith_eq_mapM (hk : store.Keyed) {within : PageChange}
    {one : Document → Outcome Document} (hw : ∀ page, SameResult (within page) (page.mapM one))
    (path : String) (scope : Filter) (page : List Document) :
    SameResult (lookupWith ctx store within path scope page)
      (page.mapM fun doc => doc.changeSlots (resolvedSlot ctx store one scope) path) := by
  refine SameResult.trans ?_ (Document.changeSlots_all _ path page).symm
  have refs (v : Value) (hv : v ∈ page.flatMap (Document.slots path)) : ∀ r ∈ slotReferences v,
      r ∈ (page.flatMap (Document.slots path)).flatMap slotReferences :=
    fun r hr => List.mem_flatMap.2 ⟨v, hv, hr⟩
  cases hf : recordsOf ctx store scope
      ((page.flatMap (Document.slots path)).flatMap slotReferences) with
  | error e =>
    rw [lookupWith, lookupSlots, hf]
    refine .of_fail (fun out h => by cases h) fun out h => ?_
    -- If each slot could be resolved, all references would find something or nothing.
    obtain ⟨news, hnews, -⟩ := bind_eq_ok.1 h
    obtain ⟨found, hfound⟩ := exists_recordsOf hk fun r hr => by
      obtain ⟨v, hv, hr⟩ := List.mem_flatMap.1 hr
      obtain ⟨new, hnew⟩ := SameResult.exists_of_mapM hnews hv
      obtain ⟨founds, hfounds, -⟩ := bind_eq_ok.1 hnew
      exact SameResult.exists_of_mapM hfounds hr
    rw [hf] at hfound
    cases hfound
  | ok found =>
    rw [lookupWith_eq hf]
    generalize page.flatMap (Document.slots path) = vs at hf refs ⊢
    have slots : SameResult (vs.mapM (resolvedSlot ctx store one scope))
        ((vs.map fun v => (FilledSlot.ofFound scope found v).shown scope).mapM (List.mapM one) >>=
          fun parts => .ok (List.zipWith slotValue vs parts)) := by
      rw [List.mapM_map]
      refine .trans (.mapM fun v hv => .of_eq (resolvedSlot_eq hk hf one (refs v hv))) (.of_eq ?_)
      exact SameResult.mapM_zipWith _ slotValue vs
    refine SameResult.trans ?_ (slots.symm.bind fun _ _ => .refl _)
    cases vs with
    | nil => exact .of_eq (congrArg Except.ok (Document.refillAll_nil path page).symm)
    | cons v vs =>
      dsimp only
      rw [if_neg (by simp), List.map_map]
      refine ((hw _).bind fun _ _ => .refl _).trans ?_
      rw [SameResult.mapM_flatten, bind_assoc, bind_assoc]
      refine (SameResult.refl _).bind fun parts hparts => .of_eq ?_
      -- What is resolved for all records comes back in the pieces that it was made of.
      rw [ok_bind, ok_bind, ← SameResult.lengths_of_mapM hparts, pieces_flatten,
        List.map_zip_eq_zipWith, List.zipWith_map_left]
      rfl

mutual

/-- Resolving lookups for a page is resolving them for each document. -/
theorem lookupAll_eq_mapM (hk : store.Keyed) : ∀ (ls : List (Scoped Filter)) (page : List Document),
    SameResult (lookupAll ctx store ls page) (page.mapM (lookedUp ctx store ls))
  | [], page => by
    rw [lookupAll, SameResult.mapM_of_forall (g := id) fun doc _ => by rw [lookedUp, id],
      List.map_id]
    exact .refl _
  | l :: ls, page => by
    rw [lookupAll]
    refine ((lookupOne_eq_mapM hk l page).bind fun page' _ =>
      lookupAll_eq_mapM hk ls page').trans ?_
    refine .trans (SameResult.mapM_bind _ _ page).symm (.mapM fun doc _ => ?_)
    rw [lookedUp]
    exact .refl _

theorem lookupOne_eq_mapM (hk : store.Keyed) : ∀ (l : Scoped Filter) (page : List Document),
    SameResult (lookupOne ctx store l page) (page.mapM (lookedUpOne ctx store l))
  | ⟨path, scope⟩, page => by
    rw [lookupOne]
    refine (lookupWith_eq_mapM hk (lookupIn_eq_mapM hk scope) path scope page).trans ?_
    refine .mapM fun doc _ => ?_
    rw [lookedUpOne]
    exact .refl _

theorem lookupIn_eq_mapM (hk : store.Keyed) : ∀ (scope : Filter) (page : List Document),
    SameResult (lookupIn ctx store scope page) (page.mapM (lookedUpIn ctx store scope))
  | ⟨_, _, _, _, _, lookups, _, _⟩, page => by
    rw [lookupIn]
    refine (lookupAll_eq_mapM hk lookups page).trans (.mapM fun doc _ => ?_)
    rw [lookedUpIn]
    exact .refl _

end

end Catalog
