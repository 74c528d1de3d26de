import Catalog.Plan.Load
import Catalog.Plan.Shape
import Catalog.Plan.Slots

/-!
# Lookups and includes

A *lookup* puts records in the place of the references in a field; an *include* adds to each
document the records that name it. Both are done for a whole page at once: the records are loaded
family by family in one pass, then shared out to the places they belong to and shaped there by the
filter of the lookup or include. What is looked up or included within them is then resolved for all
of them at once.

References that name no record that may be read are dropped. Lookups cannot include anything.
-/

namespace Catalog

/-- How a page is changed in place. -/
abbrev PageChange := List Document → Outcome (List Document)

/-! ## Lookups -/

/-- The records of one family that references name, each with the reference that names it. -/
def recordsNamed (ctx : Context) (store : Store) (scope : Filter) (refs : List Reference)
    (f : Family) : Except Fault (List (Reference × Document)) := do
  let ids := ((refs.filter fun r => r.family == f).map Reference.id).eraseDups
  if ids.isEmpty then return []
  let docs ← recordsWith ctx store f scope "_id" (ids.map .text)
  return docs.filterMap fun d =>
    match d.get? "_id" with
    | some (.text id) => some (⟨f, id⟩, d)
    | _ => none

/-- The records that references name, each with the reference that names it. -/
def recordsOf (ctx : Context) (store : Store) (scope : Filter) (refs : List Reference) :
    Except Fault (List (Reference × Document)) := do
  return (← Family.all.mapM (recordsNamed ctx store scope refs)).flatten

/-- A slot with the stored records that its new value shows, each with the reference that names
    it. -/
abbrev FilledSlot := Value × List (Reference × Document)

/-- The slots of a lookup in a page, filled. -/
def lookupSlots (ctx : Context) (store : Store) (path : String) (scope : Filter)
    (page : List Document) : Except Fault (List FilledSlot) := do
  let slots := page.flatMap (Document.slots path)
  let found ← recordsOf ctx store scope (slots.flatMap slotReferences)
  return slots.map fun v =>
    (v, slotShown v <| scope.page Prod.snd <|
      (slotReferences v).filterMap fun r => (found.lookup r).map fun d => (r, d))

/-- What a lookup shows of the records in a slot. -/
def FilledSlot.shown (scope : Filter) (slot : FilledSlot) : List Document :=
  slot.2.map fun record => scope.shown record.2

/-- Resolves a lookup for a page; `within` resolves what is looked up in the records found. -/
def lookupWith (ctx : Context) (store : Store) (within : PageChange) (path : String)
    (scope : Filter) (page : List Document) : Outcome (List Document) := do
  let slots ← lookupSlots ctx store path scope page
  if slots.isEmpty then return page
  let shown := slots.map (FilledSlot.shown scope)
  let resolved ← within shown.flatten
  let parts := pieces (shown.map List.length) resolved
  return Document.refillAll path
    ((slots.zip parts).map fun (slot, docs) => slotValue slot.1 docs) page

mutual

/-- Resolves lookups for a page, one after the other. -/
def lookupAll (ctx : Context) (store : Store) : List (Scoped Filter) → PageChange
  | [], page => .ok page
  | l :: ls, page => do lookupAll ctx store ls (← lookupOne ctx store l page)

/-- Resolves a lookup for a page. -/
def lookupOne (ctx : Context) (store : Store) : Scoped Filter → PageChange
  | ⟨path, scope⟩, page =>
    lookupWith ctx store (lookupIn ctx store scope) path scope page

/-- Resolves what a filter looks up in a page. -/
def lookupIn (ctx : Context) (store : Store) : Filter → PageChange
  | ⟨_, _, _, _, _, lookups, _, _⟩, page => lookupAll ctx store lookups page

end

/-! ## Includes -/

/-- The value of a field that documents are told apart by. One that cannot be a key is a fault. -/
def keyAt (field : String) (doc : Document) : Except Fault Value :=
  let v := Value.orNull (doc.get? field)
  if v.isKey then .ok v else .error .notAKey

/-- The values of a list without repetition. -/
def distinctKeys (vs : List Value) : List Value := vs.eraseDupsBy Value.same

/-- Adds records to those documents of a page that have an id. -/
def attach (name : String) : List (List Document) → List Document → List Document
  | _, [] => []
  | [], docs => docs
  | group :: groups, doc :: docs =>
    if doc.has "_id" then doc.put name (.array (group.map .object)) :: attach name groups docs
    else doc :: attach name (group :: groups) docs

/-- The family of what is included under a name with the records of a family, and the stored
    records of it for each document of a page that has an id. -/
def includeGroups (ctx : Context) (store : Store) (f : Family) (name : String) (scope : Filter)
    (page : List Document) : Outcome (Family × List (List Document)) := do
  match f.include? name with
  | none => giveUp .shape
  | some (target, via) =>
    let ids ← ((page.filter fun d => d.has "_id").mapM (keyAt "_id") : Except Fault _)
    let children ← recordsWith ctx store target scope via (distinctKeys ids)
    let keyed ← (children.mapM (fun d => do return (← keyAt via d, d)) : Except Fault _)
    checkIncludes target scope.includes
    return (target, ids.map fun own =>
      scope.page id ((keyed.filter fun (key, _) => key.same own).map Prod.snd))

/-- Resolves an include of a family's records for a page; `within` resolves what is looked up and
    included in these. -/
def includeWith (ctx : Context) (store : Store) (within : Family → PageChange) (f : Family)
    (name : String) (scope : Filter) (page : List Document) : Outcome (List Document) := do
  let (target, groups) ← includeGroups ctx store f name scope page
  let shown := groups.map (List.map scope.shown)
  let resolved ← within target shown.flatten
  return attach name (pieces (shown.map List.length) resolved) page

mutual

/-- Resolves includes for a page of a family's records, one after the other. A page of documents
    without ids is left as it is. -/
def includeAll (ctx : Context) (store : Store) (f : Family) : List (Scoped Filter) → PageChange
  | [], page => .ok page
  | i :: is, page =>
    if page.any fun d => d.has "_id" then do
      includeAll ctx store f is (← includeOne ctx store f i page)
    else .ok page

/-- Resolves an include for a page of a family's records. -/
def includeOne (ctx : Context) (store : Store) (f : Family) : Scoped Filter → PageChange
  | ⟨name, scope⟩, page =>
    includeWith ctx store (fun target => includeIn ctx store target scope) f name scope page

/-- Resolves what a filter looks up and includes in a page of a family's records. -/
def includeIn (ctx : Context) (store : Store) (f : Family) : Filter → PageChange
  | ⟨_, _, _, _, _, lookups, includes, _⟩, page => do
    includeAll ctx store f includes (← lookupAll ctx store lookups page)

end

end Catalog
