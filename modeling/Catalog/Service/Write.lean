import Catalog.Rule.Limits
import Catalog.Rule.References
import Catalog.Service.Read
import Catalog.Text.Wildcard
import Catalog.Value.Depth

/-!
# Writing records

The requests that write. Each first works out what is to be written, on the store as it is, and
checks it against all rules; only then it changes the store. So a request that is refused changes
nothing. One request, the creation of an entity in a list, makes two records; if the second is
refused, the first is removed again.

New ids are given from outside, one for each record that is made. A payload that is no object or
nested too deep is a fault, but only when its members are needed.
-/

namespace Catalog.Service

/-- A request that may change the store. -/
abbrev Write := ExceptT Failure (StateM Store)

/-- What can be worked out from the store as it is. -/
def Write.read {α : Type} (f : Store → Outcome α) : Write α := do
  match f (← get) with
  | .ok a => return a
  | .error e => throw e

/-- Changes the store to what can be worked out from it. -/
def Write.change (f : Store → Outcome Store) : Write Unit := do set (← Write.read f)

/-- How deep a payload may be nested. -/
def maxPayloadDepth : Nat := 495

/-- The members of a payload. -/
def members (payload : Value) : Except Fault Document :=
  match payload with
  | .object doc => if payload.depth ≤ maxPayloadDepth then .ok doc else .error .tooDeep
  | _ => .error .shape

/-- Whether a payload names a key: as that of a member, as an item, or within a text. -/
def mentions (key : String) (payload : Value) : Except Fault Bool :=
  match payload with
  | .object doc => .ok (Document.has key doc)
  | .array items => .ok (items.any (Value.same (.text key)))
  | .text s => .ok (Text.Wildcard.matched false key s)
  | _ => .error .shape

/-! ## Creation -/

/-- The stored records that the reference fields of a document name, each with the field. All of
    them must name one. -/
def referenceTargets (ctx : Context) (store : Store) (f : Family) (doc : Document) :
    Outcome (List (String × Document)) := do
  let missing := (f.references.map Prod.fst).filter fun field => !(doc.field field).truthy
  if !missing.isEmpty then
    if f = .relations then refuse .endsMissing else refuse (.targetMissing f missing)
  f.references.mapM fun (field, target) => do
    let id := (doc.field field).display
    match store.fetch? (ctx.collection target) id with
    | some d => return (field, d)
    | none => refuse (.notFound target id)

/-- Refuses a document that breaks a limit or is not unique. -/
def checkRules (ctx : Context) (store : Store) (f : Family) (doc : Document) (exclude : Value) :
    Outcome Unit := do
  checkLimits ctx store (ctx.config.policy f) doc exclude
  checkUniqueness ctx store (ctx.config.policy f) doc exclude

/-- The document to store for a new record, checked against all rules. -/
def newRecord (ctx : Context) (store : Store) (f : Family) (payload : Value) (id : String) :
    Outcome Document := do
  let p := ctx.config.policy f
  let doc ← Record.create p (← members payload) ctx.requester (← ctx.instant) id
  let targets ← referenceTargets ctx store f doc
  checkReferences ctx.config store p doc
  checkRules ctx store f doc .null
  if f = .relations then
    match targets.lookup "_listId" with
    | some list => checkListRoom ctx store p list
    | none => giveUp .shape
  return doc

/-- Makes a record. -/
def create (ctx : Context) (f : Family) (payload : Value) (id : String) : Write Document := do
  let doc ← Write.read fun store => newRecord ctx store f payload id
  Write.change fun store => store.insert (ctx.collection f) doc
  return doc

/-- The payload with a record among its parents, as the last of them. -/
def withParent (uri : String) (payload : Value) : Except Fault Value := do
  let payload ← members payload
  let v := payload.field "_parents"
  let parents ← if v.truthy then orFault .shape v.elements? else pure []
  let others := parents.filter fun p => !p.same (.text uri)
  return .object (payload.put "_parents" (.array (others ++ [.text uri])))

/-- Makes a record that has another one among its parents. -/
def createChild (ctx : Context) (f : Family) (parentId : String) (payload : Value)
    (id : String) : Write Document := do
  let payload ← Write.read fun store => do
    demand ctx store f parentId
    withParent (referenceTo ctx f parentId) payload
  create ctx f payload id

/-- Makes an entity and the relation that puts it into a list. -/
def createInList (ctx : Context) (listId : String) (payload : Value)
    (entityId relationId : String) : Write Document := do
  Write.read fun store => demand ctx store .lists listId
  let entity ← create ctx .entities payload entityId
  let id := entity.field "_id"
  try
    let ends := Value.object [("_listId", .text listId), ("_entityId", id)]
    let _ ← create ctx .relations ends relationId
  catch e =>
    match e with
    | .refused _ =>
      modify fun store => store.remove (ctx.collection .entities) [id.display]
      throw e
    | .broken _ => throw e
  return entity

/-! ## Change -/

/-- The stored record with an id, whoever may read it. -/
def stored (ctx : Context) (store : Store) (f : Family) (id : String) : Outcome Document :=
  match store.fetch? (ctx.collection f) id with
  | some doc => .ok doc
  | none => refuse (.notFound f id)

/-- Refuses a document for a stored record that breaks a rule. -/
def checkChanged (ctx : Context) (store : Store) (f : Family) (doc : Document) : Outcome Unit := do
  checkReferences ctx.config store (ctx.config.policy f) doc
  checkRules ctx store f doc (doc.field "_id")

/-- Stores what becomes of a stored record, checked against all rules. -/
def save (ctx : Context) (f : Family) (id : String)
    (prepare : Document → Outcome Document) : Write Document := do
  let doc ← Write.read fun store => do
    let doc ← prepare (← stored ctx store f id)
    checkChanged ctx store f doc
    return doc
  Write.change fun store => store.replace (ctx.collection f) doc
  return doc

/-- Puts a payload in the place of a record. -/
def replace (ctx : Context) (f : Family) (id : String) (payload : Value) : Write Document :=
  save ctx f id fun doc => do
    Record.replace (ctx.config.policy f) doc (← members payload) (← ctx.instant)

/-- Writes the members of a payload over those of a record. -/
def update (ctx : Context) (f : Family) (id : String) (payload : Value) : Write Document :=
  save ctx f id fun doc => do
    Record.update (ctx.config.policy f) doc (← members payload) (← ctx.instant)

/-- The stored records that a condition and a set in a query select, among those that may be read
    and meet a further condition. -/
def selected (ctx : Context) (store : Store) (f : Family) (query : Value) (extra : Condition)
    (whereKey setKey : String) : Outcome (List Document) := do
  let condition ← unwrapped (← param query whereKey)
  let filter ← fullFilter ctx
    (if condition.truthy then .object [("where", condition)] else .null)
  let set ← SetExpr.read (← param query setKey)
  let plan ← Plan.count ctx f filter set extra
  plan.run ctx store

/-- What becomes of the selected records when a payload is written over them, checked against all
    rules. -/
def updatedRecords (ctx : Context) (store : Store) (f : Family) (payload query : Value)
    (extra : Condition) : Outcome (List Document) := do
  if ← mentions "_kind" payload then refuse (.kindsChanged f)
  let p := ctx.config.policy f
  let found ← selected ctx store f query extra "where" "set"
  let docs ← found.mapM fun doc => do
    Record.update p doc (← members payload) (← ctx.instant)
  docs.forM (checkReferences ctx.config store p)
  docs.forM fun doc => checkRules ctx store f doc (doc.field "_id")
  return docs

/-- Writes a payload over all selected records, and gives their number. -/
def updateAll (ctx : Context) (f : Family) (payload query : Value)
    (extra : Condition := .always) : Write Nat := do
  let docs ← Write.read fun store => updatedRecords ctx store f payload query extra
  docs.forM fun doc => Write.change fun store => store.replace (ctx.collection f) doc
  return docs.length

/-- The ids of the entities in a list whose relations a query selects. -/
def entityIdsIn (ctx : Context) (store : Store) (listId : String) (query : Value) :
    Outcome (List Value) := do
  demand ctx store .lists listId
  let all := { ctx with requester := {}, enforceAccess := false }
  let relations ← selected all store .relations query (.equals "_listId" (.text listId))
    "whereThrough" "setThrough"
  let ids := trueValues "_entityId" relations
  if ids.all Value.isKey then return distinctKeys ids else giveUp .notAKey

/-- Writes a payload over the selected entities in a list, and gives their number. -/
def updateListEntities (ctx : Context) (listId : String) (payload query : Value) :
    Write Nat := do
  match ← Write.read fun store => entityIdsIn ctx store listId query with
  | [] => return 0
  | ids => updateAll ctx .entities payload query (.compare "_id" .inq (.array ids))

/-! ## Removal -/

/-- The families and fields that name records of a family. -/
def dependents (f : Family) : List (Family × String) :=
  Family.all.flatMap fun g => g.references.filterMap fun (field, target) =>
    if target = f then some (g, field) else none

/-- The store without records that name one of the given records in a field. -/
def withoutDependents (ctx : Context) (ids : List Value) (store : Store)
    (dependent : Family × String) : Outcome Store := do
  let (g, field) := dependent
  let docs ← matching ctx store g (.compare field .inq (.array ids))
  let own ← docs.mapM fun d => (orFault .noId (d.get? "_id") : Except Fault Value)
  return store.remove (ctx.collection g) (own.map Value.display)

/-- The store without the given records and those that name them. -/
def withoutRecords (ctx : Context) (f : Family) (ids : List Value) (store : Store) :
    Outcome Store :=
  if ids.isEmpty then .ok store
  else (dependents f).foldlM (withoutDependents ctx ids)
    (store.remove (ctx.collection f) (ids.map Value.display))

/-- Removes a record and those that name it. -/
def delete (ctx : Context) (f : Family) (id : String) : Write Unit :=
  Write.change fun store => do
    let _ ← stored ctx store f id
    withoutRecords ctx f [.text id] store

/-- The ids of the selected entities in a list. -/
def doomedEntities (ctx : Context) (store : Store) (listId : String) (query : Value) :
    Outcome (List Value) := do
  match ← entityIdsIn ctx store listId query with
  | [] => return []
  | ids =>
    let docs ← selected ctx store .entities query (.compare "_id" .inq (.array ids)) "where" "set"
    docs.mapM fun d => (orFault .noId (d.get? "_id") : Except Fault Value)

/-- Removes the selected entities in a list and what names them, and gives their number. -/
def deleteListEntities (ctx : Context) (listId : String) (query : Value) : Write Nat := do
  let ids ← Write.read fun store => doomedEntities ctx store listId query
  Write.change (withoutRecords ctx .entities ids)
  return ids.length

end Catalog.Service
