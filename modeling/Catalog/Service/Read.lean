import Catalog.Plan.Run
import Catalog.Query.FilterReader
import Catalog.Record.Lifecycle
import Catalog.Record.Reference

/-!
# Reading records

The requests that read: a list of records, their number, one record, the children and parents of a
record, and the records at the other end of its relations. What a requester may not read is as good
as missing.

A request comes with a *query*, an object of named parameters. `filter` and `set` say which records
are meant; with relations, `listFilter`, `listSet`, `entityFilter` and `entitySet` say so of the
records that they relate.
-/

namespace Catalog.Service

/-- A parameter of a query: null if it is missing. A query that is no object is a fault. -/
def param (query : Value) (key : String) : Outcome Value :=
  match query with
  | .object members => .ok (Document.field key members)
  | _ => giveUp .shape

/-- A filter for a list of records, which has no more than the family's response limit. -/
def pageFilter (ctx : Context) (f : Family) (v : Value) : Outcome Filter :=
  let limit := some (ctx.config.policy f).responseLimit
  Filter.read { defaultLimit := limit, maximumLimit := limit, depth := ctx.config.maxLookupDepth } v

/-- A filter for all records. -/
def fullFilter (ctx : Context) (v : Value) : Outcome Filter :=
  Filter.read { depth := ctx.config.maxLookupDepth } v

/-- What a query says of the records that relations relate. -/
def relationScopes (ctx : Context) (query : Value) : Outcome RelationScopes := do
  let listFilter ← fullFilter ctx (← param query "listFilter")
  let listSet ← SetExpr.read (← param query "listSet")
  let entityFilter ← fullFilter ctx (← param query "entityFilter")
  let entitySet ← SetExpr.read (← param query "entitySet")
  return { listFilter, listSet, entityFilter, entitySet }

/-- What a query says of the records that the records of a family relate, if they do. -/
def scopesFor (ctx : Context) (f : Family) (query : Value) : Outcome (Option RelationScopes) := do
  if f = .relations then return some (← relationScopes ctx query) else return none

/-- The plan of the records of a family that a query and a further condition select. -/
def findPlan (ctx : Context) (f : Family) (query : Value) (extra : Condition) : Outcome Plan := do
  let filter ← pageFilter ctx f (← param query "filter")
  let scopes ← scopesFor ctx f query
  let set ← SetExpr.read (← param query "set")
  Plan.query ctx f filter set extra scopes

/-- The records of a family that a query and a further condition select. -/
def find (ctx : Context) (store : Store) (f : Family) (query : Value)
    (extra : Condition := .always) : Outcome (List Document) := do
  let plan ← findPlan ctx f query extra
  plan.run ctx store

/-- The filter of a query that counts: without `filter`, the parameter `where` is the condition. -/
def countFilter (query : Value) : Outcome Value := do
  match ← param query "filter", query with
  | .null, .object members =>
    return match Document.get? "where" members with
      | some w => .object [("where", w)]
      | none => .null
  | v, _ => return v

/-- The number of records of a family that a query selects, whatever its page. -/
def count (ctx : Context) (store : Store) (f : Family) (query : Value) : Outcome Nat := do
  let filter ← fullFilter ctx (← countFilter query)
  let scopes ← scopesFor ctx f query
  let set ← SetExpr.read (← param query "set")
  let plan ← Plan.count ctx f filter set .always scopes
  return (← plan.run ctx store).length

/-- The record of a family with an id. -/
def findById (ctx : Context) (store : Store) (f : Family) (id : String)
    (query : Value := .object []) : Outcome Document := do
  match ← find ctx store f query (.equals "_id" (.text id)) with
  | doc :: _ => return doc
  | [] => refuse (.notFound f id)

/-- The query that asks for ids only. -/
def idOnly : Value := .object [("filter", .object [("fields", .object [("_id", .bool true)])])]

/-- Refuses an id that names no record that may be read. -/
def demand (ctx : Context) (store : Store) (f : Family) (id : String) : Outcome Unit := do
  let _ ← findById ctx store f id idOnly

/-- The reference to a record. -/
def referenceTo (ctx : Context) (f : Family) (id : String) : String :=
  Reference.write ctx.config.referenceHost ⟨f, id⟩

/-- The records that name a record among their parents. -/
def findChildren (ctx : Context) (store : Store) (f : Family) (id : String) (query : Value) :
    Outcome (List Document) := do
  demand ctx store f id
  find ctx store f query (.equals "_parents" (.text (referenceTo ctx f id)))

/-- The ids of the records of a family that a record names among its parents. -/
def parentIds (f : Family) (doc : Document) : Except Fault (List String) := do
  let v := doc.field "_parents"
  let refs ← if v.truthy then orFault .shape v.elements? else pure []
  return (refs.filterMap Reference.ofValue?).filterMap fun r =>
    if r.family = f then some r.id else none

/-- The records that a record names among its parents. -/
def findParents (ctx : Context) (store : Store) (f : Family) (id : String) (query : Value) :
    Outcome (List Document) := do
  let doc ← findById ctx store f id
  match ← parentIds f doc with
  | [] => return []
  | ids => find ctx store f query (.compare "_id" .inq (.array (ids.map .text)))

/-- All stored records of a family that meet a condition, whoever may read them. -/
def matching (ctx : Context) (store : Store) (f : Family) (c : Condition) :
    Outcome (List Document) := do
  let ctx := { ctx with requester := {}, enforceAccess := false }
  let plan ← Plan.count ctx f {} none c
  plan.run ctx store

/-- The values of a field of documents, where they count as true. -/
def trueValues (field : String) (docs : List Document) : List Value :=
  (docs.map (Document.field field)).filter Value.truthy

/-- The records at the other end of the relations of a record. -/
def through (ctx : Context) (store : Store) (source : Family) (sourceField id : String)
    (target : Family) (targetField : String) (query : Value) : Outcome (List Document) := do
  demand ctx store source id
  let relations ← matching ctx store .relations (.equals sourceField (.text id))
  match trueValues targetField relations with
  | [] => return []
  | ids => find ctx store target query (.compare "_id" .inq (.array ids))

/-- The entities in a list. -/
def listEntities (ctx : Context) (store : Store) (listId : String) (query : Value) :
    Outcome (List Document) :=
  through ctx store .lists "_listId" listId .entities "_entityId" query

/-- The lists that an entity is in. -/
def entityLists (ctx : Context) (store : Store) (entityId : String) (query : Value) :
    Outcome (List Document) :=
  through ctx store .entities "_entityId" entityId .lists "_listId" query

end Catalog.Service
