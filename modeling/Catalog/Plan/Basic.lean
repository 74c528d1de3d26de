import Catalog.Failure
import Catalog.Policy.Basic
import Catalog.Query.Filter

/-!
# Plans

A plan says step by step how a request for records is answered. The steps, called *stages*, always
come in one order: select, join (of relations with what they relate), sort, skip, limit, project,
look up, include. Making a plan reads no record.

* `baseCondition` is what every selected record has to meet: the filter's condition and set, the
  request's set, what the requester may read, and what the request itself demands;
* `Plan.query` and `Plan.count` plan a list of records and their number;
* `Plan.batch` plans all records that have one of several values in a field.
-/

namespace Catalog

/-- What all plans of one request share. -/
structure Context where
  /-- What the installation has chosen. -/
  config : Configuration
  /-- Who asks. -/
  requester : Requester := {}
  /-- The time of the request. -/
  now : Moment
  /-- Whether only what the requester may read is found. -/
  enforceAccess : Bool := true

namespace Context

/-- The condition on the records of a family that the requester may read them. -/
def access (ctx : Context) (f : Family) : Condition :=
  ctx.requester.predicate (ctx.config.accessControl && ctx.enforceAccess) f.hasAccessFields

/-- The same request, without access control. -/
def unrestricted (ctx : Context) : Context := { ctx with enforceAccess := false }

/-- The instant of the request, which may lie outside the calendar in universal time. -/
def instant (ctx : Context) : Except Fault Instant := orFault .outOfCalendar ctx.now.instant?

/-- The collection of a family. -/
def collection (ctx : Context) (f : Family) : String := (ctx.config.policy f).collection

end Context

/-- What the list and the entity of a relation have to meet. -/
structure RelationScopes where
  /-- The filter on lists. -/
  listFilter : Filter := {}
  /-- The set of lists. -/
  listSet : Option SetExpr := none
  /-- The filter on entities. -/
  entityFilter : Filter := {}
  /-- The set of entities. -/
  entitySet : Option SetExpr := none

/-- A step of a plan. -/
inductive Stage where
  /-- Keeps the documents that meet a condition. -/
  | select (c : Condition)
  /-- Adds to each document the record that a field names; drops those where there is none. -/
  | join (field : String) (target : Family) (as : String)
  /-- Keeps the given members of a joined record only. -/
  | reshape (as : String) (keep : List String)
  /-- Sorts. -/
  | sort (keys : List OrderKey)
  /-- Leaves out the first documents. -/
  | skip (count : Nat)
  /-- Keeps the first documents. -/
  | limit (count : Int)
  /-- Keeps the fields to show. -/
  | project (p : Projection)
  /-- Puts records in the place of references. -/
  | lookup (lookups : List (Scoped Filter))
  /-- Adds dependent records. -/
  | includes (family : Family) (includes : List (Scoped Filter))

/-- How a request for records is answered. -/
structure Plan where
  /-- The family of the records. -/
  family : Family
  /-- Their collection. -/
  collection : String
  /-- The steps. -/
  stages : List Stage

/-- What every selected record has to meet. -/
def baseCondition (ctx : Context) (f : Family) (filter : Filter) (set : Option SetExpr)
    (extra : Condition) : Except Fault Condition := do
  return .conj [
    filter.condition,
    ← SetExpr.conditionOf ctx.now filter.set,
    ← SetExpr.conditionOf ctx.now set,
    ctx.access f,
    extra]

/-- The members of a list or entity that a relation shows. -/
def metadataFields : List String :=
  ["_kind", "_name", "_slug", "_validFromDateTime", "_validUntilDateTime", "_visibility",
    "_ownerUsers", "_ownerGroups", "_viewerUsers", "_viewerGroups"]

/-- The stages that join relations with one of the two records they relate. -/
def endStages (ctx : Context) (field : String) (target : Family) (as : String) (filter : Filter)
    (set : Option SetExpr) : Except Fault (List Stage) := do
  match ← baseCondition ctx target filter set .always with
  | .always => return [.join field target as]
  | c => return [.join field target as, .select (c.prefixed as)]

/-- The stages that join relations with the records they relate. -/
def relationStages (ctx : Context) (scopes : RelationScopes) : Except Fault (List Stage) := do
  let lists ← endStages ctx "_listId" .lists "_fromMetadata" scopes.listFilter scopes.listSet
  let entities ←
    endStages ctx "_entityId" .entities "_toMetadata" scopes.entityFilter scopes.entitySet
  return lists ++ entities ++
    [.reshape "_fromMetadata" metadataFields, .reshape "_toMetadata" metadataFields]

/-- The stages that join the records of a family with what they relate; only relations do. -/
def joinStages (ctx : Context) (f : Family) (scopes : RelationScopes) :
    Except Fault (List Stage) :=
  if f = .relations then relationStages ctx scopes else .ok []

/-- Refuses what cannot be included with the records of a family. -/
def checkIncludes (f : Family) (includes : List (Scoped Filter)) : Outcome Unit :=
  match includes.find? fun i => (f.include? i.name).isNone with
  | some i => refuseFilter (.unknownInclude i.name f)
  | none => .ok ()

/-- The stages after selection. -/
def tailStages (f : Family) (filter : Filter) : Outcome (List Stage) := do
  checkIncludes f filter.includes
  let given (missing : Bool) (stage : Stage) : List Stage := if missing then [] else [stage]
  return given filter.order.isEmpty (.sort filter.order) ++
    given (filter.skip == 0) (.skip filter.skip) ++
    (filter.limit.map Stage.limit).toList ++
    (filter.fields.map Stage.project).toList ++
    given filter.lookups.isEmpty (.lookup filter.lookups) ++
    given filter.includes.isEmpty (.includes f filter.includes)

namespace Plan

/-- The plan with the given stages for a family. -/
def ofStages (ctx : Context) (f : Family) (stages : List Stage) : Plan :=
  { family := f, collection := ctx.collection f, stages }

/-- The plan of a list of records. Relations are always joined with what they relate. -/
def query (ctx : Context) (f : Family) (filter : Filter) (set : Option SetExpr := none)
    (extra : Condition := .always) (scopes : Option RelationScopes := none) : Outcome Plan := do
  let base ← baseCondition ctx f filter set extra
  let joins ← joinStages ctx f (scopes.getD {})
  let tail ← tailStages f filter
  return ofStages ctx f (.select base :: joins ++ tail)

/-- The plan of the number of records. Relations are joined if there are scopes for what they
    relate. -/
def count (ctx : Context) (f : Family) (filter : Filter) (set : Option SetExpr := none)
    (extra : Condition := .always) (scopes : Option RelationScopes := none) :
    Except Fault Plan := do
  let base ← baseCondition ctx f filter set extra
  let joins ← match scopes with
    | some scopes => joinStages ctx f scopes
    | none => pure []
  return ofStages ctx f (.select base :: joins)

/-- The plan of all records that have one of several values in a field. -/
def batch (ctx : Context) (f : Family) (scope : Filter) (field : String) (values : List Value) :
    Except Fault Plan := do
  let base ← baseCondition ctx f scope none (.compare field .inq (.array values))
  return ofStages ctx f [.select base]

end Plan

end Catalog
