import Catalog.Plan.Resolve

/-!
# Running plans

`Stage.run` says what a stage makes of a list of documents, and `Plan.run` loads the documents of a
plan and runs its stages one after the other.
-/

namespace Catalog

/-- The records that a field of documents names by a text, in the order of the store. -/
def joinTargets (store : Store) (collection field : String) (docs : List Document) :
    List Document :=
  store.fetchMany collection <| docs.filterMap fun doc =>
    match doc.get? field with
    | some (.text id) => some id
    | _ => none

/-- The document joined with the last of some records whose own id is the same as the value of a
    field, if there is one. A field that cannot be a key is a fault. -/
def joined (targets : List Document) (field as : String) (doc : Document) :
    Except Fault (Option Document) := do
  let key ← keyAt field doc
  let target := targets.reverse.find? fun t => (Value.orNull (t.get? "_id")).same key
  return target.map fun t => doc.put as (.object t)

/-- The document with only the given members of the object at a key. -/
def reshaped (as : String) (keep : List String) (doc : Document) : Document :=
  let inner := Document.ofValue (Value.orNull (doc.get? as))
  doc.put as (.object (keep.filterMap fun k => (Document.get? k inner).map fun v => (k, v)))

/-- What a stage makes of a list of documents. -/
def Stage.run (ctx : Context) (store : Store) (docs : List Document) :
    Stage → Outcome (List Document)
  | .select c => selectDocuments c docs
  | .join field target as =>
    let targets := joinTargets store (ctx.collection target) field docs
    (docs.filterMapM (joined targets field as) : Except Fault _)
  | .reshape as keep => .ok (docs.map (reshaped as keep))
  | .sort keys => .ok (sortDocuments keys docs)
  | .skip count => .ok (docs.drop count)
  | .limit count => .ok (takeLimit count docs)
  | .project p => .ok (docs.map p.apply)
  | .lookup lookups => lookupAll ctx store lookups docs
  | .includes f scopes => includeAll ctx store f scopes docs

/-- What stages make of a list of documents, one after the other. -/
def runStages (ctx : Context) (store : Store) (docs : List Document) (stages : List Stage) :
    Outcome (List Document) :=
  stages.foldlM (Stage.run ctx store) docs

/-- The documents that a plan gives. -/
def Plan.run (ctx : Context) (store : Store) (plan : Plan) : Outcome (List Document) := do
  let docs ← (plan.load store : Except Fault _)
  runStages ctx store docs plan.stages

end Catalog
