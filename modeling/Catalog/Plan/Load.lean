import Catalog.Plan.Basic
import Catalog.Query.Matching
import Catalog.Store

/-!
# Selecting documents

The documents of a plan are loaded from its collection and selected by its first condition. If that
condition says which ids a document can have, only documents with these ids are loaded.
-/

namespace Catalog

/-- The ids that a leaf says a document can have, if it does. -/
def Leaf.ids? (l : Leaf) : Except Fault (Option (List String)) :=
  if l.path = "_id" then
    match l.operator, l.operand with
    | .eq, .text s => .ok (some [s])
    | .inq, operand => do return some ((← orFault .operand operand.elements?).map Value.display)
    | _, _ => .ok none
  else .ok none

namespace Condition

mutual

/-- The ids that a condition says a document can have, if it does. -/
def ids? : Condition → Except Fault (Option (List String))
  | .leaf l => l.ids?
  | .and cs => firstIds? cs
  | _ => .ok none

/-- The ids that the first of several conditions that does so says a document can have. -/
def firstIds? : List Condition → Except Fault (Option (List String))
  | [] => .ok none
  | c :: cs => do
    match ← c.ids? with
    | some ids => return some ids
    | none => firstIds? cs

end

end Condition

/-- The documents of a plan before any stage. -/
def Plan.load (store : Store) (plan : Plan) : Except Fault (List Document) := do
  match plan.stages with
  | .select c :: _ =>
    match ← c.ids? with
    | some ids => return store.fetchMany plan.collection ids
    | none => return store.scan plan.collection
  | _ => return store.scan plan.collection

/-- The documents that meet a condition, in order. -/
def selectDocuments (c : Condition) (docs : List Document) : Except Fault (List Document) :=
  docs.filterM fun doc => c.holds (.object doc)

/-- The records of a family in a scope that have one of several values in a field. -/
def recordsWith (ctx : Context) (store : Store) (f : Family) (scope : Filter) (field : String)
    (values : List Value) : Except Fault (List Document) := do
  let plan ← Plan.batch ctx f scope field values
  let docs ← plan.load store
  match plan.stages with
  | [.select c] => selectDocuments c docs
  | _ => return docs

end Catalog
