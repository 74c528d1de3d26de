import Catalog.Plan.Order
import Catalog.Text.Wildcard

/-!
# The shape of a result

What is left of the selected documents: they are sorted, cut to a page, and shown with some of their
fields only.
-/

namespace Catalog

/-- A projection under way: the document to show so far, the document it is taken from, and the
    paths of the objects that have been kept whole. -/
structure Projecting where
  /-- The document to show. -/
  shown : Document
  /-- The document it is taken from. -/
  source : Document
  /-- The paths of the objects that have been kept whole. -/
  whole : List (List String) := []

/-- Keeps one more field. What is named inside an object that has been kept whole is written into
    that object, also for the names that follow. -/
def Projecting.keep (p : Projecting) (name : String) : Projecting :=
  let steps := pathSteps name
  match p.source.path? name with
  | none => p
  | some v =>
    let inside := p.whole.any fun w => w.length < steps.length && w.isPrefixOf steps
    { shown := p.shown.putPath name v
      source := if inside then p.source.putPath name v else p.source
      whole := match v with
        | .object _ => steps :: p.whole
        | _ => p.whole }

/-- The document with the fields to show. The id is always kept unless it is dropped by name. -/
def Projection.apply (doc : Document) : Projection → Document
  | .keep names =>
    let start : Projecting := match doc.get? "_id" with
      | some id =>
        { shown := [("_id", id)], source := doc,
          whole := match id with
            | .object _ => [["_id"]]
            | _ => [] }
      | none => { shown := [], source := doc }
    (names.foldl Projecting.keep start).shown
  | .drop names => names.foldl (fun d name => d.erasePath name) doc

/-- What a projection makes of any value. From a list it keeps what its items have; other values
    that are no objects have no fields to keep, and whatever could hold an id by a name but not
    under it is a fault. -/
def Projection.applyTo (v : Value) (p : Projection) : Except Fault Value :=
  match v, p with
  | .object doc, p => .ok (.object (p.apply doc))
  | v, .drop _ => .ok v
  | .array items, .keep names =>
    if items.any (Value.same (.text "_id")) then .error .shape
    else
      .ok <| .object <| names.foldl (fun (shown : Document) name =>
        match (Value.array items).path? name with
        | some found => shown.putPath name found
        | none => shown) []
  | .text s, .keep _ =>
    if Text.Wildcard.matched false "_id" s then .error .shape else .ok (.object [])
  | _, .keep _ => .error .shape

/-- The first ones: as many as the limit says, or all but so many if it is negative. -/
def takeLimit {α : Type} (limit : Int) (xs : List α) : List α :=
  if 0 ≤ limit then xs.take limit.toNat else xs.take (xs.length - limit.natAbs)

/-- The page of a filter: what has documents that meet it, in the order of these, without what is
    to skip, up to its limit. -/
def Filter.page {α : Type} (toDocument : α → Document) (f : Filter) (xs : List α) : List α :=
  let rest := (sortOn toDocument f.order xs).drop f.skip
  match f.limit with
  | some n => takeLimit n rest
  | none => rest

/-- What a filter shows of a document. -/
def Filter.shown (f : Filter) (doc : Document) : Document :=
  match f.fields with
  | some p => p.apply doc
  | none => doc

end Catalog
