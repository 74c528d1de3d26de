import Catalog.Record.Reference
import Catalog.Value.Path

/-!
# Slots

The *slots* of a path in a document are the places it leads to: a member of an object, in every item
of each array on the way. Their values are read with `Value.slots` and replaced with `Value.refill`,
which takes the new values in the same order and removes a member where there is none.
-/

namespace Catalog

namespace Value

mutual

/-- The values in the slots of a path, in order. -/
def slots : Value → List String → List Value
  | .array items, steps => slotsOfItems items steps
  | .object members, step :: steps => slotsOfMember members step steps
  | _, _ => []

/-- The values in the slots of a path that starts with a key of an object. -/
def slotsOfMember : List (String × Value) → String → List String → List Value
  | [], _, _ => []
  | (k, v) :: rest, step, steps =>
    if k = step then
      match steps with
      | [] => [v]
      | steps => v.slots steps
    else slotsOfMember rest step steps

/-- The values in the slots of a path in the items of an array. -/
def slotsOfItems : List Value → List String → List Value
  | [], _ => []
  | v :: rest, steps => v.slots steps ++ slotsOfItems rest steps

end

mutual

/-- The value with new values in the slots of a path, and the new values that are left over. -/
def refill : Value → List String → List (Option Value) → Value × List (Option Value)
  | .array items, steps, news =>
    let (items, news) := refillItems items steps news
    (.array items, news)
  | .object members, step :: steps, news =>
    let (members, news) := refillMember members step steps news
    (.object members, news)
  | v, _, news => (v, news)

/-- The members with new values in the slots of a path that starts with one of their keys. -/
def refillMember : List (String × Value) → String → List String → List (Option Value) →
    List (String × Value) × List (Option Value)
  | [], _, _, news => ([], news)
  | (k, v) :: rest, step, steps, news =>
    if k = step then
      match steps, news with
      | [], some new :: news => ((k, new) :: rest, news)
      | [], none :: news => (rest, news)
      | [], [] => ((k, v) :: rest, [])
      | steps, news =>
        let (v, news) := v.refill steps news
        ((k, v) :: rest, news)
    else
      let (rest, news) := refillMember rest step steps news
      ((k, v) :: rest, news)

/-- The items of an array with new values in the slots of a path. -/
def refillItems : List Value → List String → List (Option Value) →
    List Value × List (Option Value)
  | [], _, news => ([], news)
  | v :: rest, steps, news =>
    let (v, news) := v.refill steps news
    let (rest, news) := refillItems rest steps news
    (v :: rest, news)

end

end Value

namespace Document

/-- The values in the slots of a dotted path, in order. -/
def slots (path : String) (doc : Document) : List Value :=
  (Value.object doc).slots (pathSteps path)

/-- The members of a value that is an object. -/
def ofValue : Value → Document
  | .object members => members
  | _ => []

/-- The document with new values in the slots of a dotted path, and those left over. -/
def refill (path : String) (news : List (Option Value)) (doc : Document) :
    Document × List (Option Value) :=
  let (v, news) := (Value.object doc).refill (pathSteps path) news
  (ofValue v, news)

/-- The documents of a page with new values in the slots of a dotted path. -/
def refillAll (path : String) : List (Option Value) → List Document → List Document
  | _, [] => []
  | news, doc :: docs =>
    let (doc, news) := doc.refill path news
    doc :: refillAll path news docs

end Document

/-- The references in a slot: those among the items of an array, or the value itself. -/
def slotReferences : Value → List Reference
  | .array items => items.filterMap Reference.ofValue?
  | v => (Reference.ofValue? v).toList

/-- What the new value of a slot shows: everything in an array, else the first. -/
def slotShown {α : Type} (v : Value) (xs : List α) : List α :=
  match v with
  | .array _ => xs
  | _ => xs.take 1

/-- The new value of a slot that shows the given documents; there is none for a single reference
    without a document. -/
def slotValue (v : Value) (docs : List Document) : Option Value :=
  match v with
  | .array _ => some (.array (docs.map .object))
  | _ => docs.head?.map .object

/-- A list cut into pieces of the given lengths. -/
def pieces {α : Type} : List Nat → List α → List (List α)
  | [], _ => []
  | n :: ns, xs => xs.take n :: pieces ns (xs.drop n)

end Catalog
