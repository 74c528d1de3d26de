import Catalog.Query.Filter
import Catalog.Value.Json
import Catalog.Value.Path
import Catalog.Value.Sameness

/-!
# The order of documents

Values of all kinds are in one order: null, then numbers, texts, objects, arrays and at last
booleans; numbers and texts among themselves by value, objects and arrays by the JSON texts of them
with sorted keys. Documents are sorted by several keys, each with a direction of its own; those that
are equal by all keys keep their order.

Not-a-number comes neither before nor after another number. Documents where a key reads it are put
into place one by one, each after a search by halves among those in place already, so that the
result depends on where they stood.
-/

namespace Catalog

/-- The place of a value's kind in the order. -/
def Value.rank : Value → Nat
  | .null => 0
  | .number _ => 1
  | .text _ => 2
  | .object _ => 3
  | .array _ => 4
  | .bool _ => 5
  | .instant _ => 6

/-- The order of two values. -/
def Value.order (a b : Value) : Ordering :=
  match a, b with
  | .number m, .number n => (m.compare? n).getD .eq
  | .text s, .text t => compare s t
  | .bool p, .bool q => compare p.toNat q.toNat
  | .instant t, .instant u => t.compare u
  | a, b =>
    if a.rank = b.rank ∧ 3 ≤ a.rank then compare (a.json true) (b.json true)
    else compare a.rank b.rank

/-! ## Putting into place -/

/-- The leading run of a list: as long as each element comes before the one ahead of it, in reverse,
    or else as long as none does; and what follows it. `down` says which; `run` is the run so far,
    in reverse, and `last` its last element. -/
def runFrom {α : Type} (before : α → α → Bool) (down : Bool) (run : List α) (last : α) :
    List α → List α × List α
  | [] => (if down then run else run.reverse, [])
  | x :: xs =>
    if before x last == down then runFrom before down (x :: run) x xs
    else (if down then run else run.reverse, x :: xs)

/-- The leading run of a list and what follows it. -/
def leadingRun {α : Type} (before : α → α → Bool) : List α → List α × List α
  | [] => ([], [])
  | [x] => ([x], [])
  | x :: y :: ys => runFrom before (before y x) [y, x] y ys

/-- Where an element goes among those in place, found by halves. -/
def placeAmong {α : Type} (before : α → α → Bool) (x : α) (placed : List α) : Nat :=
  match h : placed[placed.length / 2]? with
  | none => 0
  | some middle =>
    if before x middle then placeAmong before x (placed.take (placed.length / 2))
    else
      placed.length / 2 + 1 + placeAmong before x (placed.drop (placed.length / 2 + 1))
termination_by placed.length
decreasing_by
  all_goals
    have := (List.getElem?_eq_some_iff.1 h).1
    simp only [List.length_take, List.length_drop]
    omega

/-- The elements put into place one by one, after the leading run. -/
def placed {α : Type} (before : α → α → Bool) (xs : List α) : List α :=
  let (run, rest) := leadingRun before xs
  rest.foldl (fun done x => done.insertIdx (placeAmong before x done) x) run

/-! ## Sorting -/

/-- What a key reads of a value that is sorted: null if it is missing. -/
def OrderKey.valueOf (key : OrderKey) (v : Value) : Value := Value.orNull (v.path? key.path)

/-- Whether a key allows one value before another. -/
def OrderKey.allows (key : OrderKey) (a b : Value) : Bool :=
  let o := (key.valueOf a).order (key.valueOf b)
  if key.descending then o.isGE else o.isLE

/-- The values in the order of a key. -/
def OrderKey.sort {α : Type} (toValue : α → Value) (key : OrderKey) (xs : List α) : List α :=
  if xs.any fun x => (key.valueOf (toValue x)).isNaN then
    let before (a b : α) : Bool := (key.valueOf (toValue a)).order (key.valueOf (toValue b)) == .lt
    if key.descending then (placed before xs.reverse).reverse else placed before xs
  else xs.mergeSort fun a b => key.allows (toValue a) (toValue b)

/-- Values in the order of the keys, the first key counting most. -/
def sortValues (keys : List OrderKey) (vs : List Value) : List Value :=
  keys.foldr (fun key vs => key.sort id vs) vs

/-- What has documents, in the order of the keys of these, the first key counting most. -/
def sortOn {α : Type} (toDocument : α → Document) (keys : List OrderKey) (xs : List α) : List α :=
  keys.foldr (fun key xs => key.sort (fun x => .object (toDocument x)) xs) xs

/-- Documents in the order of the keys, the first key counting most. -/
def sortDocuments (keys : List OrderKey) (docs : List Document) : List Document :=
  sortOn id keys docs

example : placed (fun a b : Nat => decide (a < b)) [3, 1, 2] = [1, 2, 3] := by decide +kernel

end Catalog
