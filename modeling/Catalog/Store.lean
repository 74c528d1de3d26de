import Catalog.Failure
import Catalog.Number.Numeral
import Catalog.Number.Rounded
import Catalog.Value.Display

/-!
# The store

A store keeps documents in named collections, each under an id that is unique in its collection, in
the order in which they were inserted. Replacing a document keeps its place.

A document is stored under the text of its own `_id`: a text as it is, a whole number of 64 bits by
its digits, a double by its first fifteen digits, and a truth value as one or zero.
-/

namespace Catalog

/-- A stored document. -/
structure Row where
  /-- The collection. -/
  collection : String
  /-- The id that the document is stored under. -/
  id : String
  /-- The document. -/
  document : Document

/-- A store: the stored documents in the order in which they were inserted. -/
structure Store where
  /-- The stored documents. -/
  rows : List Row := []

/-- The id that a document with this `_id` is stored under. -/
def idText? : Value → Option String
  | .text s => some s
  | .number (.int n) => if -2 ^ 63 ≤ n ∧ n < 2 ^ 63 then some (toString n) else none
  | .number (.double x) => x.roundedText?
  | .bool b => some (if b then "1" else "0")
  | _ => none

/-- The `_id` of a document; without one it cannot be stored. -/
def Document.id? (doc : Document) : Except Fault String :=
  orFault .noId ((doc.get? "_id").bind idText?)

mutual

/-- Whether no whole number in a value has too many digits to be written. -/
def Value.canBeWritten : Value → Bool
  | .number (.int n) => decide (n.natAbs < 10 ^ Numeral.maxDigits)
  | .array items => Value.allCanBeWritten items
  | .object members => Value.membersCanBeWritten members
  | _ => true

/-- Whether no whole number in a list of values has too many digits to be written. -/
def Value.allCanBeWritten : List Value → Bool
  | [] => true
  | v :: vs => v.canBeWritten && Value.allCanBeWritten vs

/-- Whether no whole number in the members of an object has too many digits to be written. -/
def Value.membersCanBeWritten : List (String × Value) → Bool
  | [] => true
  | (_, v) :: rest => v.canBeWritten && Value.membersCanBeWritten rest

end

/-- Gives up at a document that cannot be written. -/
def Document.checkWritten (doc : Document) : Except Fault Unit :=
  if Value.membersCanBeWritten doc then .ok () else .error .tooManyDigits

/-- Whether a row is the one of a collection with an id. -/
def Row.isAt (collection id : String) (r : Row) : Bool := r.collection == collection && r.id == id

namespace Store

/-- The documents of a collection in order. -/
def scan (s : Store) (collection : String) : List Document :=
  (s.rows.filter fun r => r.collection == collection).map Row.document

/-- The document with an id. -/
def fetch? (s : Store) (collection id : String) : Option Document :=
  (s.rows.find? (Row.isAt collection id)).map Row.document

/-- The documents with any of the given ids, in the order of the store. -/
def fetchMany (s : Store) (collection : String) (ids : List String) : List Document :=
  (s.rows.filter fun r => r.collection == collection && ids.contains r.id).map Row.document

/-- Stores a document at the end of its collection. -/
def insert (s : Store) (collection : String) (doc : Document) : Except Fault Store := do
  let id ← doc.id?
  doc.checkWritten
  if s.rows.any (Row.isAt collection id) then throw .duplicateId
  return { rows := s.rows ++ [{ collection, id, document := doc }] }

/-- Puts a document in the place of the one with its id, if there is one. -/
def replace (s : Store) (collection : String) (doc : Document) : Except Fault Store := do
  let id ← doc.id?
  doc.checkWritten
  return { rows := s.rows.map fun r =>
    if r.isAt collection id then { r with document := doc } else r }

/-- Whether there is a document with an id. -/
def has (s : Store) (collection id : String) : Bool := s.rows.any (Row.isAt collection id)

/-- Removes the documents with any of the given ids. -/
def remove (s : Store) (collection : String) (ids : List String) : Store :=
  { rows := s.rows.filter fun r => !(r.collection == collection && ids.contains r.id) }

end Store

end Catalog
