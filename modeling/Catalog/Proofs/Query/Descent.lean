import Catalog.Proofs.Query.Met
import Catalog.Proofs.Value.Path

/-!
# Conditions on parts of a document

A condition with a prefix asks of a document what the condition itself asks of the part that the
prefix leads to (`Condition.prefixed_descends`): the answer is the same, and so is the fault where
there is none. The part is

* for a key without dots, the member at this key, whatever it is, and null if there is none;
* for a path of several keys, the value that objects lead to along it.

An array on the way is not entered like an object. There paths fan out, leaf by leaf: one leaf may
be met by one item of the array, and another leaf by another item.
-/

namespace Catalog

/-- No path leads anywhere in null. -/
theorem Value.path?_null (path : String) : Value.null.path? path = none := by
  obtain ⟨step, steps, h⟩ := List.exists_cons_of_ne_nil (pathSteps_ne_nil path)
  rw [Value.path?, h]
  rfl

namespace Document

variable {doc : Document} {start : String} {v : Value}

/-- After a key without dots, paths go on in the member; where there is none they lead nowhere, as
    they do in null. -/
theorem path?_orNull {key : String} (hkey : '.' ∉ key.toList) (doc : Document) (path : String) :
    (Value.object doc).path? (key ++ "." ++ path) = (Value.orNull (doc.get? key)).path? path := by
  rw [path?_append hkey]
  cases doc.get? key with
  | none => exact (Value.path?_null path).symm
  | some v => rfl

/-- Where objects lead, paths go on in what they lead to. -/
theorem path?_innerAt? (h : doc.innerAt? start = some v) (path : String) :
    (Value.object doc).path? (start ++ "." ++ path) = v.path? path := by
  rw [Value.path?, pathSteps_goesOn, Value.resolve_append h, Value.path?]

end Document

namespace Condition

/-- Prefixing a condition is descending into the document: with a key without dots to the member at
    it, or to null where there is none, and with any path to the value that objects lead to. -/
theorem prefixed_descends (c : Condition) (doc : Document) :
    (∀ key, '.' ∉ key.toList →
      (c.prefixed key).holds (.object doc) = c.holds (Value.orNull (doc.get? key))) ∧
    ∀ start v, doc.innerAt? start = some v →
      (c.prefixed start).holds (.object doc) = c.holds v := by
  -- What is left of both is where paths lead: the rest of a condition does not look at documents.
  constructor
  · intro key hkey
    exact holds_prefixed_of_path? (Document.path?_orNull hkey doc) c
  · intro start v h
    exact holds_prefixed_of_path? (Document.path?_innerAt? h) c

/-- A relation with the entity that it names. -/
def joinedRelation : Document :=
  [("_id", .text "r"), ("_toMetadata", .object [("_kind", .text "book"),
    ("tags", .array [.object [("n", .text "a")], .object [("n", .text "b")]]),
    ("place", .object [("since", .text "0001-01-01T00:00:00+05:00")])])]

/-- A book that is gone or has a tag after `a`. -/
def taggedBook : Condition :=
  .and [.equals "_kind" (.text "book"),
    .or [.compare "gone" .present (.bool true), .compare "tags.n" .gt (.text "a")]]

/-- What has been there before the calendar begins. -/
def ancient : Condition := .compare "since" .lt (.instant (.ofInstant .first))

/-- The entity of the relation is such a book. Since when its place is there is out of the calendar,
    which is a fault also where it is asked of the relation. -/
theorem prefixed_descends_joinedRelation :
    '.' ∉ "_toMetadata".toList ∧
      (taggedBook.prefixed "_toMetadata").holds (.object joinedRelation) = .ok true ∧
      joinedRelation.innerAt? "_toMetadata.place" =
        some (.object [("since", .text "0001-01-01T00:00:00+05:00")]) ∧
      (ancient.prefixed "_toMetadata.place").holds (.object joinedRelation) =
        .error .outOfCalendar := by
  have key : '.' ∉ "_toMetadata".toList := by decide
  have place : joinedRelation.innerAt? "_toMetadata.place" =
      some (.object [("since", .text "0001-01-01T00:00:00+05:00")]) := rfl
  refine ⟨key, ?_, place, ?_⟩
  · rw [(prefixed_descends taggedBook joinedRelation).1 _ key]
    rfl
  · rw [(prefixed_descends ancient joinedRelation).2 _ _ place]
    rfl

end Condition

end Catalog
