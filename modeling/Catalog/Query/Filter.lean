import Catalog.Query.SetExpr

/-!
# Filters

What a caller may say about the records it wants: a condition on them, an order, a page, the fields
to show, references to look up in place, dependent records to include, and a set. What is looked up
or included is filtered in turn.
-/

namespace Catalog

/-- A field to sort by. -/
structure OrderKey where
  /-- The path of the field. -/
  path : String
  /-- Whether the greatest comes first. -/
  descending : Bool := false
deriving DecidableEq, Repr

/-- The fields to show. -/
inductive Projection where
  /-- The named fields and the id only. -/
  | keep (names : List String)
  /-- All fields but the named ones. -/
  | drop (names : List String)
deriving DecidableEq, Repr

/-- Something under a name. -/
structure Scoped (α : Type) where
  /-- The name. -/
  name : String
  /-- What is under it. -/
  scope : α

/-- A filter. -/
structure Filter where
  /-- The condition that records meet. -/
  condition : Condition := .always
  /-- The fields to sort by. -/
  order : List OrderKey := []
  /-- The greatest number of records to return, if there is one. -/
  limit : Option Int := none
  /-- The number of records to leave out first. -/
  skip : Nat := 0
  /-- The fields to show, unless all are. -/
  fields : Option Projection := none
  /-- The fields whose references are replaced by records, with filters on these. -/
  lookups : List (Scoped Filter) := []
  /-- What is included with each record, with filters on it. -/
  includes : List (Scoped Filter) := []
  /-- The set that records are in, if one is given. -/
  set : Option SetExpr := none
deriving Inhabited

end Catalog
