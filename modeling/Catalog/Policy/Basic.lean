import Catalog.Failure
import Catalog.Record.Family
import Catalog.Text.LetterCase
import Catalog.Text.Blank
import Catalog.Value.Path
import Catalog.Value.Sameness

/-!
# Policies

What an installation may choose about a family of records: the kinds that records may be of, their
default visibility, whether they are approved at once, how many there may be, which fields are
unique, and what their references must name. Many of these can be set for a kind of record apart
from the general setting; such a pair is a `KindScoped` value.
-/

namespace Catalog

open Text

/-- At most `limit` records may be in the scope, a query string with placeholders for the values of
    a record. -/
structure LimitRule where
  /-- The scope. -/
  scope : String
  /-- The greatest number of records. -/
  limit : Int
deriving DecidableEq, Repr

/-- No two records in the scope may have the same values of the fields. -/
structure UniquenessRule where
  /-- The fields. -/
  fields : List Value
  /-- The scope. -/
  scope : String

/-- What the references in a field must be: references to records of a family and kind. -/
structure LookupConstraint where
  /-- The path of the field. -/
  path : String
  /-- The family of the referenced records, if it is fixed. -/
  family : Option Family := none
  /-- The kind of the records that the rule is about, if it is not about all. -/
  sourceKind : Value := .null
  /-- The kind of the referenced records, unless it is null. -/
  targetKind : Value := .null

/-- Whether a constraint is about records of a kind. -/
def LookupConstraint.appliesTo (c : LookupConstraint) (kind : Value) : Bool :=
  !c.sourceKind.truthy || c.sourceKind.same kind

/-- How a kind is written in settings: in lower case, with low lines for hyphens. -/
def kindKey (kind : String) : String :=
  String.ofList ((lower (trim kind)).toList.map fun c => if c = '-' then '_' else c)

/-- A general value and values for single kinds. -/
structure KindScoped (α : Type) where
  /-- The value for all kinds that have none of their own. -/
  default : α
  /-- The values for single kinds, by their keys. -/
  byKind : List (String × α) := []

namespace KindScoped

variable {α : Type}

/-- The value with one for a kind added or replaced. -/
def override (s : KindScoped α) (kind : String) (value : α) : KindScoped α :=
  let key := kindKey kind
  if s.byKind.any fun p => p.1 == key then
    { s with byKind := s.byKind.map fun p => if p.1 = key then (key, value) else p }
  else { s with byKind := s.byKind ++ [(key, value)] }

/-- The value with those for several kinds added, the last for each kind counting. -/
def ofList (default : α) (byKind : List (String × α)) : KindScoped α :=
  byKind.foldl (fun s p => s.override p.1 p.2) { default }

/-- The value set for a kind alone. A kind that is neither null nor a text is a fault. -/
def own? (s : KindScoped α) : Value → Except Fault (Option α)
  | .null => .ok none
  | .text kind => .ok (s.byKind.lookup (kindKey kind))
  | _ => .error .shape

/-- The value for a kind. -/
def get (s : KindScoped α) (kind : Value) : Except Fault α := do
  return (← s.own? kind).getD s.default

end KindScoped

/-- Who may see a record: anybody, anybody in a group that owns or views it, or users alone. -/
def visibilities : List String := ["public", "protected", "private"]

/-- What an installation has chosen about a family. -/
structure Policy where
  /-- The family. -/
  family : Family
  /-- The collection that the records are stored in. -/
  collection : String
  /-- The kinds that records may be of; any if there are none. -/
  kinds : List String
  /-- The kind of a record that names none. -/
  defaultKind : String
  /-- The visibility of a record that names none. -/
  visibility : KindScoped String
  /-- Whether a record is valid from its creation on, if it does not say from when it is. -/
  autoapprove : KindScoped Bool
  /-- The greatest number of records in an answer. -/
  responseLimit : Int
  /-- The limits that hold for records of all kinds. -/
  limitRules : List LimitRule
  /-- The greatest number of records, if there is one. -/
  limitCount : KindScoped (Option Int)
  /-- The scope that these are counted in. -/
  limitScope : KindScoped String
  /-- The fields that are unique together. -/
  uniqueFields : KindScoped (List String)
  /-- The scope that they are unique in. -/
  uniqueScope : KindScoped String
  /-- Further fields that are unique. -/
  uniquenessRules : List UniquenessRule
  /-- The greatest number of entities in a list, if there is one. -/
  listEntityLimit : KindScoped (Option Int)
  /-- What references must be. -/
  constraints : List LookupConstraint

namespace Policy

/-- Whether records may be of a kind. -/
def allowsKind (p : Policy) (kind : String) : Bool := p.kinds.isEmpty || p.kinds.contains kind

/-- The limit that is set by a number, for a kind. If the number is set for the kind alone, only
    records of the kind are counted. -/
def countRule? (p : Policy) (kind : Value) : Except Fault (Option LimitRule) := do
  let ofKind := (← p.limitCount.own? kind).isSome
  match ← p.limitCount.get kind with
  | none => return none
  | some limit =>
    let scope ← p.limitScope.get kind
    let parts := (if ofKind then ["filter[where][_kind]=" ++ kind.display] else []) ++
      (if scope.isEmpty then [] else [scope])
    return some { scope := "&".intercalate parts, limit }

/-- The limits that a record of a kind has to keep. -/
def limitsFor (p : Policy) (kind : Value) : Except Fault (List LimitRule) := do
  return p.limitRules ++ (← p.countRule? kind).toList

/-- The rules of uniqueness that a record of a kind has to keep. -/
def uniquenessFor (p : Policy) (kind : Value) : Except Fault (List UniquenessRule) := do
  let fields ← p.uniqueFields.get kind
  if fields.isEmpty then return p.uniquenessRules
  return p.uniquenessRules ++ [{ fields := fields.map .text, scope := ← p.uniqueScope.get kind }]

end Policy

/-- The settings of an installation that are not about a family. -/
structure Settings where
  /-- Whether records may only be read by those who they say may read them. -/
  accessControl : Bool := true
  /-- Where references to records point. -/
  referenceHost : String := "tapp://localhost"
  /-- How deep filters may be nested. -/
  maxLookupDepth : Int := 5
  /-- The header that names the user. -/
  userHeader : String := "X-User-Id"
  /-- The header that names the groups of the user. -/
  groupsHeader : String := "X-Group-Ids"

/-- All that an installation has chosen. -/
structure Configuration extends Settings where
  /-- The policy of each family. -/
  policy : Family → Policy

end Catalog
