import Catalog.Query.FilterError
import Catalog.Value.Path

/-!
# Failures

An operation that fails ends in one of two ways. A *refusal* is an answer: a rule of the catalogue
does not allow the request, and the refusal says which, with a name, a code, a status and a
sentence for the caller. A *fault* is none: the operation met something that no rule covers, such
as an operand of the wrong kind or an instant outside the calendar.
-/

namespace Catalog

/-- What an operation met that no rule covers. -/
inductive Fault where
  /-- An instant outside the years 1 to 9999. -/
  | outOfCalendar
  /-- A text that was taken for a numeral. -/
  | notANumeral
  /-- An operand that does not fit its operator. -/
  | operand
  /-- A regular expression that is not well formed. -/
  | pattern
  /-- A value whose shape was taken for granted. -/
  | shape
  /-- An array or object where a key is needed. -/
  | notAKey
  /-- A document without an id. -/
  | noId
  /-- A whole number with more digits than any number that is written. -/
  | tooManyDigits
  /-- Values nested too deep. -/
  | tooDeep
  /-- A header name with a character that no header name has. -/
  | headerName
  /-- A second document with one id. -/
  | duplicateId
deriving DecidableEq, Repr

/-- One entry of the details of a refusal. -/
structure Detail where
  /-- The code. -/
  code : String
  /-- The sentence for the caller. -/
  message : String
  /-- Further facts. -/
  info : Document

/-- Why a request is refused. -/
inductive Refusal where
  /-- A filter or set expression is not accepted. -/
  | filter (e : FilterError)
  /-- There is no such record, or none that the requester may read. -/
  | notFound (family : Family) (id : String)
  /-- The kind of a record is no text with something in it. -/
  | kindNotText (family : Family)
  /-- The kind of a record is not its own slug. -/
  | kindNotSlug (family : Family) (slug : String)
  /-- The kind of a record is not among the allowed ones. -/
  | kindNotAllowed (family : Family) (kind : String) (allowed : List String)
  /-- The kind of a record would change. -/
  | kindChanged (family : Family) (current : Value)
  /-- The kinds of many records would change at once. -/
  | kindsChanged (family : Family)
  /-- The record that a record belongs to would change. -/
  | referenceChanged (target : Family)
  /-- A visibility is none of those there are. -/
  | visibility (family : Family) (allowed : List String)
  /-- A record has no name. -/
  | nameMissing (family : Family)
  /-- A field is no array of texts. -/
  | notTexts (family : Family) (field : String)
  /-- A field is no timestamp. -/
  | notTimestamp (family : Family) (field : String)
  /-- A relation does not name both its ends. -/
  | endsMissing
  /-- A reaction does not name what it is about. -/
  | targetMissing (family : Family) (fields : List String)
  /-- There are as many records as a rule allows. -/
  | limitExceeded (family : Family) (limit : Int) (scope : String)
  /-- There is a record with the same values of fields that a rule makes unique. -/
  | alreadyExists (family : Family) (fields : List Value) (scope : String)
  /-- A list has as many entities as it may. -/
  | listFull (limit : Int) (listId listKind : Value)
  /-- A property is no reference of the form that a constraint demands. -/
  | referenceForm (family : Family) (path expected : String)
  /-- A property refers to records that are not there. -/
  | referenceDangling (family : Family) (path : String) (missing : List String)
  /-- A property refers to records of a kind that a constraint does not allow. -/
  | referenceKind (family : Family) (path : String) (kind : Value)
  /-- A reaction has a parent that belongs to another record. -/
  | parentElsewhere (family : Family) (field : String) (target : Family) (own : Value)

namespace Refusal

/-- The code of a refusal. -/
def code : Refusal → String
  | .filter _ => "INVALID-FILTER"
  | .notFound f _ => s!"{f.codeStem}-NOT-FOUND"
  | .kindNotText f | .kindNotSlug f _ | .kindNotAllowed f _ _ => s!"INVALID-{f.codeStem}-KIND"
  | .kindChanged f _ | .kindsChanged f => s!"IMMUTABLE-{f.codeStem}-KIND"
  | .referenceChanged target => s!"IMMUTABLE-{target.codeStem}-ID"
  | .visibility f _ => s!"INVALID-{f.codeStem}-VISIBILITY"
  | .nameMissing f => s!"MISSING-{f.codeStem}-NAME"
  | .notTexts f _ | .notTimestamp f _ => s!"INVALID-{f.codeStem}-FIELD"
  | .endsMissing => "RELATION-MISSING-IDS"
  | .targetMissing f _ => s!"MISSING-{f.codeStem}-TARGET"
  | .limitExceeded f _ _ => s!"{f.codeStem}-LIMIT-EXCEEDED"
  | .alreadyExists f _ _ => s!"{f.codeStem}-ALREADY-EXISTS"
  | .listFull _ _ _ => "LIST-ENTITY-LIMIT-EXCEEDED"
  | .referenceForm f _ _ | .referenceDangling f _ _ => s!"{f.codeStem}-INVALID-LOOKUP-REFERENCE"
  | .referenceKind f _ _ => s!"{f.codeStem}-INVALID-LOOKUP-KIND"
  | .parentElsewhere f _ target _ => s!"{f.codeStem}-INVALID-PARENT-{target.codeStem}-ID"

/-- The name of a refusal. -/
def name : Refusal → String
  | .filter _ => "InvalidFilterError"
  | .notFound _ _ => "NotFoundError"
  | .kindNotText _ | .kindNotSlug _ _ | .kindNotAllowed _ _ _ => "InvalidKindError"
  | .kindChanged _ _ | .kindsChanged _ => "ImmutableKindError"
  | .referenceChanged target => s!"Immutable{target.display}IdError"
  | .visibility _ _ | .nameMissing _ | .targetMissing _ _ => "ValidationError"
  | .notTexts _ _ | .notTimestamp _ _ => "InvalidFieldError"
  | .endsMissing => "BadRequestError"
  | .limitExceeded _ _ _ | .listFull _ _ _ => "LimitExceededError"
  | .alreadyExists _ _ _ => "DataUniquenessViolationError"
  | .referenceForm _ _ _ | .referenceDangling _ _ _ => "InvalidLookupReferenceError"
  | .referenceKind _ _ _ => "InvalidLookupConstraintError"
  | .parentElsewhere _ _ target _ => s!"InvalidParent{target.display}IdError"

/-- The status of the answer to a request that is refused. -/
def status : Refusal → Nat
  | .filter _ | .endsMissing => 400
  | .notFound _ _ => 404
  | .alreadyExists _ _ _ => 409
  | .limitExceeded _ _ _ | .listFull _ _ _ => 429
  | _ => 422

/-- The sentence that tells the caller. -/
def message : Refusal → String
  | .filter e => e.message
  | .notFound f id => s!"{f.display} with id '{id}' could not be found."
  | .kindNotText f => s!"{f.display} kind must be a non-empty string."
  | .kindNotSlug f slug =>
    s!"{f.display} kind cannot contain special or uppercase characters. Use '{slug}' instead."
  | .kindNotAllowed f kind allowed =>
    s!"{f.display} kind '{kind}' is not valid. Use any of these values instead: " ++
      ", ".intercalate allowed
  | .kindChanged f current =>
    s!"{f.display} kind cannot be changed after creation. Current kind is '{current.display}'."
  | .kindsChanged f => s!"{f.display} kind cannot be changed after creation."
  | .referenceChanged target => s!"{target.display} id cannot be changed after creation."
  | .visibility f allowed =>
    s!"{f.display} visibility must be one of: " ++ ", ".intercalate allowed ++ "."
  | .nameMissing f => s!"{f.display} name is required."
  | .notTexts _ field => s!"{field} must be an array of strings."
  | .notTimestamp _ field => s!"{field} must be an ISO-8601 date-time."
  | .endsMissing => "Relation requires both _listId and _entityId."
  | .targetMissing f fields => s!"{f.display} requires " ++ ", ".intercalate fields ++ "."
  | .limitExceeded f _ _ => s!"{f.display} limit is exceeded."
  | .alreadyExists f _ _ => s!"{f.display} already exists."
  | .listFull limit _ _ =>
    s!"List entity limit is exceeded. This list cannot contain more than {limit} entities."
  | .referenceForm _ path expected =>
    s!"Invalid reference format in property '{path}'. Expected format: '{expected}" ++
      "\x7bid\x7d'"
  | .referenceDangling _ path _ =>
    s!"One or more lookup references in property '{path}' point at records that do not exist."
  | .referenceKind _ path kind =>
    s!"One or more lookup references in property '{path}' do not meet the constraint: " ++
      s!"expected targetKind='{kind.display}'."
  | .parentElsewhere _ _ target own =>
    s!"One or more parent reactions in property '_parents' do not have matching " ++
      s!"{target.friendly} ID. Expected {target.friendly} ID: '{own.display}'."

/-- The facts of a refusal that has details. -/
def info? : Refusal → Option Document
  | .limitExceeded _ limit scope => some [("limit", .int limit), ("scope", .text scope)]
  | .alreadyExists _ fields scope => some [("fields", .array fields), ("scope", .text scope)]
  | .listFull limit listId listKind =>
    some [("limit", .int limit), ("listId", listId), ("listKind", listKind)]
  | .referenceForm _ path _ => some [("propertyPath", .text path)]
  | .referenceDangling _ path missing =>
    some [("propertyPath", .text path), ("missing", .array (missing.map .text))]
  | .referenceKind _ path kind => some [("propertyPath", .text path), ("targetKind", kind)]
  | .parentElsewhere _ field _ own =>
    some (Document.put field own [("propertyPath", .text "_parents")])
  | _ => none

/-- The details of a refusal: one entry with its code, its sentence and its facts, or none. -/
def details (r : Refusal) : List Detail :=
  match r.info? with
  | some info => [{ code := r.code, message := r.message, info }]
  | none => []

end Refusal

/-- How an operation fails. -/
inductive Failure where
  /-- A rule does not allow it. -/
  | refused (r : Refusal)
  /-- It met something that no rule covers. -/
  | broken (f : Fault)

/-- What an operation gives: a value, or how it failed. -/
abbrev Outcome := Except Failure

instance : MonadLift (Except Fault) Outcome where
  monadLift
    | .ok a => .ok a
    | .error f => .error (.broken f)

/-- Refuses a request. -/
def refuse {α : Type} (r : Refusal) : Outcome α := .error (.refused r)

/-- Refuses a filter or set expression. -/
def refuseFilter {α : Type} (e : FilterError) : Outcome α := refuse (.filter e)

/-- Gives up at something that no rule covers. -/
def giveUp {α : Type} (f : Fault) : Outcome α := .error (.broken f)

/-- The value there is, or else a fault. -/
def orFault {α : Type} (f : Fault) : Option α → Except Fault α
  | some a => .ok a
  | none => .error f

end Catalog
