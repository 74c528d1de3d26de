import Catalog.Policy.Basic
import Catalog.Query.Access
import Catalog.Record.Slug
import Catalog.Time.Timestamp
import Catalog.Value.Whole

/-!
# The life of a record

What becomes of the document that a caller sends: the managed fields are checked, filled in and
derived, and the fields that only the catalogue writes are left out. `Record.create` makes a new
document, `Record.replace` a document in the place of a stored one, and `Record.update` a stored
document with some members changed. Kind and references never change.

None of them writes anything: they give the document to store, or say why there is none.
-/

namespace Catalog

open Text

/-- The fields that list the users and groups who may read a record. -/
def accessArrays : List String := ["_ownerUsers", "_ownerGroups", "_viewerUsers", "_viewerGroups"]

/-- The fields whose number of items is kept in a field of its own. -/
def countedArrays : List String := accessArrays ++ ["_parents"]

/-- The field that keeps the number of items of another. -/
def countField (field : String) : String := field ++ "Count"

/-- The fields that only the catalogue writes. -/
def serverFields : List String :=
  ["_id", "_version", "_fromMetadata", "_toMetadata"] ++ countedArrays.map countField

/-- The members of a payload that a caller may write. -/
def Document.withoutServerFields (doc : Document) : Document :=
  serverFields.foldl (fun d field => d.erase field) doc

/-- The value of a member: null if it is missing. -/
def Document.field (key : String) (doc : Document) : Value := Value.orNull (doc.get? key)

/-- Whether a member is missing or null. -/
def Document.lacks (key : String) (doc : Document) : Bool :=
  match doc.field key with
  | .null => true
  | _ => false

namespace Record

/-! ## Checks -/

/-- A kind that records of a family may be of: a text that is its own slug and is allowed. -/
def checkKind (p : Policy) (v : Value) : Outcome String :=
  match v with
  | .text kind =>
    let slug := slugify kind
    if (trim kind).isEmpty then refuse (.kindNotText p.family)
    else if slug ≠ kind then refuse (.kindNotSlug p.family slug)
    else if p.allowsKind kind then .ok kind
    else refuse (.kindNotAllowed p.family kind p.kinds)
  | _ => refuse (.kindNotText p.family)

/-- A visibility that there is. -/
def checkVisibility (p : Policy) (v : Value) : Outcome Value :=
  match v with
  | .text s => if visibilities.contains s then .ok v else refuse (.visibility p.family visibilities)
  | _ => refuse (.visibility p.family visibilities)

/-- Whether a value is an array of texts, or null. -/
def isTexts : Value → Bool
  | .null => true
  | .array items => items.all fun
    | .text _ => true
    | _ => false
  | _ => false

/-- Whether a value is a text with more than blanks in it. -/
def isName : Value → Bool
  | .text s => !(trim s).isEmpty
  | _ => false

/-- Refuses a document without a name if it needs one, or with a list field that is no array of
    texts. -/
def checkShape (p : Policy) (doc : Document) : Outcome Unit := do
  if p.family.requiresName && !isName (doc.field "_name") then refuse (.nameMissing p.family)
  match countedArrays.find? fun field => !isTexts (doc.field field) with
  | some field => refuse (.notTexts p.family field)
  | none => return

/-- The timestamp that a member writes, in the form in which it is stored; null is none. -/
def timestampAt (p : Policy) (field : String) (doc : Document) : Outcome (Option String) :=
  match doc.field field with
  | .null => .ok none
  | .text s =>
    match Timestamp.read s false with
    | .instant t => .ok (some t.timestamp)
    | .outOfRange => giveUp .outOfCalendar
    | .malformed => refuse (.notTimestamp p.family field)
  | _ => refuse (.notTimestamp p.family field)

/-- Refuses a payload that changes the kind or a reference of a stored document. -/
def checkUnchanged (p : Policy) (stored payload : Document) : Outcome Unit := do
  let changes (field : String) : Bool :=
    match payload.get? field with
    | some v => !v.same (stored.field field)
    | none => false
  if changes "_kind" then refuse (.kindChanged p.family (stored.field "_kind"))
  match p.family.references.find? fun (field, _) => changes field with
  | some (_, target) => refuse (.referenceChanged target)
  | none => return

/-! ## Derived fields -/

/-- The number of items of a value; what counts as nothing has none. -/
def itemCount (v : Value) : Except Fault Nat :=
  if v.truthy then do return (← orFault .shape v.elements?).length else .ok 0

/-- The document with the number of items of each counted field. -/
def putCounts (doc : Document) : Except Fault Document :=
  countedArrays.foldlM (fun d field => do
    return d.put (countField field) (.int (← itemCount (d.field field)))) doc

/-- The document with a slug made of its name, if it has a name and no slug. -/
def putSlug (doc : Document) : Document :=
  if (doc.field "_name").truthy && !(doc.field "_slug").truthy then
    doc.put "_slug" (.text (slugify (doc.field "_name").display))
  else doc

/-- The document with its derived fields, if its shape is right. -/
def finish (p : Policy) (doc : Document) : Outcome Document := do
  let doc := putSlug doc
  let doc ← if p.family.hasAccessFields then putCounts doc else pure doc
  checkShape p doc
  return doc

/-- The version after that of a stored document; one that counts as nothing is version zero. -/
def nextVersion (stored : Document) : Except Fault Int := do
  let v := stored.field "_version"
  if v.truthy then return (← orFault .notANumeral v.whole?) + 1 else return 1

/-! ## Operations -/

/-- A timestamp as a value; none is null. -/
def timestampValue (t : Option String) : Value := Value.orNull (t.map .text)

/-- The document with the fields that say who may read it, filled in where they are missing. -/
def putAccess (p : Policy) (kind : String) (requester : Requester) (body doc : Document) :
    Outcome Document := do
  let given := body.field "_visibility"
  let visibility ← if given.truthy then pure given else do
    pure (.text (← p.visibility.get (.text kind)))
  let doc := doc.put "_visibility" (← checkVisibility p visibility)
  let doc := if body.lacks "_ownerUsers" then
      doc.put "_ownerUsers" (.array (requester.user.toList.map .text))
    else doc
  return ["_ownerGroups", "_viewerUsers", "_viewerGroups", "_parents"].foldl
    (fun d field => if d.lacks field then d.put field (.array []) else d) doc

/-- The kind that a payload names, or else the default kind. -/
def kindOf (p : Policy) (payload : Document) : Outcome String :=
  checkKind p (if payload.lacks "_kind" then .text p.defaultKind else payload.field "_kind")

/-- A new document with an id: the members of the payload and all managed fields. The requester
    becomes the owner if none is named. -/
def create (p : Policy) (payload : Document) (requester : Requester) (now : Instant)
    (id : String) : Outcome Document := do
  let kind ← kindOf p payload
  let body := payload.withoutServerFields.erase "_kind"
  let doc := Document.putAll [("_id", .text id), ("_kind", .text kind)] body
  let doc := doc.put "_version" (.int 1)
  let created ← timestampAt p "_createdDateTime" body
  let doc := doc.put "_createdDateTime" (.text (created.getD now.timestamp))
  let updated ← timestampAt p "_lastUpdatedDateTime" body
  let doc := doc.put "_lastUpdatedDateTime" (.text (updated.getD now.timestamp))
  let given ← timestampAt p "_validFromDateTime" body
  let approved ← p.autoapprove.get (.text kind)
  let validFrom := given.or (if approved then some now.timestamp else none)
  let doc := doc.put "_validFromDateTime" (timestampValue validFrom)
  let validUntil ← timestampAt p "_validUntilDateTime" body
  let doc := doc.put "_validUntilDateTime" (timestampValue validUntil)
  let doc ← if p.family.hasAccessFields then putAccess p kind requester body doc else pure doc
  finish p doc

/-- The document with the version and time of a writing. -/
def putWriting (p : Policy) (stored body : Document) (now : Instant) (doc : Document) :
    Outcome Document := do
  let doc := doc.put "_version" (.int (← nextVersion stored))
  let updated ← timestampAt p "_lastUpdatedDateTime" body
  return doc.put "_lastUpdatedDateTime" (.text (updated.getD now.timestamp))

/-- The document with those managed fields of the stored one that are missing. -/
def keepAccess (p : Policy) (stored doc : Document) : Outcome Document := do
  let doc := ("_visibility" :: countedArrays).foldl
    (fun d field => if d.lacks field then d.put field (stored.field field) else d) doc
  let _ ← checkVisibility p (doc.field "_visibility")
  return doc

/-- The document that takes the place of a stored one: the members of the payload and the managed
    fields, which are kept where the payload has none. -/
def replace (p : Policy) (stored payload : Document) (now : Instant) : Outcome Document := do
  checkUnchanged p stored payload
  let body := payload.withoutServerFields
  let id ← orFault .noId (stored.get? "_id")
  let doc := Document.putAll [("_id", id), ("_kind", stored.field "_kind")] body
  let doc := doc.put "_kind" (stored.field "_kind")
  let doc := doc.put "_createdDateTime" (stored.field "_createdDateTime")
  let doc := p.family.references.foldl (fun d (field, _) =>
    match stored.get? field with
    | some v => d.put field v
    | none => d) doc
  let doc ← ["_validFromDateTime", "_validUntilDateTime"].foldlM (fun d field => do
    if body.has field then return d.put field (timestampValue (← timestampAt p field body))
    else return d.put field (stored.field field)) doc
  let doc ← if p.family.hasAccessFields then keepAccess p stored doc else pure doc
  finish p (← putWriting p stored body now doc)

/-- A stored document with the members of a payload written over its own. -/
def update (p : Policy) (stored payload : Document) (now : Instant) : Outcome Document := do
  checkUnchanged p stored payload
  let body := payload.withoutServerFields
  let doc := stored.putAll body
  let doc ← ["_validFromDateTime", "_validUntilDateTime"].foldlM (fun d field => do
    if body.has field then return d.put field (timestampValue (← timestampAt p field body))
    else return d) doc
  let doc := doc.put "_createdDateTime" (stored.field "_createdDateTime")
  if p.family.hasAccessFields && body.has "_visibility" then
    let _ ← checkVisibility p (doc.field "_visibility")
  finish p (← putWriting p stored body now doc)

end Record

end Catalog
