import Catalog.Policy.Basic
import Catalog.Record.Reference
import Catalog.Store

/-!
# Constraints on references

A constraint demands of the references in a field that they are well formed, that they name records
of a family that are stored, and that these are of a kind. The parents of a reaction must be about
the same record as the reaction.
-/

namespace Catalog

/-- The field of a reaction that names what it is about, and the family of that. -/
def Family.sharedWithParents? : Family → Option (String × Family)
  | .entityReactions => some ("_entityId", .entities)
  | .listReactions => some ("_listId", .lists)
  | _ => none

/-- The stored records that references name, each with the reference that names it. -/
def storedRecords (config : Configuration) (store : Store) (refs : List Reference) :
    List (Reference × Document) :=
  Family.all.flatMap fun f =>
    let ids := (refs.filter fun r => r.family == f).map Reference.id
    (store.fetchMany (config.policy f).collection ids).filterMap fun d =>
      match d.get? "_id" with
      | some (.text id) => some (⟨f, id⟩, d)
      | _ => none

/-- Whether a value is a reference to a record of a family on the host. -/
def isReferenceTo (expected : String) (f : Family) (v : Value) : Bool :=
  match v with
  | .text s =>
    (Reference.read? s).any (fun r => r.family == f) && expected.toList.isPrefixOf s.toList
  | _ => false

/-- The values of a property that holds references; a missing or empty one holds none. -/
def referenceValues (v : Value) : List Value :=
  match v with
  | .null => []
  | .text s => if s.isEmpty then [] else [.text s]
  | .array items => items
  | v => [v]

/-- Refuses values that are no references to records of the family that a constraint demands. -/
def LookupConstraint.checkForm (config : Configuration) (f : Family) (c : LookupConstraint)
    (values : List Value) : Outcome Unit :=
  match c.family with
  | some target =>
    let expected := Reference.write config.referenceHost ⟨target, ""⟩
    if values.all (isReferenceTo expected target) then .ok ()
    else refuse (.referenceForm f c.path expected)
  | none => .ok ()

/-- Refuses references that name no stored record, or one of another kind than a constraint
    demands, or parents that are about another record. -/
def LookupConstraint.checkTargets (config : Configuration) (store : Store) (f : Family)
    (record : Document) (c : LookupConstraint) (refs : List Reference) : Outcome Unit := do
  let targets := storedRecords config store refs
  let missing := refs.filter fun r => (targets.lookup r).isNone
  if !missing.isEmpty then
    refuse (.referenceDangling f c.path (missing.map fun r => r.family.segment ++ "/" ++ r.id))
  let differs (field : String) (v : Value) : Bool :=
    targets.any fun t => !(Value.orNull (t.2.get? field)).same v
  match c.targetKind with
  | .null => pure ()
  | kind => if differs "_kind" kind then refuse (.referenceKind f c.path kind)
  match f.sharedWithParents? with
  | some (field, target) =>
    let own := Value.orNull (record.get? field)
    if c.path = "_parents" ∧ differs field own then refuse (.parentElsewhere f field target own)
  | none => pure ()

/-- Refuses a record whose references do not meet a constraint. A constraint that demands neither a
    family nor a kind is met. -/
def LookupConstraint.check (config : Configuration) (store : Store) (f : Family)
    (record : Document) (c : LookupConstraint) : Outcome Unit := do
  match referenceValues (Value.orNull (record.path? c.path)) with
  | [] => return
  | values =>
    c.checkForm config f values
    match c.family, c.targetKind with
    | none, .null => return
    | _, _ => c.checkTargets config store f record (values.filterMap Reference.ofValue?)

/-- Refuses a record whose references do not meet the constraints of its family. -/
def checkReferences (config : Configuration) (store : Store) (p : Policy) (record : Document) :
    Outcome Unit :=
  (p.constraints.filter fun c => c.appliesTo (Value.orNull (record.get? "_kind"))).forM
    (LookupConstraint.check config store p.family record)

end Catalog
