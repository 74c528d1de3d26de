import Catalog.Plan.Run
import Catalog.Rule.Scope

/-!
# Limits and uniqueness

Before a record is written, the rules of its family are checked: how many records there may be in a
scope, and which fields must differ from those of the records in a scope. The records are counted by
the same plans that list them, without access control. A record that is written again does not
count itself.
-/

namespace Catalog

/-- The number of records of a family in a scope that meet a further condition. -/
def countInScope (ctx : Context) (store : Store) (f : Family) (scope : Scope) (extra : Condition) :
    Outcome Nat := do
  let plan ← Plan.count ctx f scope.filter scope.set extra
  return (← plan.run ctx store).length

/-- The condition that leaves out the record with an id; null leaves out none. -/
def leavingOut (exclude : Value) : Condition :=
  if exclude.truthy then .compare "_id" .neq exclude else .always

/-- A record is judged one millisecond after the instant of its writing. -/
def afterWriting (ctx : Context) : Except Fault Context := do
  return { ctx with now := ← orFault .outOfCalendar (ctx.now.shift? 1000) }

/-- Refuses a record in the scope of a limit rule that has no room for one more. -/
def LimitRule.check (ctx : Context) (store : Store) (f : Family) (record : Document)
    (exclude : Value) (rule : LimitRule) : Outcome Unit := do
  let after ← afterWriting ctx
  let owners ← ownersOf record
  let rendered := Template.render rule.scope (.object record)
  let scope ← Scope.read rendered (some owners)
  let inScope ← baseCondition after f scope.filter scope.set .always
  if ← (inScope.holds (.object record) : Except Fault _) then
    let count ← countInScope ctx store f scope (leavingOut exclude)
    if rule.limit ≤ count then refuse (.limitExceeded f rule.limit rendered)

/-- Refuses a record that a limit of its family has no room for. -/
def checkLimits (ctx : Context) (store : Store) (p : Policy) (record : Document)
    (exclude : Value) : Outcome Unit := do
  let ctx := ctx.unrestricted
  let _ ← (afterWriting ctx : Except Fault _)
  let _ ← (ownersOf record : Except Fault _)
  let rules ← p.limitsFor (Value.orNull (record.get? "_kind"))
  rules.forM (LimitRule.check ctx store p.family record exclude)

/-- The condition that a field has the value that it has in a record; a missing value counts as
    null. A field that is no text is a fault. -/
def sameField (record : Document) : Value → Except Fault Condition
  | .text path => .ok (.equals path (Value.orNull (record.path? path)))
  | _ => .error .shape

/-- Refuses a record if there is another one in the scope of a rule of uniqueness with the same
    values of its fields. -/
def UniquenessRule.check (ctx : Context) (store : Store) (f : Family) (record : Document)
    (exclude : Value) (rule : UniquenessRule) : Outcome Unit := do
  let owners ← ownersOf record
  let rendered := Template.render rule.scope (.object record)
  let scope ← Scope.read rendered (some owners)
  let same ← (rule.fields.mapM (sameField record) : Except Fault _)
  let count ← countInScope ctx store f scope (.conj [.conj same, leavingOut exclude])
  if 0 < count then refuse (.alreadyExists f rule.fields rendered)

/-- Refuses a record that is not unique as the rules of its family demand. -/
def checkUniqueness (ctx : Context) (store : Store) (p : Policy) (record : Document)
    (exclude : Value) : Outcome Unit := do
  let ctx := ctx.unrestricted
  let _ ← (ownersOf record : Except Fault _)
  let rules ← p.uniquenessFor (Value.orNull (record.get? "_kind"))
  rules.forM (UniquenessRule.check ctx store p.family record exclude)

/-- Refuses one more entity in a list that is full. -/
def checkListRoom (ctx : Context) (store : Store) (p : Policy) (list : Document) :
    Outcome Unit := do
  let kind := Value.orNull (list.get? "_kind")
  match ← p.listEntityLimit.get kind with
  | none => return
  | some limit =>
    let id ← orFault .noId (list.get? "_id")
    let scope : Scope := { filter := { condition := .equals "_listId" id } }
    let count ← countInScope ctx.unrestricted store p.family scope .always
    if limit ≤ count then refuse (.listFull limit id kind)

end Catalog
