import Catalog.Query.Condition
import Catalog.Text.Blank
import Catalog.Value.Display

/-!
# Who may read what

A requester is a user, with an optional id, who belongs to groups. What says itself who may read it
can be read if it is public; if the user is an owner or viewer; or if one of the groups is, unless
it is private. `Requester.predicate` is the condition that says so.
-/

namespace Catalog

open Text

/-- The ids that a value lists: the items of an array, or what stands between the commas of a text,
    without blanks around them; empty ones do not count. -/
def splitIds (v : Value) : List String :=
  let parts := match v with
    | .null => []
    | .array items => items.map Value.display
    | v => splitOn ',' v.display
  (parts.map trim).filter fun s => !s.isEmpty

/-- Who asks. -/
structure Requester where
  /-- The id of the user, if known. -/
  user : Option String := none
  /-- The ids of the user's groups. -/
  groups : List String := []
deriving DecidableEq, Repr

namespace Requester

/-- The requester that two texts name: a user, and groups between commas. -/
def read (user groups : Option String) : Requester :=
  { user := (user.map trim).filter fun s => !s.isEmpty,
    groups := splitIds (Value.orNull (groups.map .text)) }

/-- A requester of whom nothing is known. -/
def isAnonymous (r : Requester) : Bool := r.user.isNone && r.groups.isEmpty

/-- The condition that the user is an owner or viewer. -/
def userClauses (r : Requester) : List Condition :=
  match r.user with
  | some u => [.equals "_ownerUsers" (.text u), .equals "_viewerUsers" (.text u)]
  | none => []

/-- The condition that one of the groups is an owner or viewer of what is not private. -/
def groupClauses (r : Requester) : List Condition :=
  if r.groups.isEmpty then []
  else
    let ids := Value.array (r.groups.map .text)
    [.conj [
      .disj [.compare "_ownerGroups" .inq ids, .compare "_viewerGroups" .inq ids],
      .compare "_visibility" .neq (.text "private")]]

/-- The condition on a record that the requester may read it. Without access control, and of
    records that do not say who may read them, everything may be read. -/
def predicate (r : Requester) (enabled hasAccessFields : Bool) : Condition :=
  if !enabled || !hasAccessFields then .always
  else .disj (.equals "_visibility" (.text "public") :: r.userClauses ++ r.groupClauses)

end Requester

end Catalog
