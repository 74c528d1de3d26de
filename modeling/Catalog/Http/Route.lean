import Catalog.Record.Family
import Catalog.Text.Blank

/-!
# Routes

Which request of the catalogue a method and path stand for. A decoded path is cut at its slashes;
it may stand for several requests, told apart by the method. Where a path says the same in two ways,
the more specific one comes first. A fixed word at the end of a path may have a line end after it. A
path that stands for nothing has *moved* if it stands for something without the slashes at its end.
-/

namespace Catalog.Http

open Text

/-- A request of the catalogue. -/
inductive Endpoint where
  /-- Whether the catalogue is there. -/
  | health
  /-- The records of a family. -/
  | list (f : Family)
  /-- Their number. -/
  | count (f : Family)
  /-- One record. -/
  | get (f : Family) (id : String)
  /-- The children of a record. -/
  | children (f : Family) (id : String)
  /-- The parents of a record. -/
  | parents (f : Family) (id : String)
  /-- Make a record. -/
  | create (f : Family)
  /-- Make a child of a record. -/
  | createChild (f : Family) (id : String)
  /-- Write over all selected records. -/
  | updateAll (f : Family)
  /-- Put something in the place of a record. -/
  | replace (f : Family) (id : String)
  /-- Write over a record. -/
  | update (f : Family) (id : String)
  /-- Remove a record. -/
  | delete (f : Family) (id : String)
  /-- The entities in a list. -/
  | listEntities (listId : String)
  /-- Make an entity in a list. -/
  | createInList (listId : String)
  /-- Write over the selected entities in a list. -/
  | updateListEntities (listId : String)
  /-- Remove the selected entities in a list. -/
  | deleteListEntities (listId : String)
  /-- The lists that an entity is in. -/
  | entityLists (entityId : String)
deriving DecidableEq, Repr

/-- The requests about all records of a family, by method. -/
def familyEndpoints (f : Family) : List (String × Endpoint) :=
  [("GET", .list f), ("POST", .create f), ("PATCH", .updateAll f)]

/-- A segment at the end of a path without a line end at its end. -/
def lastSegment (segment : String) : String :=
  match segment.toList.reverse with
  | '\n' :: rest => String.ofList rest.reverse
  | _ => segment

/-- The requests about one record, by method. -/
def recordEndpoints (f : Family) (id : String) : List (String × Endpoint) :=
  (if lastSegment id = "count" then [("GET", .count f)] else []) ++
    [("GET", .get f id), ("PUT", .replace f id), ("PATCH", .update f id), ("DELETE", .delete f id)]

/-- The requests about what belongs to one record, by method. -/
def partEndpoints (f : Family) (id part : String) : List (String × Endpoint) :=
  let relations : List (String × Endpoint) :=
    if f = .lists ∧ part = "entities" then
      [("GET", .listEntities id), ("POST", .createInList id), ("PATCH", .updateListEntities id),
        ("DELETE", .deleteListEntities id)]
    else if f = .entities ∧ part = "lists" then [("GET", .entityLists id)]
    else []
  let own : List (String × Endpoint) :=
    if !f.hasAccessFields then []
    else if part = "children" then [("GET", .children f id), ("POST", .createChild f id)]
    else if part = "parents" then [("GET", .parents f id)]
    else []
  relations ++ own

/-- The requests that the segments of a path stand for, by method. -/
def endpointsOf : List String → List (String × Endpoint)
  | [segment] =>
    let segment := lastSegment segment
    if segment = "health" then [("GET", .health)]
    else ((Family.ofSegment? segment).map familyEndpoints).getD []
  | [segment, id] =>
    if id.isEmpty then []
    else ((Family.ofSegment? segment).map fun f => recordEndpoints f id).getD []
  | [segment, id, part] =>
    if id.isEmpty then []
    else ((Family.ofSegment? segment).map fun f => partEndpoints f id (lastSegment part)).getD []
  | _ => []

/-- The segments of a path, which begins with a slash. -/
def segments (path : List Char) : List String :=
  match path with
  | '/' :: rest => (splitChars '/' rest).map String.ofList
  | _ => []

/-- Where a path leads. -/
inductive Route where
  /-- To requests of the catalogue, by method, at least one. -/
  | found (endpoints : List (String × Endpoint))
  /-- To the path without the slashes at its end. -/
  | moved
  /-- Nowhere. -/
  | unknown
deriving DecidableEq, Repr

/-- Where a decoded path leads. -/
def Route.ofPath (path : List Char) : Route :=
  match endpointsOf (segments path) with
  | [] =>
    match endpointsOf (segments (dropEndWhile (· == '/') path)) with
    | [] => .unknown
    | _ => .moved
  | endpoints => .found endpoints

example : Route.ofPath "/lists/a b/children".toList =
    .found [("GET", .children .lists "a b"), ("POST", .createChild .lists "a b")] := by
  decide
example : Route.ofPath "/entities/count//".toList = .moved := by decide
example : Route.ofPath "/health\n\n".toList = .unknown := by decide

end Catalog.Http
