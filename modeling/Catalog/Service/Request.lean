import Catalog.Service.Write

/-!
# Requests

The requests as data: those that only read the store, with what they are answered
(`Service.answer`), and those that may change it, with what each of them does to it
(`Service.perform`), whatever its answer.
-/

namespace Catalog.Service

/-! ## Reading -/

/-- A request that only reads the store. -/
inductive ReadRequest where
  /-- The records of a family that a query selects. -/
  | find (f : Family) (query : Value)
  /-- The number of records of a family that a query selects. -/
  | count (f : Family) (query : Value)
  /-- The record of a family with an id. -/
  | findById (f : Family) (id : String) (query : Value)
  /-- The records that name a record among their parents. -/
  | findChildren (f : Family) (id : String) (query : Value)
  /-- The records that a record names among its parents. -/
  | findParents (f : Family) (id : String) (query : Value)
  /-- The entities in a list. -/
  | listEntities (listId : String) (query : Value)
  /-- The lists that an entity is in. -/
  | entityLists (entityId : String) (query : Value)

/-- What a request that only reads is answered. -/
inductive Answer where
  /-- Records. -/
  | records (docs : List Document)
  /-- One record. -/
  | record (doc : Document)
  /-- A number of records. -/
  | number (n : Nat)

/-- What a request that only reads is answered on a store. -/
def answer (ctx : Context) (store : Store) : ReadRequest → Outcome Answer
  | .find f query => do return .records (← find ctx store f query)
  | .count f query => do return .number (← count ctx store f query)
  | .findById f id query => do return .record (← findById ctx store f id query)
  | .findChildren f id query => do return .records (← findChildren ctx store f id query)
  | .findParents f id query => do return .records (← findParents ctx store f id query)
  | .listEntities listId query => do return .records (← listEntities ctx store listId query)
  | .entityLists entityId query => do return .records (← entityLists ctx store entityId query)

/-! ## Writing -/

/-- A request that may change the store. Ids of new records come with it. -/
inductive WriteRequest where
  /-- Makes a record. -/
  | create (f : Family) (payload : Value) (id : String)
  /-- Makes a record that has another one among its parents. -/
  | createChild (f : Family) (parentId : String) (payload : Value) (id : String)
  /-- Makes an entity and the relation that puts it into a list. -/
  | createInList (listId : String) (payload : Value) (entityId relationId : String)
  /-- Puts a payload in the place of a record. -/
  | replace (f : Family) (id : String) (payload : Value)
  /-- Writes the members of a payload over those of a record. -/
  | update (f : Family) (id : String) (payload : Value)
  /-- Writes a payload over all selected records. -/
  | updateAll (f : Family) (payload query : Value)
  /-- Writes a payload over the selected entities in a list. -/
  | updateListEntities (listId : String) (payload query : Value)
  /-- Removes a record and those that name it. -/
  | delete (f : Family) (id : String)
  /-- Removes the selected entities in a list and what names them. -/
  | deleteListEntities (listId : String) (query : Value)

/-- What a request does to the store. -/
def perform (ctx : Context) : WriteRequest → Write Unit
  | .create f payload id => discard (create ctx f payload id)
  | .createChild f parentId payload id => discard (createChild ctx f parentId payload id)
  | .createInList listId payload entityId relationId =>
    discard (createInList ctx listId payload entityId relationId)
  | .replace f id payload => discard (replace ctx f id payload)
  | .update f id payload => discard (update ctx f id payload)
  | .updateAll f payload query => discard (updateAll ctx f payload query)
  | .updateListEntities listId payload query =>
    discard (updateListEntities ctx listId payload query)
  | .delete f id => delete ctx f id
  | .deleteListEntities listId query => discard (deleteListEntities ctx listId query)

end Catalog.Service
