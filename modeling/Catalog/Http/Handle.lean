import Catalog.Http.Answer
import Catalog.Http.Route
import Catalog.Http.Target
import Catalog.Query.Bracket
import Catalog.Service.Write

/-!
# Handling requests

A request over the wire is answered in a fixed order: its path and method say what is asked for;
its body must be JSON; its headers must tell who asks, and its query string must be decodable; its
body must be an object; and then the catalogue is asked. Whatever fails first is what the answer
tells. The answer to a request for the head alone has no value.
-/

namespace Catalog.Http

open Service Text

/-- What handles a request: it may change the store, and may fail. -/
abbrev Handler := ExceptT Problem (StateM Store)

/-- Asks the catalogue for something that may change the store. -/
def asking {α : Type} (w : Write α) : Handler α := do
  match w.run (← get) with
  | (.ok a, store) =>
    set store
    return a
  | (.error e, store) =>
    set store
    throw (.failed e)

/-- Asks the catalogue for something that only reads the store. -/
def reading {α : Type} (f : Store → Outcome α) : Handler α := asking (Write.read f)

/-- A value that is there unless a problem is. -/
def demanding {α : Type} (x : Except Problem α) : Handler α := x

/-- Whether a header can be asked for by a name: in lower case, all its characters are among the
    first 256. -/
def isHeaderName (name : String) : Bool := (lower name).toList.all fun c => c.toNat < 256

/-- The requester that the headers of a request name. -/
def Request.requester (r : Request) (config : Configuration) : Except Fault Requester :=
  if isHeaderName config.userHeader && isHeaderName config.groupsHeader then
    .ok (Requester.read (r.header? config.userHeader) (r.header? config.groupsHeader))
  else .error .headerName

/-- What a request meets: the configuration, the time and the source of new ids. -/
structure Setting where
  /-- The configuration. -/
  config : Configuration
  /-- The time. -/
  now : Moment
  /-- The new ids, in order. -/
  ids : Nat → String

/-- The context of what nobody in particular asks for. -/
def Setting.context (s : Setting) : Context :=
  { config := s.config, requester := {}, now := s.now }

/-- The context of a request. -/
def Setting.contextOf (s : Setting) (r : Request) : Handler Context :=
  match r.requester s.config with
  | .ok requester => return { s.context with requester }
  | .error f => throw (.failed (.broken f))

/-- The decoded query string of a request. -/
def Request.decoded (r : Request) : Handler Value :=
  match decodeQuery (Target.read r.target).query with
  | .ok v => return v
  | .error f => throw (.failed (.broken f))

/-- Answers a request for what only needs a query. -/
def handleRead (s : Setting) (r : Request) (read : Context → Value → Store → Outcome Answer) :
    Handler Answer := do
  let ctx ← s.contextOf r
  let query ← r.decoded
  reading (read ctx query)

/-- Answers a request that comes with an object. -/
def handleBody (s : Setting) (r : Request) (write : Context → Value → Write Answer) :
    Handler Answer := do
  let content ← demanding r.content
  let ctx ← s.contextOf r
  let payload ← demanding content.object
  asking (write ctx (.object payload))

/-- Answers a request that comes with an object and a query. -/
def handleBodyAndQuery (s : Setting) (r : Request)
    (write : Context → Value → Value → Write Answer) : Handler Answer := do
  let content ← demanding r.content
  let ctx ← s.contextOf r
  let query ← r.decoded
  let payload ← demanding content.object
  asking (write ctx (.object payload) query)

/-- The answer with a document that was written. -/
def written (doc : Document) : Write Answer := Write.read fun _ => document doc

/-- Answers a request of the catalogue. -/
def handleEndpoint (s : Setting) (r : Request) : Endpoint → Handler Answer
  | .health => return value (.object [("status", .text "ok")])
  | .list f => handleRead s r fun ctx query store => do
    documents (← find ctx store f query)
  | .count f => handleRead s r fun ctx query store => do
    return number (← count ctx store f query)
  | .get f id => handleRead s r fun ctx query store => do
    document (← findById ctx store f id query)
  | .children f id => handleRead s r fun ctx query store => do
    documents (← findChildren ctx store f id query)
  | .parents f id => handleRead s r fun ctx query store => do
    documents (← findParents ctx store f id query)
  | .create f => handleBody s r fun ctx payload => do
    written (← create ctx f payload (s.ids 0))
  | .createChild f id => handleBody s r fun ctx payload => do
    written (← createChild ctx f id payload (s.ids 0))
  | .updateAll f => handleBodyAndQuery s r fun ctx payload query => do
    return number (← updateAll ctx f payload query)
  | .replace f id => handleBody s r fun ctx payload => do
    let _ ← replace ctx f id payload
    return done
  | .update f id => handleBody s r fun ctx payload => do
    let _ ← update ctx f id payload
    return done
  | .delete f id => asking do
    delete s.context f id
    return done
  | .listEntities id => handleRead s r fun ctx query store => do
    documents (← listEntities ctx store id query)
  | .createInList id => handleBody s r fun ctx payload => do
    written (← createInList ctx id payload (s.ids 0) (s.ids 1))
  | .updateListEntities id => handleBodyAndQuery s r fun ctx payload query => do
    return number (← updateListEntities ctx id payload query)
  | .deleteListEntities id => do
    let ctx ← s.contextOf r
    let query ← r.decoded
    asking do return number (← deleteListEntities ctx id query)
  | .entityLists id => handleRead s r fun ctx query store => do
    documents (← entityLists ctx store id query)

/-- The method of a request; case does not count in it. -/
def Request.normalMethod (r : Request) : String :=
  String.ofList (r.method.toList.map Char.toUpper)

/-- What handles a request. -/
def handler (s : Setting) (r : Request) : Handler Answer :=
  match Route.ofPath (Target.read r.target).path with
  | .unknown => throw .unknownPath
  | .moved => throw .movedPath
  | .found endpoints =>
    match endpoints.lookup r.normalMethod with
    | some e => handleEndpoint s r e
    | none => throw .wrongMethod

/-- The answer to a request, and the store after it. -/
def handle (s : Setting) (r : Request) (store : Store) : Answer × Store :=
  let (result, store) := (handler s r).run store
  let answer := match result with
    | .ok a => a
    | .error p => p.answer
  (if r.normalMethod = "HEAD" then { answer with body := none } else answer, store)

end Catalog.Http
